import TelegramServer.Audit.Event
import TelegramServer.Lib.HashChain

/-!
The hash chain of the audit log and its verifier (`internal/audit/chain.go`).
SHA-256 is an arbitrary function to 32-byte strings throughout: nothing below
uses more of it than the length of a digest.

`verifyChain` walks an iterator. In Go the iterator is a closure that yields a
row, the end, or an error; here it is the rows it is going to yield and how it
stops, and the verdict says which rows were left unread.
-/

namespace TelegramServer.Audit

open Go Lib

/-- SHA-256, as far as the chain depends on it. -/
structure Sha256 where
  sum : Bytes → Bytes
  length_sum : ∀ b, (sum b).length = 32

/-- The seed the chain is anchored at. -/
def genesisSeed : Bytes := utf8 "telegram_server-audit-genesis-v1"

theorem genesisSeed_length : genesisSeed.length = 32 := by decide

def genesisHash (sha : Sha256) : Bytes := sha.sum genesisSeed

/-- One link: the two byte strings are hashed one after the other, with
nothing between them. -/
def computeRowHash (sha : Sha256) (prev payload : Bytes) : Bytes := sha.sum (prev ++ payload)

/-- A row as the verifier consumes it. -/
structure ChainRow where
  id : ℕ
  /-- The Go field `At`. -/
  time : Time
  stage : String
  prevHash : Bytes
  rowHash : Bytes
  payload : Bytes
  deriving DecidableEq

structure VerifyBreak where
  id : ℕ
  time : Time
  stage : String
  column : String
  expected : Bytes
  stored : Bytes
  deriving DecidableEq

/-- The break report for a row. -/
def ChainRow.breakAt (row : ChainRow) (column : String) (expected stored : Bytes) :
    VerifyBreak where
  id := row.id
  time := row.time
  stage := row.stage
  column := column
  expected := expected
  stored := stored

structure VerifyResult where
  ok : Bool := false
  rows : ℕ := 0
  /-- The Go field `Break`. -/
  firstBreak : Option VerifyBreak := none
  deriving DecidableEq

/-- An iterator over chain rows: what it yields, and the error it fails with
afterwards, if any. -/
structure RowIter (ε : Type) where
  rows : List ChainRow
  err : Option ε := none

/-- What `VerifyChain` returns, and the rows it did not ask for. -/
structure Verdict (ε : Type) where
  result : VerifyResult
  err : Option ε := none
  unread : List ChainRow := []

/-- The loop of `VerifyChain`. -/
def verifyLoop {ε : Type} (sha : Sha256) (err : Option ε) (running : Bytes) (res : VerifyResult) :
    List ChainRow → Verdict ε
  | [] =>
      match err with
      | some e => { result := res, err := some e }
      | none => { result := { res with ok := true } }
  | row :: rest =>
      if row.prevHash ≠ running then
        { result := { res with firstBreak := some (row.breakAt "prev_hash" running row.prevHash) },
          unread := rest }
      else
        let want := computeRowHash sha running row.payload
        if row.rowHash ≠ want then
          { result := { res with firstBreak := some (row.breakAt "row_hash" want row.rowHash) },
            unread := rest }
        else verifyLoop sha err row.rowHash { res with rows := res.rows + 1 } rest

def verifyChain {ε : Type} (sha : Sha256) (it : RowIter ε) : Verdict ε :=
  verifyLoop sha it.err (genesisHash sha) {} it.rows

/-! ### The verifier and linked chains -/

/-- The part of a row the chain is about. -/
def ChainRow.link (r : ChainRow) : Link Bytes Bytes := ⟨r.prevHash, r.payload, r.rowHash⟩

/-- The rows form an intact chain from the genesis hash. -/
def Intact (sha : Sha256) (rows : List ChainRow) : Prop :=
  Linked (computeRowHash sha) (genesisHash sha) (rows.map ChainRow.link)

/-- The loop goes through a linked part, counting its rows. -/
theorem verifyLoop_append {ε : Type} (sha : Sha256) {err : Option ε} {running : Bytes}
    {before : List ChainRow}
    (h : Linked (computeRowHash sha) running (before.map ChainRow.link)) (res : VerifyResult)
    (rest : List ChainRow) :
    verifyLoop sha err running res (before ++ rest) =
      verifyLoop sha err (tip running (before.map ChainRow.link))
        { res with rows := res.rows + before.length } rest := by
  induction before generalizing running res with
  | nil => rfl
  | cons row before ih =>
      obtain ⟨hprev, hhash, hrest⟩ := h
      change row.prevHash = running at hprev
      change row.rowHash = computeRowHash sha running row.payload at hhash
      change Linked (computeRowHash sha) row.rowHash (before.map ChainRow.link) at hrest
      rw [List.cons_append, verifyLoop, if_neg (not_not.mpr hprev), if_neg (not_not.mpr hhash),
        ih hrest, List.map_cons, tip_cons]
      simp [Nat.add_assoc, Nat.add_comm 1, ChainRow.link]

theorem verifyLoop_of_linked {ε : Type} (sha : Sha256) {running : Bytes} {rows : List ChainRow}
    (h : Linked (computeRowHash sha) running (rows.map ChainRow.link)) (res : VerifyResult) :
    verifyLoop (ε := ε) sha none running res rows =
      { result := { res with ok := true, rows := res.rows + rows.length } } := by
  rw [← rows.append_nil, verifyLoop_append sha h, verifyLoop, List.append_nil]

theorem linked_of_verifyLoop_ok {ε : Type} (sha : Sha256) {err : Option ε} {running : Bytes}
    {res : VerifyResult} {rows : List ChainRow} (hres : res.ok = false)
    (h : (verifyLoop sha err running res rows).result.ok = true) :
    Linked (computeRowHash sha) running (rows.map ChainRow.link) := by
  induction rows generalizing running res with
  | nil => trivial
  | cons row rest ih =>
      rw [verifyLoop] at h
      split at h
      · simp [hres] at h
      · rename_i hprev
        dsimp only at h
        split at h
        · simp [hres] at h
        · rename_i hhash
          refine ⟨not_not.mp hprev, not_not.mp hhash, ih ?_ h⟩
          exact hres

/-- **Soundness and completeness of the verifier** on an iterator that ends:
it answers OK exactly on the intact chains, and then it has counted every
row. -/
theorem verifyChain_ok_iff {ε : Type} (sha : Sha256) (rows : List ChainRow) :
    (verifyChain (ε := ε) sha { rows := rows }).result.ok = true ↔ Intact sha rows :=
  ⟨fun h => linked_of_verifyLoop_ok sha rfl h, fun h => by
    rw [verifyChain, verifyLoop_of_linked sha h]⟩

theorem verifyChain_of_intact {ε : Type} (sha : Sha256) {rows : List ChainRow}
    (h : Intact sha rows) :
    verifyChain (ε := ε) sha { rows := rows } =
      { result := { ok := true, rows := rows.length, firstBreak := none } } := by
  rw [verifyChain, verifyLoop_of_linked sha h]
  simp

/-! ### Tamper evidence -/

/-- The collision, if there is one, among everything that was hashed to build
the two chains: the genesis seed, and `prev_hash || payload` of each row. -/
def chainCollision (sha : Sha256) (A B : List ChainRow) : Option (Bytes × Bytes) :=
  findCollision sha.sum
    (hashInputs (· ++ ·) genesisSeed (A.map ChainRow.link) ++
      hashInputs (· ++ ·) genesisSeed (B.map ChainRow.link))

/-- Same length, and the same payload, `prev_hash` and `row_hash` at every
position. -/
def SameChain (A B : List ChainRow) : Prop :=
  List.Forall₂ (fun a b => a.payload = b.payload ∧ a.prevHash = b.prevHash ∧
    a.rowHash = b.rowHash) A B

theorem sameChain_of_map_link_eq {A B : List ChainRow}
    (h : A.map ChainRow.link = B.map ChainRow.link) : SameChain A B := by
  induction A generalizing B with
  | nil =>
      cases B with
      | nil => exact .nil
      | cons b B => simp at h
  | cons a A ih =>
      cases B with
      | nil => simp at h
      | cons b B =>
          simp only [List.map_cons, List.cons.injEq, ChainRow.link, Link.mk.injEq] at h
          exact .cons ⟨h.1.2.1, h.1.1, h.1.2.2⟩ (ih h.2)

theorem tip_map_link {A : List ChainRow} (hA : A ≠ []) (anchor : Bytes) :
    tip anchor (A.map ChainRow.link) = (A.getLast hA).rowHash := by
  simp [tip, List.getLast?_eq_some_getLast hA, ChainRow.link]

/-- The concatenation is unambiguous where both left parts are digests. -/
theorem append_inj_of_digests (sha : Sha256) {h h' : Bytes} (hh : h ∈ Set.range sha.sum)
    (hh' : h' ∈ Set.range sha.sum) {b b' : Bytes} (heq : h ++ b = h' ++ b') :
    h = h' ∧ b = b' := by
  obtain ⟨x, rfl⟩ := hh
  obtain ⟨y, rfl⟩ := hh'
  exact List.append_inj heq (by rw [sha.length_sum, sha.length_sum])

/-- A digest followed by a payload is longer than the seed. -/
theorem append_ne_genesisSeed (sha : Sha256) {h : Bytes} (hh : h ∈ Set.range sha.sum)
    {b : Bytes} (hb : b ≠ []) : h ++ b ≠ genesisSeed := by
  obtain ⟨x, rfl⟩ := hh
  intro heq
  have hlen := congrArg List.length heq
  rw [List.length_append, sha.length_sum, genesisSeed_length] at hlen
  exact hb (List.length_eq_zero_iff.mp (by omega))

/-- Two intact chains with one head hash are the same chain, or they exhibit
a collision. -/
theorem sameChain_or_collision (sha : Sha256) {A B : List ChainRow} (hA : A ≠ []) (hB : B ≠ [])
    (hpA : ∀ r ∈ A, r.payload ≠ []) (hpB : ∀ r ∈ B, r.payload ≠ [])
    (hiA : Intact sha A) (hiB : Intact sha B)
    (hhead : (A.getLast hA).rowHash = (B.getLast hB).rowHash) :
    SameChain A B ∨
      ∃ x y, chainCollision sha A B = some (x, y) ∧ x ≠ y ∧ sha.sum x = sha.sum y := by
  have htip : tip (genesisHash sha) (A.map ChainRow.link) =
      tip (genesisHash sha) (B.map ChainRow.link) := by
    rw [tip_map_link hA, tip_map_link hB, hhead]
  rcases eq_or_collision_of_tip_eq (· ++ ·) sha.sum genesisSeed (· ≠ [])
      (fun h hh h' hh' b b' heq => append_inj_of_digests sha hh hh' heq)
      (fun h hh b hb => append_ne_genesisSeed sha hh hb)
      hiA hiB
      (by
        intro e he
        obtain ⟨r, hr, rfl⟩ := List.mem_map.mp he
        exact hpA r hr)
      (by
        intro e he
        obtain ⟨r, hr, rfl⟩ := List.mem_map.mp he
        exact hpB r hr)
      htip with heq | ⟨x, hx, y, hy, hne, hcol⟩
  · exact .inl (sameChain_of_map_link_eq heq)
  · obtain ⟨⟨x', y'⟩, hfound⟩ := exists_findCollision hx hy hne hcol
    obtain ⟨-, -, hne', hcol'⟩ := findCollision_sound hfound
    exact .inr ⟨x', y', hfound, hne', hcol'⟩

/-- **Tamper evidence.** Against a chain the verifier accepts, any other
non-empty sequence of rows that keeps the head hash is either refused or the
same chain, unless a SHA-256 collision can be read off from the two. -/
theorem verifyChain_tamper_evident {ε : Type} (sha : Sha256) {A B : List ChainRow}
    (hA : A ≠ []) (hB : B ≠ [])
    (hpA : ∀ r ∈ A, r.payload ≠ []) (hpB : ∀ r ∈ B, r.payload ≠ [])
    (hokA : (verifyChain (ε := ε) sha { rows := A }).result.ok = true)
    (hhead : (A.getLast hA).rowHash = (B.getLast hB).rowHash) :
    ((verifyChain (ε := ε) sha { rows := B }).result.ok = true →
      SameChain A B ∨
        ∃ x y, chainCollision sha A B = some (x, y) ∧ x ≠ y ∧ sha.sum x = sha.sum y) ∧
    (chainCollision sha A B = none → ¬ SameChain A B →
      (verifyChain (ε := ε) sha { rows := B }).result.ok = false) := by
  have hcommit : (verifyChain (ε := ε) sha { rows := B }).result.ok = true →
      SameChain A B ∨
        ∃ x y, chainCollision sha A B = some (x, y) ∧ x ≠ y ∧ sha.sum x = sha.sum y :=
    fun hokB => sameChain_or_collision sha hA hB hpA hpB
      ((verifyChain_ok_iff sha A).mp hokA) ((verifyChain_ok_iff sha B).mp hokB) hhead
  refine ⟨hcommit, fun hnone hdiff => ?_⟩
  by_contra hok
  rcases hcommit (Bool.not_eq_false _ ▸ hok) with hsame | ⟨x, y, hsome, -⟩
  · exact hdiff hsame
  · simp [hnone] at hsome

/-! The chain of two rows over the payloads `p1` and `p2`, with the digests
SHA-256 gives them, and the same chain with the second payload rewritten. -/

def digestOf (n : ℕ) : Bytes := (List.range 32).map fun i => UInt8.ofNat (n >>> (8 * (31 - i)))

def genesisDigest : ℕ := 0x5bfca120522968e0bb1cebbb87a2b656d5c57639b92f17dbb909c76a0299344d
def firstDigest : ℕ := 0xcf432a8c13f7c9ea551af1fc0b37019499cbdeb78c12b4e00458c3b1ff08590d
def secondDigest : ℕ := 0x4adda866ae4a80f24a52dcf7c84f26fcacfb951c93a6c5db90b7679a68e216d4
def tamperedDigest : ℕ := 0x94ed7636a2e9ef46a7c2e32854ac647df4e2227c2ad00d3bb22a2a20bb54e747

/-- SHA-256 on the inputs of the sample chain. -/
def sampleSha : Sha256 where
  sum b := digestOf
    (if b = genesisSeed then genesisDigest
    else if b = digestOf genesisDigest ++ utf8 "p1" then firstDigest
    else if b = digestOf firstDigest ++ utf8 "p2" then secondDigest
    else if b = digestOf firstDigest ++ utf8 "p2-tampered" then tamperedDigest
    else 0)
  length_sum b := by simp [digestOf]

def sampleRow (id : ℕ) (prev row : ℕ) (payload : String) : ChainRow where
  id := id
  time := 0
  stage := "received"
  prevHash := digestOf prev
  rowHash := digestOf row
  payload := utf8 payload

def sampleChain : List ChainRow :=
  [sampleRow 1 genesisDigest firstDigest "p1", sampleRow 2 firstDigest secondDigest "p2"]

def tamperedChain : List ChainRow :=
  [sampleRow 1 genesisDigest firstDigest "p1", sampleRow 2 firstDigest secondDigest "p2-tampered"]

theorem tamperedChain_refused :
    (verifyChain (ε := Empty) sampleSha { rows := tamperedChain }).result.ok = false :=
  (verifyChain_tamper_evident sampleSha (A := sampleChain) (B := tamperedChain)
    (by decide) (by decide) (by decide) (by decide) (by decide +kernel) (by decide)).2
    (by decide +kernel) (by unfold SameChain; decide)

end TelegramServer.Audit

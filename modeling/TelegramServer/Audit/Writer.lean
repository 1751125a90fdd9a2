import TelegramServer.Audit.Migration
import TelegramServer.Lib.Runs
import Mathlib.Logic.Function.Basic

/-!
Concurrent audit writers (`internal/audit/writer.go`). Any number of processes
call `PgWriter.Write`; each call is a transaction that takes the advisory lock
`ChainLockKey`, inserts one row chained to the newest row it sees, and commits,
and it may be rolled back after any of these.

What is assumed of Postgres is built into the step function and nowhere else.
The advisory lock is granted only while nobody holds it and is given up in the
same step that makes the commit visible. A statement sees the rows committed
when it starts, so the INSERT is two steps, one that takes the snapshot and one
that builds the row from it. Sequence values only grow, and may skip. A stored
row has the payload of the values that were inserted (`hstored`).

The chain stays intact because of one fact about the writer between its lock
and its commit: nothing was committed since, so its snapshot is the table, its
id is above every id of the table, and the hash it links to is the tip.
-/

namespace TelegramServer.Audit

open Go Lib

/-- The advisory lock key, `"auditcha"` as a big-endian integer. -/
def chainLockKey : ℤ := 0x6175646974636861

/-- Where a process is in a call of `Write`. -/
inductive Phase
  | idle
  | begun (e : Event) (details : JsonValue)
  | locked (e : Event) (details : JsonValue)
  | inserting (e : Event) (details : JsonValue) (snapshot : List (AuditRow Bytes))
  | inserted (row : AuditRow Bytes)

/-- The process holds `ChainLockKey`. -/
def Phase.holds : Phase → Prop
  | .idle | .begun _ _ => False
  | .locked _ _ | .inserting _ _ _ | .inserted _ => True

/-- The database as the writers share it: the committed rows, the last value of
the id sequence, the advisory locks, and the calls in progress. -/
structure LogState (P : Type) where
  rows : List (AuditRow Bytes)
  lastID : ℕ
  locks : ℤ → Option P
  writers : P → Phase

inductive Action (P : Type)
  | beginTx (p : P) (e : Event)
  | lock (p : P)
  | startInsert (p : P)
  | finishInsert (p : P) (now : Time) (gap : ℕ)
  | failInsert (p : P) (gap : ℕ)
  | commit (p : P)
  | abort (p : P)

section Model

variable {P : Type} [DecidableEq P] (sha : Sha256) (r : Rendering) (stored : Columns → Columns)

/-- The `prev` part of `insertChainedQuery`. -/
def newestRowHash (rows : List (AuditRow Bytes)) : Bytes :=
  ((sortBy AuditRow.id rows).getLast?.map AuditRow.rowHash).getD (genesisHash sha)

/-- The row `insertChainedQuery` inserts, given the rows it sees. -/
def insertChained (snapshot : List (AuditRow Bytes)) (id : ℕ) (now : Time) (e : Event)
    (details : JsonValue) : AuditRow Bytes :=
  let v := insertValues now e details
  let prev := newestRowHash sha snapshot
  { id := id, cols := stored v, prevHash := prev,
    rowHash := computeRowHash sha prev (auditChainPayload r v) }

def LogState.setWriter (s : LogState P) (p : P) (ph : Phase) : LogState P :=
  { s with writers := Function.update s.writers p ph }

/-- The end of a transaction, either way: its advisory locks are released. -/
def LogState.endTx (s : LogState P) (p : P) : LogState P :=
  { s.setWriter p .idle with locks := fun k => if s.locks k = some p then none else s.locks k }

/-- One step of one call. -/
def step (s : LogState P) : Action P → Option (LogState P)
  | .beginTx p e =>
      match s.writers p, e.marshalDetails with
      | .idle, some details => some (s.setWriter p (.begun e details))
      | _, _ => none
  | .lock p =>
      match s.writers p with
      | .begun e details =>
          if s.locks chainLockKey = none then
            some { s.setWriter p (.locked e details) with
              locks := Function.update s.locks chainLockKey (some p) }
          else none
      | _ => none
  | .startInsert p =>
      match s.writers p with
      | .locked e details => some (s.setWriter p (.inserting e details s.rows))
      | _ => none
  | .finishInsert p now gap =>
      match s.writers p with
      | .inserting e details snapshot =>
          let id := s.lastID + (gap + 1)
          some { s.setWriter p (.inserted
              (insertChained sha r stored snapshot id now e details)) with
            lastID := id }
      | _ => none
  | .failInsert p gap =>
      match s.writers p with
      | .inserting _ _ _ => some { s.endTx p with lastID := s.lastID + gap }
      | _ => none
  | .commit p =>
      match s.writers p with
      | .inserted row => some { s.endTx p with rows := s.rows ++ [row] }
      | _ => none
  | .abort p =>
      match s.writers p with
      | .idle => none
      | _ => some (s.endTx p)

/-- No call is in progress. -/
def LogState.quiet (rows : List (AuditRow Bytes)) (lastID : ℕ) : LogState P where
  rows := rows
  lastID := lastID
  locks := fun _ => none
  writers := fun _ => .idle

/-- The states a run starts from: an empty table, or the table migration
0007 left, with the id sequence past every id in use. -/
inductive Initial : LogState P → Prop
  | empty (lastID : ℕ) : Initial (LogState.quiet [] lastID)
  | backfilled (legacy : List LegacyRow) (rows : List (AuditRow Bytes)) (lastID : ℕ)
      (hkey : (legacy.map LegacyRow.id).Nodup) (hseq : ∀ row ∈ legacy, row.id ≤ lastID)
      (hrows : migrate0007 sha r legacy = some rows) : Initial (LogState.quiet rows lastID)

end Model

/-! ### What a step can do -/

section Steps

variable {P : Type} [DecidableEq P] {sha : Sha256} {r : Rendering} {stored : Columns → Columns}

@[simp] theorem setWriter_rows (s : LogState P) (p : P) (ph : Phase) :
    (s.setWriter p ph).rows = s.rows := rfl

@[simp] theorem setWriter_lastID (s : LogState P) (p : P) (ph : Phase) :
    (s.setWriter p ph).lastID = s.lastID := rfl

@[simp] theorem setWriter_locks (s : LogState P) (p : P) (ph : Phase) :
    (s.setWriter p ph).locks = s.locks := rfl

@[simp] theorem setWriter_writers (s : LogState P) (p q : P) (ph : Phase) :
    (s.setWriter p ph).writers q = if q = p then ph else s.writers q := by
  simp [LogState.setWriter, Function.update_apply]

@[simp] theorem endTx_rows (s : LogState P) (p : P) : (s.endTx p).rows = s.rows := rfl

@[simp] theorem endTx_locks (s : LogState P) (p : P) (k : ℤ) :
    (s.endTx p).locks k = if s.locks k = some p then none else s.locks k := rfl

/-- What holds of the writer that moves and of all the others holds of all. -/
theorem forall_setWriter {Q : P → Phase → Prop} {s : LogState P} {p : P} {ph : Phase}
    (hp : Q p ph) (hothers : ∀ q, q ≠ p → Q q (s.writers q)) (q : P) :
    Q q ((s.setWriter p ph).writers q) := by
  rw [setWriter_writers]
  split
  · next heq => exact heq ▸ hp
  · next hne => exact hothers q hne

omit [DecidableEq P] in
/-- While `p` holds the lock nobody else does. -/
theorem not_holds_of_exclusive {s : LogState P} {p q : P}
    (hexclusive : ∀ p, (s.writers p).holds → s.locks chainLockKey = some p)
    (hp : (s.writers p).holds) (hne : q ≠ p) : ¬(s.writers q).holds := by
  intro hq
  have heq := (hexclusive q hq).symm.trans (hexclusive p hp)
  exact hne (Option.some.inj heq)

/-- Inversion of a step: what was true before, and what changed. -/
theorem step_cases {s s' : LogState P} {a : Action P} (h : step sha r stored s a = some s') :
    (∃ p e d, s.writers p = .idle ∧ s' = s.setWriter p (.begun e d)) ∨
    (∃ p e d, s.writers p = .begun e d ∧ s.locks chainLockKey = none ∧
      s' = { s.setWriter p (.locked e d) with
        locks := Function.update s.locks chainLockKey (some p) }) ∨
    (∃ p e d, s.writers p = .locked e d ∧ s' = s.setWriter p (.inserting e d s.rows)) ∨
    (∃ p e d snapshot now gap, s.writers p = .inserting e d snapshot ∧
      s' = { s.setWriter p (.inserted
          (insertChained sha r stored snapshot (s.lastID + (gap + 1)) now e d)) with
        lastID := s.lastID + (gap + 1) }) ∨
    (∃ p row, s.writers p = .inserted row ∧ s' = { s.endTx p with rows := s.rows ++ [row] }) ∨
    (∃ p gap, s' = { s.endTx p with lastID := s.lastID + gap }) := by
  cases a with
  | beginTx p e =>
      simp only [step] at h
      split at h
      · rename_i d hidle _
        exact .inl ⟨p, e, d, hidle, (Option.some.inj h).symm⟩
      · cases h
  | lock p =>
      simp only [step] at h
      split at h
      · rename_i e d hbegun
        split at h
        · rename_i hfree
          exact .inr (.inl ⟨p, e, d, hbegun, hfree, (Option.some.inj h).symm⟩)
        · cases h
      · cases h
  | startInsert p =>
      simp only [step] at h
      split at h
      · rename_i e d hlocked
        exact .inr (.inr (.inl ⟨p, e, d, hlocked, (Option.some.inj h).symm⟩))
      · cases h
  | finishInsert p now gap =>
      simp only [step] at h
      split at h
      · rename_i e d snapshot hins
        exact .inr (.inr (.inr (.inl
          ⟨p, e, d, snapshot, now, gap, hins, (Option.some.inj h).symm⟩)))
      · cases h
  | failInsert p gap =>
      simp only [step] at h
      split at h
      · exact .inr (.inr (.inr (.inr (.inr ⟨p, gap, (Option.some.inj h).symm⟩))))
      · cases h
  | commit p =>
      simp only [step] at h
      split at h
      · rename_i row hrow
        exact .inr (.inr (.inr (.inr (.inl ⟨p, row, hrow, (Option.some.inj h).symm⟩))))
      · cases h
  | abort p =>
      simp only [step] at h
      split at h
      · cases h
      · exact .inr (.inr (.inr (.inr (.inr ⟨p, 0, (Option.some.inj h).symm⟩))))

end Steps

/-! ### The invariant

Every writer that is past the lock has an up-to-date snapshot, so the row it builds follows the
rows that are committed. What "follows" means, and what is true of rows that do, is left open here:
the integrity of the chain and the order of the ids are both instances. -/

structure LockInv {P : Type} (Good : List (AuditRow Bytes) → Prop)
    (Follows : List (AuditRow Bytes) → AuditRow Bytes → Prop) (s : LogState P) : Prop where
  good : Good s.rows
  allocated : ∀ row ∈ s.rows, row.id ≤ s.lastID
  exclusive : ∀ p, (s.writers p).holds → s.locks chainLockKey = some p
  snapshot : ∀ p e d rows, s.writers p = .inserting e d rows → rows = s.rows
  pending : ∀ p row, s.writers p = .inserted row → Follows s.rows row ∧ row.id ≤ s.lastID

section Lock

variable {P : Type} {sha : Sha256} {r : Rendering} {stored : Columns → Columns}
  {Good : List (AuditRow Bytes) → Prop} {Follows : List (AuditRow Bytes) → AuditRow Bytes → Prop}

theorem lockInv_quiet {rows : List (AuditRow Bytes)} {lastID : ℕ} (hgood : Good rows)
    (hseq : ∀ row ∈ rows, row.id ≤ lastID) :
    LockInv Good Follows (LogState.quiet (P := P) rows lastID) where
  good := hgood
  allocated := hseq
  exclusive _ h := h.elim
  snapshot _ _ _ _ h := nomatch h
  pending _ _ h := nomatch h

variable [DecidableEq P] {s s' : LogState P} {a : Action P}

/-- A writer that is not the one moved keeps what it knows, as long as the
rows and the ids below the sequence stay. -/
theorem LockInv.setWriter (hs : LockInv Good Follows s) (p : P) (ph : Phase)
    (locks : ℤ → Option P) (gap : ℕ)
    (hholds : ph.holds → locks chainLockKey = some p)
    (hothers : ∀ q, q ≠ p → (s.writers q).holds → locks chainLockKey = some q)
    (hsnap : ∀ e d rows, ph = .inserting e d rows → rows = s.rows)
    (hpend : ∀ row, ph = .inserted row → Follows s.rows row ∧ row.id ≤ s.lastID + gap) :
    LockInv Good Follows
      { s.setWriter p ph with locks := locks, lastID := s.lastID + gap } where
  good := hs.good
  allocated row hrow := Nat.le_add_right_of_le (hs.allocated row hrow)
  exclusive := forall_setWriter (Q := fun q ph => ph.holds → locks chainLockKey = some q)
    hholds hothers
  snapshot := forall_setWriter
    (Q := fun _ ph => ∀ e d rows, ph = .inserting e d rows → rows = s.rows)
    hsnap fun q _ => hs.snapshot q
  pending := by
    refine forall_setWriter (Q := fun _ ph => ∀ row, ph = .inserted row →
      Follows s.rows row ∧ row.id ≤ s.lastID + gap) hpend fun q _ row hq => ?_
    obtain ⟨hfollows, hid⟩ := hs.pending q row hq
    exact ⟨hfollows, Nat.le_add_right_of_le hid⟩

/-- Ending the transaction of `p` keeps the invariant, whatever `p` was
doing: the rows do not change, and whoever else holds the lock keeps it. -/
theorem LockInv.endTx (hs : LockInv Good Follows s) (p : P) (gap : ℕ) :
    LockInv Good Follows { s.endTx p with lastID := s.lastID + gap } := by
  refine hs.setWriter p .idle _ gap False.elim (fun q hne hq => ?_) (fun _ _ _ h => nomatch h)
    fun _ h => nomatch h
  have hlock := hs.exclusive q hq
  simp [hlock, hne]

/-- The commit of `p` appends the row it built under the lock. No other
process is past its own lock, so no other snapshot or row is outdated by it. -/
theorem LockInv.commit (happend : ∀ {rows row}, Good rows → Follows rows row → Good (rows ++ [row]))
    (hs : LockInv Good Follows s) {p : P} {row : AuditRow Bytes}
    (hp : s.writers p = .inserted row) :
    LockInv Good Follows { s.endTx p with rows := s.rows ++ [row] } := by
  obtain ⟨hfollows, hid⟩ := hs.pending p row hp
  have halone {q : P} (hne : q ≠ p) : ¬(s.writers q).holds :=
    not_holds_of_exclusive hs.exclusive (by rw [hp]; trivial) hne
  refine ⟨happend hs.good hfollows, ?_, (hs.endTx p 0).exclusive, ?_, ?_⟩
  · intro x hx
    rcases List.mem_append.mp hx with hx | hx
    · exact hs.allocated x hx
    · rw [List.mem_singleton.mp hx]
      exact hid
  · refine forall_setWriter (Q := fun _ ph => ∀ e d rows, ph = .inserting e d rows →
      rows = s.rows ++ [row]) (fun _ _ _ h => nomatch h) fun q hne e d rows hq => ?_
    exact absurd (by rw [hq]; trivial) (halone hne)
  · refine forall_setWriter (Q := fun _ ph => ∀ row', ph = .inserted row' →
      Follows (s.rows ++ [row]) row' ∧ row'.id ≤ s.lastID) (fun _ h => nomatch h)
      fun q hne row' hq => ?_
    exact absurd (by rw [hq]; trivial) (halone hne)

/-- **Step.** What is built from an up-to-date snapshot follows it, so a step keeps the rows or
appends one that follows them. -/
theorem lockInv_step
    (happend : ∀ {rows row}, Good rows → Follows rows row → Good (rows ++ [row]))
    (hbuilt : ∀ {rows : List (AuditRow Bytes)} {lastID gap now e d},
      (∀ old ∈ rows, old.id ≤ lastID) →
      Follows rows (insertChained sha r stored rows (lastID + (gap + 1)) now e d))
    (hs : LockInv Good Follows s) (h : step sha r stored s a = some s') :
    LockInv Good Follows s' ∧
      (s'.rows = s.rows ∨ ∃ row, Follows s.rows row ∧ s'.rows = s.rows ++ [row]) := by
  rcases step_cases h with ⟨p, e, d, hidle, rfl⟩ | ⟨p, e, d, hbegun, hfree, rfl⟩ |
    ⟨p, e, d, hlocked, rfl⟩ | ⟨p, e, d, snap, now, gap, hins, rfl⟩ | ⟨p, row, hrow, rfl⟩ |
    ⟨p, gap, rfl⟩
  · -- begin: the new phase holds nothing
    refine ⟨?_, .inl rfl⟩
    exact hs.setWriter p (.begun e d) s.locks 0 False.elim (fun q _ hq => hs.exclusive q hq)
      (fun _ _ _ h => nomatch h) (fun _ h => nomatch h)
  · -- lock: it was free, so nobody else was past it
    refine ⟨hs.setWriter p (.locked e d) _ 0 (fun _ => by simp) (fun q _ hq => ?_)
      (fun _ _ _ h => nomatch h) (fun _ h => nomatch h), .inl rfl⟩
    have hheld := hs.exclusive q hq
    simp [hfree] at hheld
  · -- the statement starts: its snapshot is the table
    refine ⟨hs.setWriter p (.inserting e d s.rows) s.locks 0 (fun _ => ?_)
      (fun q _ hq => hs.exclusive q hq) (fun _ _ _ h => ?_) (fun _ h => nomatch h), .inl rfl⟩
    · exact hs.exclusive p (by rw [hlocked]; trivial)
    · cases h
      rfl
  · -- the statement ends: the lock was held throughout, so the table is still its snapshot
    obtain rfl : snap = s.rows := hs.snapshot p e d snap hins
    refine ⟨hs.setWriter p (.inserted _) s.locks (gap + 1) (fun _ => ?_)
      (fun q _ hq => hs.exclusive q hq) (fun _ _ _ h => nomatch h) (fun row h => ?_), .inl rfl⟩
    · exact hs.exclusive p (by rw [hins]; trivial)
    · cases h
      exact ⟨hbuilt hs.allocated, by simp [insertChained]⟩
  · exact ⟨hs.commit happend hrow, .inr ⟨row, (hs.pending p row hrow).1, rfl⟩⟩
  · exact ⟨hs.endTx p gap, .inl rfl⟩

end Lock

/-! ### The chain -/

/-- A row built under the lock continues the chain of `rows`. -/
structure Continues (sha : Sha256) (r : Rendering) (rows : List (AuditRow Bytes))
    (row : AuditRow Bytes) : Prop where
  above : ∀ old ∈ rows, old.id ≤ row.id
  prev : row.prevHash = tip (genesisHash sha) (chainLinks r rows)
  hash : row.rowHash = computeRowHash sha row.prevHash (auditChainPayload r row.cols)

theorem newestRowHash_eq_tip (sha : Sha256) (r : Rendering) (rows : List (AuditRow Bytes)) :
    newestRowHash sha rows = tip (genesisHash sha) (chainLinks r rows) := by
  simp only [newestRowHash, tip, chainLinks, List.getLast?_map]
  cases (sortBy AuditRow.id rows).getLast? <;> rfl

/-- Appending a row that continues the chain keeps it intact. -/
theorem chainIntact_append {sha : Sha256} {r : Rendering} {rows : List (AuditRow Bytes)}
    {row : AuditRow Bytes} (h : ChainIntact sha r rows) (hrow : Continues sha r rows row) :
    ChainIntact sha r (rows ++ [row]) := by
  rw [ChainIntact, chainLinks, sortBy_append_singleton AuditRow.id rows row hrow.above,
    List.map_append, List.map_singleton, linked_append_singleton]
  refine ⟨h, hrow.prev, ?_⟩
  change row.rowHash = _
  rw [hrow.hash, hrow.prev]
  rfl

section Safety

variable {P : Type} [DecidableEq P] {sha : Sha256} {r : Rendering} {stored : Columns → Columns}

omit [DecidableEq P] in
theorem lockInv_initial {s : LogState P} (h : Initial sha r s) :
    LockInv (ChainIntact sha r) (Continues sha r) s := by
  cases h with
  | empty lastID => exact lockInv_quiet trivial (by simp)
  | backfilled legacy rows lastID hkey hseq hrows =>
      obtain ⟨rows', hrows', hintact, hids⟩ := migrate0007_spec sha r hkey
      obtain rfl : rows = rows' := Option.some.inj (hrows.symm.trans hrows')
      refine lockInv_quiet hintact fun row hrow => ?_
      have hmem : row.id ∈ legacy.map LegacyRow.id :=
        hids.mem_iff.mp (List.mem_map_of_mem hrow)
      obtain ⟨old, hold, heq⟩ := List.mem_map.mp hmem
      exact heq ▸ hseq old hold

/-- The row the INSERT builds from an up-to-date snapshot continues the
chain. -/
theorem continues_insertChained {rows : List (AuditRow Bytes)} {lastID : ℕ}
    (hallocated : ∀ old ∈ rows, old.id ≤ lastID)
    (hstored : ∀ v, auditChainPayload r (stored v) = auditChainPayload r v)
    (gap : ℕ) (now : Time) (e : Event) (d : JsonValue) :
    Continues sha r rows (insertChained sha r stored rows (lastID + (gap + 1)) now e d) where
  above old hold := by
    have hle := hallocated old hold
    change old.id ≤ lastID + (gap + 1)
    omega
  prev := newestRowHash_eq_tip sha r rows
  hash := by simp [insertChained, hstored]

/-- **The committed log always verifies.** Whatever the interleaving of any
number of writers and rollbacks, at every moment the committed rows, read by
`verifyChainQuery`, verify with no break and every row counted. -/
theorem verifyAuditChain_committed {ε : Type}
    (hstored : ∀ v, auditChainPayload r (stored v) = auditChainPayload r v)
    {s₀ s : LogState P} {schedule : List (Action P)} (h₀ : Initial sha r s₀)
    (hrun : run (step sha r stored) s₀ schedule = some s) :
    verifyAuditChain (ε := ε) sha r s.rows =
      { result := { ok := true, rows := s.rows.length, firstBreak := none }, err := none } := by
  refine verifyAuditChain_of_chainIntact (run_invariant (fun s a s' hs h => ?_)
    (lockInv_initial h₀) hrun).good
  exact (lockInv_step chainIntact_append
    (fun hallocated => continues_insertChained hallocated hstored _ _ _ _) hs h).1

end Safety

/-! ### The ids

What the readers of the log rely on needs no intact chain: rows are only appended, and
a new one has an id above all the others. -/

def DistinctIds (rows : List (AuditRow Bytes)) : Prop := (rows.map AuditRow.id).Nodup

def HighestId (rows : List (AuditRow Bytes)) (row : AuditRow Bytes) : Prop :=
  ∀ old ∈ rows, old.id < row.id

section Ids

variable {P : Type} [DecidableEq P] {sha : Sha256} {r : Rendering} {stored : Columns → Columns}

theorem distinctIds_append {rows : List (AuditRow Bytes)} {row : AuditRow Bytes}
    (h : DistinctIds rows) (hrow : HighestId rows row) : DistinctIds (rows ++ [row]) := by
  rw [DistinctIds, List.map_append, List.map_singleton, ← List.concat_eq_append]
  refine List.Nodup.concat (fun hmem => ?_) h
  obtain ⟨old, hold, heq⟩ := List.mem_map.mp hmem
  exact absurd heq (hrow old hold).ne

theorem highestId_insertChained {rows : List (AuditRow Bytes)} {lastID gap : ℕ} {now : Time}
    {e : Event} {d : JsonValue} (hallocated : ∀ old ∈ rows, old.id ≤ lastID) :
    HighestId rows (insertChained sha r stored rows (lastID + (gap + 1)) now e d) := by
  intro old hold
  have hle := hallocated old hold
  change old.id < lastID + (gap + 1)
  omega

/-- **Writers only append.** -/
theorem rows_run {s s' : LogState P} {schedule : List (Action P)}
    (hs : LockInv DistinctIds HighestId s)
    (hrun : run (step sha r stored) s schedule = some s') :
    LockInv DistinctIds HighestId s' ∧
      ∃ new, s'.rows = s.rows ++ new ∧ ∀ row ∈ new, HighestId s.rows row := by
  refine run_invariant (I := fun s' => LockInv DistinctIds HighestId s' ∧
    ∃ new, s'.rows = s.rows ++ new ∧ ∀ row ∈ new, HighestId s.rows row) ?_
    ⟨hs, [], by simp, by simp⟩ hrun
  rintro s₁ a s₂ ⟨hinv, new, hrows, habove⟩ hstep
  obtain ⟨hinv', hsame | ⟨row, hrow, happended⟩⟩ :=
    lockInv_step distinctIds_append highestId_insertChained hinv hstep
  · exact ⟨hinv', new, hsame.trans hrows, habove⟩
  · refine ⟨hinv', new ++ [row], by rw [happended, hrows, List.append_assoc], ?_⟩
    intro row' hrow' old hold
    rcases List.mem_append.mp hrow' with hrow' | hrow'
    · exact habove row' hrow' old hold
    · rw [List.mem_singleton.mp hrow']
      exact hrow old (hrows ▸ List.mem_append_left _ hold)

end Ids

/-- Two writers: the second waits for the first one's commit, a third call is
rolled back after its INSERT and leaves a gap in the ids. -/
def sampleSchedule : List (Action Bool) :=
  [.beginTx true { stage := .received, appID := "oracle" },
    .beginTx false { stage := .received, appID := "pg|backup" },
    .lock true, .startInsert true, .finishInsert true 1 0, .commit true,
    .lock false, .startInsert false, .finishInsert false 2 0, .abort false,
    .beginTx false { stage := .denied, errorCode := "grade_insufficient" },
    .lock false, .startInsert false, .finishInsert false 3 0, .commit false]

def sampleRendering : Rendering where
  epoch t := toString t
  jsonb _ := "\x7b\x7d"

theorem sampleSchedule_committed :
    ∃ s, run (step sampleSha sampleRendering id) (LogState.quiet [] 0) sampleSchedule = some s ∧
      s.rows.map AuditRow.id = [1, 3] ∧
      verifyAuditChain (ε := Empty) sampleSha sampleRendering s.rows =
        { result := { ok := true, rows := s.rows.length, firstBreak := none }, err := none } := by
  have hrun : run (step sampleSha sampleRendering id) (LogState.quiet [] 0) sampleSchedule =
      some _ := rfl
  exact ⟨_, hrun, rfl, verifyAuditChain_committed (fun _ => rfl) (.empty 0) hrun⟩

end TelegramServer.Audit

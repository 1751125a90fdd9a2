import TelegramServer.Audit.Chain

/-!
What `VerifyChain` answers, for every iterator. The loop keeps one hash and stops
in three ways; the specification speaks of the whole sequence. A row is *sound*
after the rows before it if it names their last hash and carries its own. The
verifier goes through the sound rows and then reports the end, the error of the
iterator, or the first row that is not sound.
-/

namespace TelegramServer.Audit

open Go Lib

/-- The hash the row after these has to name. -/
def runningHash (sha : Sha256) (before : List ChainRow) : Bytes :=
  before.getLast?.elim (genesisHash sha) ChainRow.rowHash

structure Sound (sha : Sha256) (before : List ChainRow) (row : ChainRow) : Prop where
  prev : row.prevHash = runningHash sha before
  hash : row.rowHash = computeRowHash sha row.prevHash row.payload

def AllSound (sha : Sha256) (rows : List ChainRow) : Prop :=
  ∀ before row after, rows = before ++ row :: after → Sound sha before row

/-- The report on the first row that is not sound. -/
structure Reports {ε : Type} (sha : Sha256) (v : Verdict ε) (before : List ChainRow)
    (row : ChainRow) (after : List ChainRow) (b : VerifyBreak) : Prop where
  verdict : v = { result := { ok := false, rows := before.length, firstBreak := some b },
                  err := none, unread := after }
  names : b.id = row.id ∧ b.time = row.time ∧ b.stage = row.stage
  prev_hash : b.column = "prev_hash" ↔ row.prevHash ≠ runningHash sha before
  row_hash : b.column = "row_hash" ↔ row.prevHash = runningHash sha before
  differs : b.expected ≠ b.stored

/-- What `VerifyChain` answers on an iterator. The last three clauses are about an iterator
over an intact chain of which one payload was altered. -/
structure VerifierSpec {ε : Type} (sha : Sha256) (it : RowIter ε) : Prop where
  ends : AllSound sha it.rows → it.err = none →
    verifyChain sha it = { result := { ok := true, rows := it.rows.length, firstBreak := none },
                           err := none, unread := [] }
  fails : ∀ e, AllSound sha it.rows → it.err = some e →
    verifyChain sha it = { result := { ok := false, rows := it.rows.length, firstBreak := none },
                           err := some e, unread := [] }
  breaks : ∀ before row after, it.rows = before ++ row :: after → AllSound sha before →
    ¬Sound sha before row → ∃ b, Reports sha (verifyChain sha it) before row after b
  covers : AllSound sha it.rows ∨ ∃ before row after, it.rows = before ++ row :: after ∧
    AllSound sha before ∧ ¬Sound sha before row
  altered : ∀ before row after payload, AllSound sha (before ++ row :: after) →
    computeRowHash sha row.prevHash payload ≠ computeRowHash sha row.prevHash row.payload →
    it.rows = before ++ { row with payload := payload } :: after →
    ∃ b, Reports sha (verifyChain sha it) before { row with payload := payload } after b ∧
      b.column = "row_hash"
  rehashed : ∀ before row next after payload, AllSound sha (before ++ row :: next :: after) →
    computeRowHash sha row.prevHash payload ≠ computeRowHash sha row.prevHash row.payload →
    it.rows = before ++ { row with
      payload := payload, rowHash := computeRowHash sha row.prevHash payload } :: next :: after →
    ∃ b, Reports sha (verifyChain sha it) (before ++ [{ row with
        payload := payload, rowHash := computeRowHash sha row.prevHash payload }]) next after b ∧
      b.column = "prev_hash"
  rehashed_last : ∀ before row payload, AllSound sha (before ++ [row]) → it.err = none →
    it.rows = before ++ [{ row with
      payload := payload, rowHash := computeRowHash sha row.prevHash payload }] →
    verifyChain sha it = { result := { ok := true, rows := it.rows.length, firstBreak := none },
                           err := none, unread := [] }

variable {ε : Type} {sha : Sha256} {rows before after : List ChainRow} {row : ChainRow}

theorem tip_map_link_eq (sha : Sha256) (before : List ChainRow) :
    tip (genesisHash sha) (before.map ChainRow.link) = runningHash sha before := by
  simp only [tip, runningHash, List.getLast?_map]
  cases before.getLast? <;> rfl

@[simp] theorem allSound_nil : AllSound sha [] := by
  intro before row after h
  simp at h

theorem allSound_concat :
    AllSound sha (rows ++ [row]) ↔ AllSound sha rows ∧ Sound sha rows row := by
  constructor
  · intro h
    refine ⟨fun before r after heq => h before r (after ++ [row]) (by simp [heq]), ?_⟩
    exact h rows row [] rfl
  · rintro ⟨hrows, hrow⟩ before r after heq
    rcases List.eq_nil_or_concat after with rfl | ⟨after, r', rfl⟩
    · obtain ⟨rfl, hr⟩ := List.append_inj' heq rfl
      obtain rfl := (List.cons.inj hr).1
      exact hrow
    · rw [List.concat_eq_append, ← List.cons_append, ← List.append_assoc] at heq
      exact hrows before r after (List.append_inj' heq rfl).1

/-- Soundness of all rows is linkage from the genesis hash. -/
theorem allSound_iff : AllSound sha rows ↔ Intact sha rows := by
  induction rows using List.reverseRecOn with
  | nil => exact iff_of_true allSound_nil trivial
  | append_singleton rows row ih =>
      have hlinked : Intact sha (rows ++ [row]) ↔ Intact sha rows ∧
          row.prevHash = runningHash sha rows ∧
          row.rowHash = computeRowHash sha (runningHash sha rows) row.payload := by
        rw [Intact, List.map_append, List.map_singleton, linked_append_singleton, tip_map_link_eq]
        rfl
      rw [allSound_concat, ih, hlinked]
      refine and_congr_right fun _ => ?_
      constructor
      · rintro ⟨hprev, hhash⟩
        exact ⟨hprev, by rw [← hprev]; exact hhash⟩
      · rintro ⟨hprev, hhash⟩
        exact ⟨hprev, by rw [hprev]; exact hhash⟩

/-- After the sound rows the verifier is where the rows before say. -/
theorem verifyChain_append {it : RowIter ε} {rest : List ChainRow}
    (hrows : it.rows = before ++ rest) (hsound : AllSound sha before) :
    verifyChain sha it =
      verifyLoop sha it.err (runningHash sha before) { rows := before.length } rest := by
  rw [verifyChain, hrows, verifyLoop_append sha (allSound_iff.mp hsound), tip_map_link_eq]
  simp

theorem reports_of_not_sound {it : RowIter ε} (hrows : it.rows = before ++ row :: after)
    (hsound : AllSound sha before) (hnot : ¬Sound sha before row) :
    ∃ b, Reports sha (verifyChain sha it) before row after b := by
  rw [verifyChain_append hrows hsound, verifyLoop]
  by_cases hprev : row.prevHash = runningHash sha before
  · -- linked, so the hash is wrong
    have hhash : row.rowHash ≠ computeRowHash sha (runningHash sha before) row.payload := by
      intro heq
      exact hnot ⟨hprev, by rw [hprev]; exact heq⟩
    rw [if_neg (not_not.mpr hprev)]
    simp only [if_pos hhash]
    exact ⟨_, rfl, ⟨rfl, rfl, rfl⟩, by simp [ChainRow.breakAt, hprev],
      by simp [ChainRow.breakAt, hprev], hhash.symm⟩
  · rw [if_pos hprev]
    exact ⟨_, rfl, ⟨rfl, rfl, rfl⟩, by simp [ChainRow.breakAt, hprev],
      by simp [ChainRow.breakAt, hprev], Ne.symm hprev⟩

/-- Going along the rows, either all are sound or there is a first that is not. -/
theorem allSound_or_first (sha : Sha256) (rows : List ChainRow) :
    AllSound sha rows ∨ ∃ before row after, rows = before ++ row :: after ∧
      AllSound sha before ∧ ¬Sound sha before row := by
  induction rows using List.reverseRecOn with
  | nil => exact .inl allSound_nil
  | append_singleton rows row ih =>
      rcases ih with hall | ⟨before, r, after, rfl, hbefore, hnot⟩
      · by_cases hrow : Sound sha rows row
        · exact .inl (allSound_concat.mpr ⟨hall, hrow⟩)
        · exact .inr ⟨rows, row, [], rfl, hall, hrow⟩
      · exact .inr ⟨before, r, after ++ [row], by simp, hbefore, hnot⟩

theorem AllSound.of_append (h : AllSound sha (before ++ after)) : AllSound sha before :=
  fun front row back heq => h front row (back ++ after) (by simp [heq])

/-- A row with another payload and its recomputed hash is sound where the row was. -/
theorem Sound.rehash (h : Sound sha before row) (payload : Bytes) :
    Sound sha before { row with
      payload := payload, rowHash := computeRowHash sha row.prevHash payload } :=
  ⟨h.prev, rfl⟩

/-- **`VerifyChain` meets its specification** on every iterator, whatever the hash function. -/
theorem verifyChain_spec (sha : Sha256) (it : RowIter ε) : VerifierSpec sha it where
  ends := by
    intro hsound herr
    rw [verifyChain_append (List.append_nil _).symm hsound, herr, verifyLoop]
  fails := by
    intro e hsound herr
    rw [verifyChain_append (List.append_nil _).symm hsound, herr, verifyLoop]
  breaks := fun before row after hrows hsound hnot => reports_of_not_sound hrows hsound hnot
  covers := allSound_or_first sha it.rows
  altered := by
    intro before row after payload hsound hne hrows
    have hrow := hsound before row after rfl
    have hnot : ¬Sound sha before { row with payload := payload } := by
      intro hforged
      exact hne (hforged.hash.symm.trans hrow.hash)
    obtain ⟨b, hb⟩ := reports_of_not_sound hrows hsound.of_append hnot
    exact ⟨b, hb, hb.row_hash.mpr hrow.prev⟩
  rehashed := by
    intro before row next after payload hsound hne hrows
    have hrow := hsound before row (next :: after) rfl
    have hnext := hsound (before ++ [row]) next after (by simp)
    have hforged := hrow.rehash payload
    -- the next row still names the old hash
    have hnot : next.prevHash ≠ runningHash sha (before ++ [{ row with
        payload := payload, rowHash := computeRowHash sha row.prevHash payload }]) := by
      rw [hnext.prev]
      simpa [runningHash, hrow.hash] using hne.symm
    rw [← List.singleton_append (l := next :: after), ← List.append_assoc] at hrows
    obtain ⟨b, hb⟩ := reports_of_not_sound hrows
      (allSound_concat.mpr ⟨hsound.of_append, hforged⟩) (fun h => hnot h.prev)
    exact ⟨b, hb, hb.prev_hash.mpr hnot⟩
  rehashed_last := by
    intro before row payload hsound herr hrows
    have hrow := hsound before row [] rfl
    have hall : AllSound sha it.rows := by
      rw [hrows]
      exact allSound_concat.mpr ⟨hsound.of_append, hrow.rehash payload⟩
    rw [verifyChain_append (List.append_nil _).symm hall, herr, verifyLoop]

end TelegramServer.Audit

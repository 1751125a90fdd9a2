import TelegramServer.Audit.Chain
import TelegramServer.Lib.KeySort

/-!
The `audit_log` table with its chain columns, the query the verifier reads it
with (`internal/adminui/store.go`), and the backfill of migration 0007.

A table is a list of rows in no particular order; the order of the chain is
the order of `id`, and every reader asks for it. The backfill computes the
hashes of the rows that existed before the chain did. It walks a snapshot of
the table in `id` order and updates one row at a time, so its correctness is a
loop invariant over the sorted table: the rows already visited are chained,
the others are untouched.
-/

namespace TelegramServer.Audit

open Go Lib

/-- A row of `audit_log`. The chain columns are nullable only while migration
0007 runs, so their type is a parameter. -/
structure AuditRow (H : Type) where
  id : ℕ
  cols : Columns
  prevHash : H
  rowHash : H

/-- `verifyChainQuery`: the rows in `id` order, the payload recomputed from
the stored columns. -/
def verifyChainQuery (r : Rendering) (rows : List (AuditRow Bytes)) : List ChainRow :=
  (sortBy AuditRow.id rows).map fun row =>
    { id := row.id, time := row.cols.time, stage := row.cols.stage.getD "",
      prevHash := row.prevHash, rowHash := row.rowHash,
      payload := auditChainPayload r row.cols }

/-- `VerifyAuditChain` on a committed snapshot whose rows all scan. -/
def verifyAuditChain {ε : Type} (sha : Sha256) (r : Rendering) (rows : List (AuditRow Bytes)) :
    Verdict ε :=
  verifyChain sha { rows := verifyChainQuery r rows }

/-- The link a stored row contributes to the chain. -/
def AuditRow.link (r : Rendering) (row : AuditRow Bytes) : Link Bytes Bytes :=
  ⟨row.prevHash, auditChainPayload r row.cols, row.rowHash⟩

/-- The table, read in `id` order, as links. -/
def chainLinks (r : Rendering) (rows : List (AuditRow Bytes)) : List (Link Bytes Bytes) :=
  (sortBy AuditRow.id rows).map (AuditRow.link r)

/-- The table holds an intact chain. -/
def ChainIntact (sha : Sha256) (r : Rendering) (rows : List (AuditRow Bytes)) : Prop :=
  Linked (computeRowHash sha) (genesisHash sha) (chainLinks r rows)

theorem map_link_verifyChainQuery (r : Rendering) (rows : List (AuditRow Bytes)) :
    (verifyChainQuery r rows).map ChainRow.link = chainLinks r rows := by
  rw [verifyChainQuery, List.map_map, chainLinks]
  rfl

/-- An intact table verifies, and the verifier counts its rows. -/
theorem verifyAuditChain_of_chainIntact {ε : Type} {sha : Sha256} {r : Rendering}
    {rows : List (AuditRow Bytes)} (h : ChainIntact sha r rows) :
    verifyAuditChain (ε := ε) sha r rows =
      { result := { ok := true, rows := rows.length, firstBreak := none } } := by
  have hintact : Intact sha (verifyChainQuery r rows) := by
    rw [Intact, map_link_verifyChainQuery]
    exact h
  rw [verifyAuditChain, verifyChain_of_intact sha hintact]
  simp [verifyChainQuery]

/-! ### The backfill -/

/-- A row as it was before the migration. -/
structure LegacyRow where
  id : ℕ
  cols : Columns

/-- `ADD COLUMN prev_hash, ADD COLUMN row_hash`. -/
def addHashColumns (rows : List LegacyRow) : List (AuditRow (Option Bytes)) :=
  rows.map fun row => { id := row.id, cols := row.cols, prevHash := none, rowHash := none }

/-- `UPDATE audit_log SET prev_hash = prev, row_hash = cur WHERE id = id`. -/
def setHashes (id : ℕ) (prev cur : Bytes) (table : List (AuditRow (Option Bytes))) :
    List (AuditRow (Option Bytes)) :=
  table.map fun row =>
    if row.id = id then { row with prevHash := some prev, rowHash := some cur } else row

/-- The `FOR r IN SELECT * FROM audit_log ORDER BY id` loop. -/
def backfillLoop (sha : Sha256) (r : Rendering) (prev : Bytes)
    (table : List (AuditRow (Option Bytes))) :
    List (AuditRow (Option Bytes)) → List (AuditRow (Option Bytes))
  | [] => table
  | row :: rest =>
      let cur := computeRowHash sha prev (auditChainPayload r row.cols)
      backfillLoop sha r cur (setHashes row.id prev cur table) rest

/-- `SET NOT NULL` on one row of both chain columns. -/
def notNull (row : AuditRow (Option Bytes)) : Option (AuditRow Bytes) :=
  match row.prevHash, row.rowHash with
  | some prev, some hash =>
      some { id := row.id, cols := row.cols, prevHash := prev, rowHash := hash }
  | _, _ => none

/-- Migration 0007 on the rows of the table; `none` where the final
constraints would abort it. -/
def migrate0007 (sha : Sha256) (r : Rendering) (rows : List LegacyRow) :
    Option (List (AuditRow Bytes)) :=
  let table := addHashColumns rows
  (backfillLoop sha r (genesisHash sha) table (sortBy AuditRow.id table)).mapM notNull

/-- The rows of a list chained one after the other, starting from `prev`. -/
def chainRows (sha : Sha256) (r : Rendering) (prev : Bytes) :
    List (AuditRow (Option Bytes)) → List (AuditRow Bytes)
  | [] => []
  | row :: rest =>
      let cur := computeRowHash sha prev (auditChainPayload r row.cols)
      { id := row.id, cols := row.cols, prevHash := prev, rowHash := cur } ::
        chainRows sha r cur rest

theorem linked_chainRows (sha : Sha256) (r : Rendering) (prev : Bytes)
    (rows : List (AuditRow (Option Bytes))) :
    Linked (computeRowHash sha) prev ((chainRows sha r prev rows).map (AuditRow.link r)) := by
  induction rows generalizing prev with
  | nil => trivial
  | cons row rest ih => exact ⟨rfl, rfl, ih _⟩

/-- A row whose chain columns have been filled, seen as a nullable row. -/
def AuditRow.filled (row : AuditRow Bytes) : AuditRow (Option Bytes) where
  id := row.id
  cols := row.cols
  prevHash := some row.prevHash
  rowHash := some row.rowHash

theorem filled_injective : Function.Injective AuditRow.filled := by
  rintro ⟨id, cols, prev, hash⟩ ⟨id', cols', prev', hash'⟩ h
  simpa [AuditRow.filled] using h

theorem notNull_filled (row : AuditRow Bytes) : notNull row.filled = some row := rfl

theorem setHashes_of_not_mem {id : ℕ} {prev cur : Bytes}
    {table : List (AuditRow (Option Bytes))} (h : id ∉ table.map AuditRow.id) :
    setHashes id prev cur table = table := by
  rw [setHashes]
  conv_rhs => rw [← List.map_id table]
  apply List.map_congr_left
  intro row hrow
  have hne : row.id ≠ id := fun heq => h (heq ▸ List.mem_map_of_mem hrow)
  simp [hne]

theorem sortBy_setHashes (id : ℕ) (prev cur : Bytes) (table : List (AuditRow (Option Bytes))) :
    sortBy AuditRow.id (setHashes id prev cur table) =
      setHashes id prev cur (sortBy AuditRow.id table) := by
  refine sortBy_map AuditRow.id AuditRow.id _ table fun row => ?_
  split <;> rfl

theorem setHashes_append (id : ℕ) (prev cur : Bytes)
    (table table' : List (AuditRow (Option Bytes))) :
    setHashes id prev cur (table ++ table') =
      setHashes id prev cur table ++ setHashes id prev cur table' := by
  simp [setHashes]

/-- **The loop invariant of the backfill.** If the sorted table is the chained
rows `done` followed by the rows still to visit, then at the end all of it is
chained. Ids are unique, so the update of a row touches that row only. -/
theorem sortBy_backfillLoop (sha : Sha256) (r : Rendering) (prev : Bytes)
    (table rest : List (AuditRow (Option Bytes))) (done : List (AuditRow Bytes))
    (hsorted : sortBy AuditRow.id table = done.map AuditRow.filled ++ rest)
    (hnodup : ((done.map AuditRow.filled ++ rest).map AuditRow.id).Nodup) :
    sortBy AuditRow.id (backfillLoop sha r prev table rest) =
      (done ++ chainRows sha r prev rest).map AuditRow.filled := by
  induction rest generalizing prev table done with
  | nil => simpa [backfillLoop, chainRows] using hsorted
  | cons row rest ih =>
      let cur := computeRowHash sha prev (auditChainPayload r row.cols)
      let chained : AuditRow Bytes :=
        { id := row.id, cols := row.cols, prevHash := prev, rowHash := cur }
      have hsplit := hnodup
      rw [List.map_append, List.map_cons, List.nodup_append] at hsplit
      have hdone : row.id ∉ (done.map AuditRow.filled).map AuditRow.id := fun hmem =>
        hsplit.2.2 _ hmem _ (by simp) rfl
      have hrest : row.id ∉ rest.map AuditRow.id := (List.nodup_cons.mp hsplit.2.1).1
      have hupdated : sortBy AuditRow.id (setHashes row.id prev cur table) =
          (done ++ [chained]).map AuditRow.filled ++ rest := by
        have hhere : setHashes row.id prev cur [row] = [chained.filled] := by
          simp [setHashes, AuditRow.filled, chained]
        rw [sortBy_setHashes, hsorted, setHashes_append, setHashes_of_not_mem hdone,
          ← List.singleton_append, setHashes_append, setHashes_of_not_mem hrest, hhere]
        simp
      have hnodup' : (((done ++ [chained]).map AuditRow.filled ++ rest).map AuditRow.id).Nodup := by
        simpa [AuditRow.filled, chained] using hnodup
      rw [backfillLoop, ih cur _ (done ++ [chained]) hupdated hnodup']
      simp [chainRows, chained, cur]

theorem mapM_notNull_of_filled (table : List (AuditRow (Option Bytes)))
    (h : ∀ row ∈ table, ∃ row' : AuditRow Bytes, row = row'.filled) :
    ∃ rows : List (AuditRow Bytes), table.mapM notNull = some rows ∧
      rows.map AuditRow.filled = table := by
  induction table with
  | nil => exact ⟨[], rfl, rfl⟩
  | cons row table ih =>
      obtain ⟨row', rfl⟩ := h row (by simp)
      obtain ⟨rows, hrows, hfilled⟩ := ih fun x hx => h x (by simp [hx])
      exact ⟨row' :: rows, by simp [List.mapM_cons, notNull_filled, hrows], by simp [hfilled]⟩

/-- **Migration 0007.** On a table with unique ids it goes through, keeps the
rows, and leaves an intact chain. -/
theorem migrate0007_spec (sha : Sha256) (r : Rendering) {legacy : List LegacyRow}
    (hkey : (legacy.map LegacyRow.id).Nodup) :
    ∃ rows, migrate0007 sha r legacy = some rows ∧ ChainIntact sha r rows ∧
      (rows.map AuditRow.id).Perm (legacy.map LegacyRow.id) := by
  let table := addHashColumns legacy
  let final := backfillLoop sha r (genesisHash sha) table (sortBy AuditRow.id table)
  have hids : table.map AuditRow.id = legacy.map LegacyRow.id := by
    simp [table, addHashColumns]
  have hnodup : ((sortBy AuditRow.id table).map AuditRow.id).Nodup := by
    rw [((sortBy_perm AuditRow.id table).map AuditRow.id).nodup_iff, hids]
    exact hkey
  have hsorted : sortBy AuditRow.id final =
      (chainRows sha r (genesisHash sha) (sortBy AuditRow.id table)).map AuditRow.filled := by
    simpa using sortBy_backfillLoop sha r (genesisHash sha) table (sortBy AuditRow.id table) []
      (by simp) (by simpa using hnodup)
  obtain ⟨rows, hrows, hfilled⟩ := mapM_notNull_of_filled final (by
    intro row hrow
    have hmem : row ∈ sortBy AuditRow.id final := mem_sortBy.mpr hrow
    rw [hsorted] at hmem
    obtain ⟨row', -, rfl⟩ := List.mem_map.mp hmem
    exact ⟨row', rfl⟩)
  have hchain : sortBy AuditRow.id rows =
      chainRows sha r (genesisHash sha) (sortBy AuditRow.id table) := by
    apply List.map_injective_iff.mpr filled_injective
    rw [← hsorted, ← hfilled]
    exact (sortBy_map AuditRow.id AuditRow.id AuditRow.filled rows fun _ => rfl).symm
  refine ⟨rows, hrows, ?_, ?_⟩
  · rw [ChainIntact, chainLinks, hchain]
    exact linked_chainRows sha r _ _
  · have hperm := (sortBy_perm AuditRow.id rows).symm.map AuditRow.id
    rw [hchain] at hperm
    refine hperm.trans ?_
    have hkeep : ∀ (prev : Bytes) (l : List (AuditRow (Option Bytes))),
        (chainRows sha r prev l).map AuditRow.id = l.map AuditRow.id := by
      intro prev l
      induction l generalizing prev with
      | nil => rfl
      | cons row rest ih => simp [chainRows, ih]
    rw [hkeep, ← hids]
    exact (sortBy_perm AuditRow.id table).map AuditRow.id

end TelegramServer.Audit

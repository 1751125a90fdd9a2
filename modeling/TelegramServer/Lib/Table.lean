import Mathlib.Data.List.Basic
import Mathlib.Data.List.Nodup

/-!
Tables with a unique key. A `Table key` is a list of rows, in whatever order the
store keeps them, no two of which have the same key. Every operation returns a
table, so uniqueness is never an invariant to be proved of a program.
-/

namespace TelegramServer.Lib

variable {ρ κ : Type}

structure Table (key : ρ → κ) where
  rows : List ρ
  nodup : (rows.map key).Nodup

namespace Table

variable {key : ρ → κ}

def empty : Table key := ⟨[], List.nodup_nil⟩

/-- The keys that are taken. -/
def keys (t : Table key) : List κ := t.rows.map key

/-- Rows with the same key are the same row. -/
theorem eq_of_key_eq (t : Table key) {r r' : ρ} (hr : r ∈ t.rows) (hr' : r' ∈ t.rows)
    (h : key r = key r') : r = r' :=
  List.inj_on_of_nodup_map t.nodup hr hr' h

/-- Change rows without touching their keys (an SQL `UPDATE`). -/
def modify (t : Table key) (f : ρ → ρ) (hf : ∀ r, key (f r) = key r) : Table key where
  rows := t.rows.map f
  nodup := by
    rw [List.map_map, show key ∘ f = key from funext hf]
    exact t.nodup

@[simp] theorem keys_modify (t : Table key) (f : ρ → ρ) (hf : ∀ r, key (f r) = key r) :
    (t.modify f hf).keys = t.keys := by
  rw [keys, modify, List.map_map, show key ∘ f = key from funext hf, keys]

/-- Rows of another type with the same keys (an SQL `SELECT` of the key and other
columns). -/
def map {ρ' : Type} {key' : ρ' → κ} (t : Table key) (f : ρ → ρ') (hf : ∀ r, key' (f r) = key r) :
    Table key' where
  rows := t.rows.map f
  nodup := by
    rw [List.map_map, show key' ∘ f = key from funext hf]
    exact t.nodup

/-- Keep the rows that pass the test (an SQL `DELETE` of the others). -/
def keep (t : Table key) (p : ρ → Bool) : Table key where
  rows := t.rows.filter p
  nodup := t.nodup.sublist (List.filter_sublist.map key)

section DecidableKey

variable [DecidableEq κ]

/-- Insert a row unless its key is taken (`ON CONFLICT DO NOTHING`). -/
def insert (t : Table key) (r : ρ) : Table key :=
  if h : key r ∈ t.rows.map key then t
  else
    { rows := t.rows ++ [r]
      nodup := by
        rw [List.map_append, List.map_singleton, ← List.concat_eq_append]
        exact t.nodup.concat h }

theorem insert_of_mem {t : Table key} {r : ρ} (h : key r ∈ t.keys) : t.insert r = t :=
  dif_pos h

theorem rows_insert_of_notMem {t : Table key} {r : ρ} (h : key r ∉ t.keys) :
    (t.insert r).rows = t.rows ++ [r] :=
  congrArg rows (dif_neg h)

/-- The row with the given key. -/
def find? (t : Table key) (k : κ) : Option ρ := t.rows.find? fun r => key r = k

theorem find?_eq_some {t : Table key} {k : κ} {r : ρ} :
    t.find? k = some r ↔ r ∈ t.rows ∧ key r = k := by
  constructor
  · intro h
    exact ⟨List.mem_of_find?_eq_some h, by simpa using List.find?_some h⟩
  · rintro ⟨hr, rfl⟩
    cases hfind : t.find? (key r) with
    | none =>
        have hnone := List.find?_eq_none.mp hfind r hr
        simp at hnone
    | some r' =>
        have hkey : key r' = key r := by simpa using List.find?_some hfind
        rw [t.eq_of_key_eq (List.mem_of_find?_eq_some hfind) hr hkey]

theorem mem_insert {t : Table key} {r x : ρ} (h : x ∈ (t.insert r).rows) :
    x ∈ t.rows ∨ x = r := by
  unfold insert at h
  split at h
  · exact .inl h
  · simpa using h

@[simp] theorem isSome_find? {t : Table key} {k : κ} : (t.find? k).isSome ↔ k ∈ t.keys := by
  simp [Option.isSome_iff_exists, find?_eq_some, keys]

theorem find?_insert (t : Table key) (r : ρ) (k : κ) :
    (t.insert r).find? k = (t.find? k).or (if key r = k then some r else none) := by
  unfold insert
  split
  · next htaken =>
      split
      · next hk =>
          obtain ⟨r', hr', hkey⟩ := List.mem_map.mp htaken
          rw [find?_eq_some.mpr ⟨hr', hkey.trans hk⟩, Option.some_or]
      · rw [Option.or_none]
  · simp [find?, List.find?_append, List.find?_singleton]

theorem find?_modify (t : Table key) (f : ρ → ρ) (hf : ∀ r, key (f r) = key r) (k : κ) :
    (t.modify f hf).find? k = (t.find? k).map f := by
  simp only [find?, modify, List.find?_map, Function.comp_def, hf]

theorem find?_keep_ne (t : Table key) (k k' : κ) :
    (t.keep fun r => key r ≠ k).find? k' = if k' = k then none else t.find? k' := by
  split
  · next heq => simp [find?, keep, heq]
  · next hne =>
      rw [find?, keep, List.find?_filter, find?]
      congr 1
      funext r
      by_cases hr : key r = k'
      · simp [hr, hne]
      · simp [hr]

theorem mem_keys_insert_iff {t : Table key} {r : ρ} {k : κ} :
    k ∈ (t.insert r).keys ↔ k ∈ t.keys ∨ k = key r := by
  rw [← isSome_find?, find?_insert, Option.isSome_or, Bool.or_eq_true, isSome_find?]
  by_cases hk : key r = k
  · simp [hk]
  · simp [hk, Ne.symm hk]

theorem mem_keys_insert {t : Table key} {r : ρ} {k : κ} (h : k ∈ t.keys) :
    k ∈ (t.insert r).keys :=
  mem_keys_insert_iff.mpr (.inl h)

/-- Deleting the row with one key. -/
theorem mem_keys_keep_ne {t : Table key} {k k' : κ} :
    k' ∈ (t.keep fun r => key r ≠ k).keys ↔ k' ∈ t.keys ∧ k' ≠ k := by
  simp only [keys, keep, List.mem_map, List.mem_filter, decide_eq_true_eq]
  constructor
  · rintro ⟨r, ⟨hr, hne⟩, rfl⟩
    exact ⟨⟨r, hr, rfl⟩, hne⟩
  · rintro ⟨⟨r, hr, rfl⟩, hne⟩
    exact ⟨r, ⟨hr, hne⟩, rfl⟩

end DecidableKey

end Table

end TelegramServer.Lib

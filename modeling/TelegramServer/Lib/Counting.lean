import TelegramServer.Lib.Grouping
import TelegramServer.Lib.Table
import Mathlib.Logic.Function.Basic

/-!
Counts by groups. `countBy key` is a `SELECT key, count(*) ... GROUP BY key` over the rows that
have a key. A program gets the groups in some order and reads them into a map, or a map of maps, or
adds some of them up; whatever the order, what it has then are counts of the rows again.
-/

namespace TelegramServer.Lib

variable {α κ ι : Type} [DecidableEq κ] [DecidableEq ι]

/-- How often each key occurs. Rows without a key are not counted. -/
def countBy (key : α → Option κ) (l : List α) : List (κ × ℕ) :=
  groupBy id (fun group => some group.length) (l.filterMap key)

section CountBy

variable {key : α → Option κ} {l : List α} {groups : List (κ × ℕ)} {k : κ} {n : ℕ}

theorem mem_countBy :
    (k, n) ∈ countBy key l ↔ n ≠ 0 ∧ n = l.countP fun a => key a = some k := by
  have hcount : ((l.filterMap key).filter fun a => id a = k).length =
      l.countP fun a => key a = some k := by
    rw [← List.countP_eq_length_filter, List.countP_filterMap]
    refine List.countP_congr fun a _ => ?_
    cases key a <;> simp
  rw [countBy, mem_groupBy, hcount, Option.some.injEq, eq_comm (b := n)]
  refine and_congr_left fun hn => ?_
  rw [hn, ← Nat.pos_iff_ne_zero, List.countP_pos_iff]
  simp [List.mem_filterMap]

theorem nodup_countBy : ((countBy key l).map Prod.fst).Nodup := nodup_groupBy

variable (hgroups : groups.Perm (countBy key l))
include hgroups

theorem nodup_groups : (groups.map Prod.fst).Nodup :=
  (hgroups.map Prod.fst).nodup_iff.mpr nodup_countBy

theorem count_eq_of_mem {g : κ × ℕ} (h : g ∈ groups) :
    g.2 = l.countP fun a => key a = some g.1 :=
  (mem_countBy.mp (hgroups.mem_iff.mp h)).2

/-- There is a group for each key that occurs. -/
theorem mem_keys_groups : k ∈ groups.map Prod.fst ↔ ∃ a ∈ l, key a = some k := by
  have hpos : (l.countP fun a => key a = some k) ≠ 0 ↔ ∃ a ∈ l, key a = some k := by
    rw [← Nat.pos_iff_ne_zero, List.countP_pos_iff]
    simp
  rw [← hpos, List.mem_map]
  constructor
  · rintro ⟨⟨k', n⟩, hmem, rfl⟩
    obtain ⟨hne, hn⟩ := mem_countBy.mp (hgroups.mem_iff.mp hmem)
    exact hn ▸ hne
  · intro hne
    exact ⟨(k, _), hgroups.mem_iff.mpr (mem_countBy.mpr ⟨hne, rfl⟩), rfl⟩

/-- Some of the groups together. -/
theorem sum_groups (p : κ → Bool) :
    ((groups.filter fun g => p g.1).map Prod.snd).sum = l.countP fun a => (key a).any p := by
  have hcover : ∀ a ∈ l, (key a).any p = true →
      ∃ k ∈ (groups.filter fun g => p g.1).map Prod.fst, key a = some k := by
    intro a ha hp
    obtain ⟨k, hk, hpk⟩ : ∃ k, key a = some k ∧ p k = true := by
      cases hkey : key a with
      | none => simp [hkey] at hp
      | some k => exact ⟨k, rfl, by simpa [hkey] using hp⟩
    obtain ⟨g, hg, rfl⟩ := List.mem_map.mp ((mem_keys_groups hgroups).mpr ⟨a, ha, hk⟩)
    exact ⟨g.1, List.mem_map_of_mem (List.mem_filter.mpr ⟨hg, hpk⟩), hk⟩
  have hnodup : ((groups.filter fun g => p g.1).map Prod.fst).Nodup :=
    (nodup_groups hgroups).sublist (List.filter_sublist.map _)
  rw [← sum_countP_key hnodup hcover, List.map_map]
  refine congrArg List.sum (List.map_congr_left fun g hg => ?_)
  obtain ⟨hg, hp⟩ := List.mem_filter.mp hg
  rw [count_eq_of_mem hgroups hg]
  refine List.countP_congr fun a _ => ?_
  simp only [decide_eq_true_eq, Bool.and_eq_true]
  refine ⟨fun hkey => ⟨by simp [hkey, hp], hkey⟩, fun h => h.2⟩

theorem sum_all_groups : (groups.map Prod.snd).sum = l.countP fun a => (key a).isSome := by
  have hsum := sum_groups hgroups fun _ => true
  rw [List.filter_true] at hsum
  rw [hsum]
  exact List.countP_congr fun a _ => by cases key a <;> simp

end CountBy

/-! ### Maps -/

section Assignments

variable {β : Type} {key : α → κ} {val : α → β} {l : List α} {m : κ → β}

/-- Of the assignments to a key the last one counts. -/
theorem foldl_update_apply (k : κ) :
    l.foldl (fun m a => Function.update m (key a) (val a)) m k =
      ((l.reverse.find? fun a => key a = k).map val).getD (m k) := by
  induction l generalizing m with
  | nil => rfl
  | cons a l ih =>
      rw [List.foldl_cons, ih, List.reverse_cons, List.find?_append]
      cases l.reverse.find? fun a => key a = k with
      | some b => rfl
      | none =>
          by_cases hk : key a = k
          · simp [hk]
          · simp [hk, Function.update_of_ne (Ne.symm hk)]

theorem foldl_update_of_notMem {k : κ} (h : k ∉ l.map key) :
    l.foldl (fun m a => Function.update m (key a) (val a)) m k = m k := by
  have hnone : (l.reverse.find? fun a => key a = k) = none := by
    refine List.find?_eq_none.mpr fun a ha hkey => h ?_
    exact List.mem_map.mpr ⟨a, List.mem_reverse.mp ha, of_decide_eq_true hkey⟩
  rw [foldl_update_apply, hnone]
  rfl

/-- Where no key comes twice, each has the value that is assigned to it. -/
theorem foldl_update_of_mem (hkey : ∀ a ∈ l, ∀ b ∈ l, key a = key b → a = b) {a : α}
    (ha : a ∈ l) : l.foldl (fun m a => Function.update m (key a) (val a)) m (key a) = val a := by
  rw [foldl_update_apply]
  cases hfind : l.reverse.find? fun b => key b = key a with
  | none =>
      have hother := List.find?_eq_none.mp hfind a (List.mem_reverse.mpr ha)
      exact absurd (decide_eq_true rfl) hother
  | some b =>
      have hb := List.mem_reverse.mp (List.mem_of_find?_eq_some hfind)
      have hsame : key b = key a := by simpa using List.find?_some hfind
      rw [hkey b hb a ha hsame]
      rfl

end Assignments

/-- A map that is filled by assignments; what is not in it reads as zero. -/
def assignAll (groups : List (κ × ℕ)) : κ → ℕ :=
  groups.foldl (fun m g => Function.update m g.1 g.2) fun _ => 0

theorem assignAll_eq {key : α → Option κ} {l : List α} {groups : List (κ × ℕ)}
    (hgroups : groups.Perm (countBy key l)) (k : κ) :
    assignAll groups k = l.countP fun a => key a = some k := by
  by_cases hk : k ∈ groups.map Prod.fst
  · obtain ⟨g, hg, rfl⟩ := List.mem_map.mp hk
    have hkeys : ∀ g ∈ groups, ∀ g' ∈ groups, g.1 = g'.1 → g = g' := fun g hg g' hg' =>
      List.inj_on_of_nodup_map (nodup_groups hgroups) hg hg'
    rw [assignAll, foldl_update_of_mem hkeys hg, count_eq_of_mem hgroups hg]
  · rw [assignAll, foldl_update_of_notMem hk, eq_comm, List.countP_eq_zero]
    intro a ha hkey
    exact hk ((mem_keys_groups hgroups).mpr ⟨a, ha, of_decide_eq_true hkey⟩)

/-! ### Maps of maps -/

/-- An entry of a map whose values are maps. -/
structure InnerMap (κ ι : Type) where
  key : κ
  counts : ι → ℕ

abbrev MapOfMaps (κ ι : Type) : Type := Table fun entry : InnerMap κ ι => entry.key

namespace MapOfMaps

variable {m : MapOfMaps κ ι} {k k' : κ} {i i' : ι} {n : ℕ}

/-- `m[k][i] = n`, after a new map for `k` where there is none. -/
def assign (m : MapOfMaps κ ι) (k : κ) (i : ι) (n : ℕ) : MapOfMaps κ ι :=
  (m.insert ⟨k, fun _ => 0⟩).modify
    (fun entry =>
      if entry.key = k then { entry with counts := Function.update entry.counts i n } else entry)
    fun entry => by split <;> rfl

/-- A value of the map, 0 where there is none. -/
def cell (m : MapOfMaps κ ι) (k : κ) (i : ι) : ℕ :=
  ((m.find? k).map fun entry => entry.counts i).getD 0

def ofGroups (groups : List ((κ × ι) × ℕ)) : MapOfMaps κ ι :=
  groups.foldl (fun m g => m.assign g.1.1 g.1.2 g.2) .empty

theorem cell_assign :
    (m.assign k i n).cell k' i' = if k = k' ∧ i = i' then n else m.cell k' i' := by
  simp only [assign, cell, Table.find?_modify, Table.find?_insert]
  by_cases hk : k = k'
  · subst hk
    cases hfind : m.find? k with
    | none => simp [Function.update_apply, eq_comm]
    | some entry =>
        have hentry : entry.key = k := (Table.find?_eq_some.mp hfind).2
        simp [hentry, Function.update_apply, eq_comm]
  · cases hfind : m.find? k' with
    | none => simp [hk]
    | some entry =>
        have hentry : entry.key = k' := (Table.find?_eq_some.mp hfind).2
        simp [hk, hentry, Ne.symm hk]

theorem mem_keys_assign : k' ∈ (m.assign k i n).keys ↔ k' ∈ m.keys ∨ k' = k := by
  rw [assign, Table.keys_modify, Table.mem_keys_insert_iff]

omit [DecidableEq ι] in
theorem cell_of_notMem_keys (h : k ∉ m.keys) : m.cell k i = 0 := by
  have hnone : m.find? k = none := by
    by_contra hsome
    exact h (Table.isSome_find?.mp (Option.isSome_iff_ne_none.mpr hsome))
  rw [cell, hnone]
  rfl

omit [DecidableEq ι] in
theorem counts_eq_cell {entry : InnerMap κ ι} (h : entry ∈ m.rows) :
    entry.counts i = m.cell entry.key i := by
  rw [cell, Table.find?_eq_some.mpr ⟨h, rfl⟩]
  rfl

theorem mem_keys_foldl (groups : List ((κ × ι) × ℕ)) :
    k ∈ (groups.foldl (fun m g => m.assign g.1.1 g.1.2 g.2) m).keys ↔
      k ∈ m.keys ∨ ∃ g ∈ groups, g.1.1 = k := by
  induction groups generalizing m with
  | nil => simp
  | cons g groups ih =>
      rw [List.foldl_cons, ih, mem_keys_assign]
      simp only [List.mem_cons, exists_eq_or_imp, eq_comm (a := k), or_assoc]

/-- The map of maps is a map of pairs. -/
theorem cell_foldl (groups : List ((κ × ι) × ℕ)) :
    (groups.foldl (fun m g => m.assign g.1.1 g.1.2 g.2) m).cell k i =
      groups.foldl (fun m g => Function.update m g.1 g.2) (fun p => m.cell p.1 p.2) (k, i) := by
  induction groups generalizing m with
  | nil => rfl
  | cons g groups ih =>
      have hstep : (fun p : κ × ι => (m.assign g.1.1 g.1.2 g.2).cell p.1 p.2) =
          Function.update (fun p => m.cell p.1 p.2) g.1 g.2 := by
        funext p
        rw [cell_assign, Function.update_apply]
        simp only [Prod.ext_iff, eq_comm]
      rw [List.foldl_cons, List.foldl_cons, ih, hstep]

variable {key : α → Option (κ × ι)} {l : List α} {groups : List ((κ × ι) × ℕ)}

theorem cell_ofGroups (hgroups : groups.Perm (countBy key l)) (k : κ) (i : ι) :
    (ofGroups groups).cell k i = l.countP fun a => key a = some (k, i) := by
  rw [ofGroups, cell_foldl]
  exact assignAll_eq hgroups (k, i)

theorem counts_ofGroups (hgroups : groups.Perm (countBy key l)) {entry : InnerMap κ ι}
    (h : entry ∈ (ofGroups groups).rows) (i : ι) :
    entry.counts i = l.countP fun a => key a = some (entry.key, i) :=
  (counts_eq_cell h).trans (cell_ofGroups hgroups _ i)

/-- The entries are for the keys that occur. -/
theorem mem_keys_ofGroups (hgroups : groups.Perm (countBy key l)) :
    k ∈ (ofGroups groups).keys ↔ ∃ a ∈ l, ∃ i, key a = some (k, i) := by
  have hempty : k ∉ (Table.empty : MapOfMaps κ ι).keys := List.not_mem_nil
  rw [ofGroups, mem_keys_foldl, or_iff_right hempty]
  constructor
  · rintro ⟨g, hg, rfl⟩
    obtain ⟨a, ha, hkey⟩ := (mem_keys_groups hgroups).mp (List.mem_map_of_mem hg)
    exact ⟨a, ha, g.1.2, hkey⟩
  · rintro ⟨a, ha, i, hkey⟩
    obtain ⟨g, hg, heq⟩ := List.mem_map.mp ((mem_keys_groups hgroups).mpr ⟨a, ha, hkey⟩)
    exact ⟨g, hg, by rw [heq]⟩

end MapOfMaps

end TelegramServer.Lib

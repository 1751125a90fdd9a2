import TelegramServer.Lib.KeySort
import Mathlib.Algebra.BigOperators.Group.List.Basic
import Mathlib.Algebra.Order.Ring.Nat
import Mathlib.Data.List.ProdSigma
import Mathlib.Data.List.Dedup
import Mathlib.Data.Prod.Lex
import Mathlib.Order.Bounds.Basic
import Mathlib.Order.MinMax

/-!
Queries that make one row of many. `groupBy` is a `GROUP BY` with an aggregate,
`distinctOn` a `DISTINCT ON` over rows that come in the order of the query, and
`innerJoin` a `JOIN`. Both ways of asking for the latest row of a group are compared
with the greatest element of the set of its times, which mentions no order of the rows.
-/

namespace TelegramServer.Lib

variable {α β κ τ : Type*}

section Grouping

variable [DecidableEq κ]

/-- The aggregate of each group. A group is never empty, an aggregate may be NULL. -/
def groupBy (key : α → κ) (agg : List α → Option β) (l : List α) : List (κ × β) :=
  (l.map key).dedup.filterMap fun k => (agg (l.filter fun a => key a = k)).map (k, ·)

/-- The first row of each group. -/
def distinctOn (key : α → κ) : List α → List α
  | [] => []
  | a :: l => a :: (distinctOn key l).filter fun b => key b ≠ key a

/-- The values of a column in one group. -/
def column (key : α → κ) (val : α → τ) (l : List α) (k : κ) : Set τ :=
  {t | ∃ a ∈ l, key a = k ∧ val a = t}

variable {key : α → κ} {agg : List α → Option β} {l : List α} {k : κ} {a : α}

theorem mem_groupBy {b : β} :
    (k, b) ∈ groupBy key agg l ↔
      (∃ a ∈ l, key a = k) ∧ agg (l.filter fun a => key a = k) = some b := by
  simp only [groupBy, List.mem_filterMap, List.mem_dedup, List.mem_map, Option.map_eq_some_iff,
    Prod.mk.injEq]
  constructor
  · rintro ⟨k', hk', b', hb', rfl, rfl⟩
    exact ⟨hk', hb'⟩
  · rintro ⟨hk, hb⟩
    exact ⟨k, hk, b, hb, rfl, rfl⟩

theorem nodup_groupBy : ((groupBy key agg l).map Prod.fst).Nodup := by
  have hsub : ((groupBy key agg l).map Prod.fst).Sublist (l.map key).dedup := by
    unfold groupBy
    generalize (l.map key).dedup = ks
    induction ks with
    | nil => exact .slnil
    | cons k ks ih =>
        rw [List.filterMap_cons]
        cases hagg : agg (l.filter fun a => key a = k) with
        | none => exact ih.cons k
        | some b => exact ih.cons_cons k
  exact hsub.nodup (List.nodup_dedup _)

theorem mem_of_mem_distinctOn (h : a ∈ distinctOn key l) : a ∈ l := by
  induction l with
  | nil => exact h
  | cons b l ih =>
      obtain rfl | h := List.mem_cons.mp h
      · exact List.mem_cons_self ..
      · exact List.mem_cons_of_mem b (ih (List.mem_of_mem_filter h))

/-- Every group has a first row. -/
theorem exists_mem_distinctOn (h : a ∈ l) : ∃ b ∈ distinctOn key l, key b = key a := by
  induction l with
  | nil => cases h
  | cons c l ih =>
      by_cases hc : key a = key c
      · exact ⟨c, List.mem_cons_self .., hc.symm⟩
      · have hl : a ∈ l := by
          obtain rfl | hl := List.mem_cons.mp h
          · exact absurd rfl hc
          · exact hl
        obtain ⟨b, hb, hkey⟩ := ih hl
        refine ⟨b, List.mem_cons_of_mem c (List.mem_filter.mpr ⟨hb, ?_⟩), hkey⟩
        rw [hkey]
        exact decide_eq_true hc

theorem nodup_distinctOn : ((distinctOn key l).map key).Nodup := by
  induction l with
  | nil => exact List.nodup_nil
  | cons a l ih =>
      rw [distinctOn, List.map_cons, List.nodup_cons]
      refine ⟨fun hmem => ?_, ih.sublist (List.filter_sublist.map key)⟩
      obtain ⟨b, hb, hkey⟩ := List.mem_map.mp hmem
      exact of_decide_eq_true (List.mem_filter.mp hb).2 hkey

theorem distinctOn_sublist (key : α → κ) (l : List α) : (distinctOn key l).Sublist l := by
  induction l with
  | nil => exact .slnil
  | cons a l ih => exact (List.filter_sublist.trans ih).cons_cons a

/-- A row that comes last is the first one of its group only where the group is new. -/
theorem distinctOn_concat (l : List α) (x : α) :
    distinctOn key (l ++ [x]) = distinctOn key l ++ if ∃ a ∈ l, key a = key x then [] else [x] := by
  induction l with
  | nil => simp [distinctOn]
  | cons a l ih =>
      rw [List.cons_append, distinctOn, ih, distinctOn, List.filter_append, List.cons_append]
      congr 2
      by_cases ha : key a = key x
      · -- the row is one of the group of `a`
        split <;> simp [ha]
      · simp only [List.mem_cons, exists_eq_or_imp, ha, false_or]
        split
        · rfl
        · simp [Ne.symm ha]

/-- In a list in which the rows of a group are ordered by `r`, the first one precedes the
others. -/
theorem rel_of_mem_distinctOn {r : α → α → Prop} (hr : ∀ a, r a a) {b : α}
    (hsorted : l.Pairwise fun a b => key a = key b → r a b) (ha : a ∈ distinctOn key l)
    (hb : b ∈ l) (hkey : key a = key b) : r a b := by
  induction l with
  | nil => cases hb
  | cons c l ih =>
      rw [List.pairwise_cons] at hsorted
      obtain rfl | ha := List.mem_cons.mp ha
      · obtain rfl | hb := List.mem_cons.mp hb
        · exact hr _
        · exact hsorted.1 b hb hkey
      · obtain ⟨ha, hne⟩ := List.mem_filter.mp ha
        obtain rfl | hb := List.mem_cons.mp hb
        · exact absurd hkey (of_decide_eq_true hne)
        · exact ih hsorted.2 ha hb

/-- Counting by groups, if each row that counts is in one of them. -/
theorem sum_countP_key {key : α → Option κ} {p : α → Bool} {ks : List κ} (hnodup : ks.Nodup)
    (hks : ∀ a ∈ l, p a = true → ∃ k ∈ ks, key a = some k) :
    (ks.map fun k => l.countP fun a => p a && key a = some k).sum = l.countP p := by
  induction l with
  | nil => simp
  | cons a l ih =>
      have hone : (ks.map fun k => if (p a && key a = some k) = true then 1 else 0).sum =
          if p a = true then 1 else 0 := by
        cases hp : p a with
        | false => simp
        | true =>
            obtain ⟨k, hk, hkey⟩ := hks a (List.mem_cons_self ..) hp
            have hcount := List.count_eq_one_of_mem hnodup hk
            simp only [List.count_eq_length_filter, beq_eq_decide] at hcount
            simp only [Bool.true_and, decide_eq_true_eq, hkey, Option.some.injEq, eq_comm (a := k)]
            rw [List.sum_map_ite]
            simpa using hcount
      simp only [List.countP_cons, List.sum_map_add]
      rw [ih fun b hb => hks b (List.mem_cons_of_mem a hb), hone]

end Grouping

/-! ### The latest row of a group -/

section Extrema

variable {key : α → κ} {val : α → τ} {l l' : List α} {k : κ} {t : τ}

theorem column_perm (h : l'.Perm l) : column key val l' k = column key val l k := by
  ext t
  exact ⟨fun ⟨a, ha, hka⟩ => ⟨a, h.mem_iff.mp ha, hka⟩, fun ⟨a, ha, hka⟩ =>
    ⟨a, h.mem_iff.mpr ha, hka⟩⟩

theorem mem_column_iff [DecidableEq κ] :
    t ∈ column key val l k ↔ t ∈ (l.filter fun a => key a = k).map val := by
  simp only [column, Set.mem_ofPred_eq, List.mem_map, List.mem_filter, decide_eq_true_eq,
    and_assoc]

variable [LinearOrder κ] [LinearOrder τ]

theorem mem_groupBy_max :
    (k, t) ∈ groupBy key (fun group => (group.map val).max?) l ↔
      IsGreatest (column key val l k) t := by
  rw [mem_groupBy, List.max?_eq_some_iff]
  simp only [← mem_column_iff]
  constructor
  · rintro ⟨-, hmem, hle⟩
    exact ⟨hmem, hle⟩
  · rintro ⟨⟨a, ha, hkey, hval⟩, hle⟩
    exact ⟨⟨a, ha, hkey⟩, ⟨a, ha, hkey, hval⟩, hle⟩

theorem mem_groupBy_min :
    (k, t) ∈ groupBy key (fun group => (group.map val).min?) l ↔
      IsLeast (column key val l k) t := by
  rw [mem_groupBy, List.min?_eq_some_iff]
  simp only [← mem_column_iff]
  constructor
  · rintro ⟨-, hmem, hle⟩
    exact ⟨hmem, hle⟩
  · rintro ⟨⟨a, ha, hkey, hval⟩, hle⟩
    exact ⟨⟨a, ha, hkey⟩, ⟨a, ha, hkey, hval⟩, hle⟩

/-- The rows in the order of `key` and, within a group, newest first. -/
def newestFirst (key : α → κ) (val : α → τ) (l : List α) : List α :=
  sortBy (fun a => toLex (key a, OrderDual.toDual (val a))) l

/-- The first row of a group is its latest. -/
theorem isGreatest_of_mem_distinctOn {a : α}
    (h : a ∈ distinctOn key (newestFirst key val l)) :
    IsGreatest (column key val l (key a)) (val a) := by
  refine ⟨⟨a, mem_sortBy.mp (mem_of_mem_distinctOn h), rfl, rfl⟩, ?_⟩
  rintro t ⟨b, hb, hkey, rfl⟩
  refine rel_of_mem_distinctOn (r := fun a b => val b ≤ val a) (fun _ => le_rfl) ?_ h
    (mem_sortBy.mpr hb) hkey.symm
  refine (pairwise_sortBy _ l).imp fun {a b} hle hkey => ?_
  obtain hlt | ⟨-, hval⟩ := Prod.Lex.toLex_le_toLex.mp hle
  · exact absurd hkey hlt.ne
  · exact hval

/-- `DISTINCT ON` and `max` agree on the latest row of a group. -/
theorem exists_mem_distinctOn_iff :
    (∃ a ∈ distinctOn key (newestFirst key val l), key a = k ∧ val a = t) ↔
      IsGreatest (column key val l k) t := by
  constructor
  · rintro ⟨a, ha, rfl, rfl⟩
    exact isGreatest_of_mem_distinctOn ha
  · intro h
    obtain ⟨a, ha, rfl, -⟩ := h.1
    have hsorted : a ∈ newestFirst key val l := mem_sortBy.mpr ha
    obtain ⟨b, hb, hkey⟩ : ∃ b ∈ distinctOn key (newestFirst key val l), key b = key a :=
      exists_mem_distinctOn hsorted
    refine ⟨b, hb, hkey, ?_⟩
    have hlatest := isGreatest_of_mem_distinctOn hb
    rw [hkey] at hlatest
    exact hlatest.unique h

end Extrema

/-! ### Joins -/

section Join

variable [DecidableEq κ] {key : α → κ} {key' : β → κ} {l : List α} {r : List β}

/-- The pairs of rows that agree in the column they are joined on. -/
def innerJoin (key : α → κ) (key' : β → κ) (l : List α) (r : List β) : List (α × β) :=
  (l ×ˢ r).filter fun p => key p.1 = key' p.2

theorem mem_innerJoin {p : α × β} :
    p ∈ innerJoin key key' l r ↔ p.1 ∈ l ∧ p.2 ∈ r ∧ key p.1 = key' p.2 := by
  rw [innerJoin, List.mem_filter, List.mem_product, decide_eq_true_eq, and_assoc]

/-- A join of two tables in which the column is unique has it unique, too. -/
theorem nodup_innerJoin (hl : (l.map key).Nodup) (hr : (r.map key').Nodup) :
    ((innerJoin key key' l r).map fun p => key p.1).Nodup := by
  have hpairs : (innerJoin key key' l r).Nodup :=
    (List.Nodup.product (hl.of_map key) (hr.of_map key')).filter _
  refine hpairs.map_on ?_
  rintro ⟨a, b⟩ hp ⟨a', b'⟩ hp' hkey
  obtain ⟨ha, hb, hab⟩ := mem_innerJoin.mp hp
  obtain ⟨ha', hb', hab'⟩ := mem_innerJoin.mp hp'
  have haa' : a = a' := List.inj_on_of_nodup_map hl ha ha' hkey
  have hbb' : b = b' := List.inj_on_of_nodup_map hr hb hb' (hab.symm.trans (hkey.trans hab'))
  rw [haa', hbb']

end Join

end TelegramServer.Lib

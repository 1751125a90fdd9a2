import Mathlib.Data.List.Sort

/-!
Reading a list in the order of a key. A table has no order of
its own; `sortBy key` is what a query with an `ORDER BY` returns, and the
lemmas say how it changes when the table grows at the top of the order and
when rows are rewritten without touching their keys.
-/

namespace TelegramServer.Lib

variable {α β κ : Type*} [LinearOrder κ]

/-- The rows of `l` in ascending order of `key`. -/
def sortBy (key : α → κ) (l : List α) : List α :=
  l.insertionSort fun a b => key a ≤ key b

theorem sortBy_perm (key : α → κ) (l : List α) : (sortBy key l).Perm l :=
  List.perm_insertionSort _ l

@[simp] theorem mem_sortBy {key : α → κ} {l : List α} {a : α} :
    a ∈ sortBy key l ↔ a ∈ l :=
  (sortBy_perm key l).mem_iff

@[simp] theorem length_sortBy (key : α → κ) (l : List α) :
    (sortBy key l).length = l.length :=
  (sortBy_perm key l).length_eq

theorem pairwise_sortBy (key : α → κ) (l : List α) :
    (sortBy key l).Pairwise fun a b => key a ≤ key b :=
  @List.pairwise_insertionSort α (fun a b => key a ≤ key b) _ ⟨fun _ _ => le_total _ _⟩
    ⟨fun _ _ _ => le_trans⟩ l

theorem orderedInsert_append_singleton (key : α → κ) (a x : α) (l : List α)
    (h : key a ≤ key x) :
    List.orderedInsert (fun a b => key a ≤ key b) a (l ++ [x]) =
      List.orderedInsert (fun a b => key a ≤ key b) a l ++ [x] := by
  induction l with
  | nil => simp [List.orderedInsert, h]
  | cons b l ih =>
      by_cases hab : key a ≤ key b
      · simp [List.orderedInsert, hab]
      · simp [List.orderedInsert, hab, ih]

/-- A row whose key is above every other key is read last. -/
theorem sortBy_append_singleton (key : α → κ) (l : List α) (x : α)
    (h : ∀ a ∈ l, key a ≤ key x) :
    sortBy key (l ++ [x]) = sortBy key l ++ [x] := by
  induction l with
  | nil => rfl
  | cons a l ih =>
      have ha : key a ≤ key x := h a (by simp)
      have hl : ∀ b ∈ l, key b ≤ key x := fun b hb => h b (by simp [hb])
      simp only [sortBy, List.cons_append, List.insertionSort_cons] at ih ⊢
      rw [ih hl, orderedInsert_append_singleton key a x _ ha]

/-- Rewriting rows without touching their keys commutes with reading them in
order. -/
theorem sortBy_map (keyA : α → κ) (keyB : β → κ) (f : α → β) (l : List α)
    (hkey : ∀ a, keyB (f a) = keyA a) :
    sortBy keyB (l.map f) = (sortBy keyA l).map f := by
  symm
  exact List.map_insertionSort _ _ f l fun a _ b _ => by simp [hkey]

/-- Rows with the same key stay in order. -/
theorem filter_sortBy {key : α → κ} {p : α → Bool} {l : List α}
    (hp : ∀ a ∈ l, ∀ b ∈ l, p a = true → p b = true → key a = key b) :
    (sortBy key l).filter p = l.filter p := by
  induction l with
  | nil => rfl
  | cons a l ih =>
      have hl := ih fun b hb c hc => hp b (List.mem_cons_of_mem a hb) c (List.mem_cons_of_mem a hc)
      have hsplit := (sortBy key l).takeWhile_append_dropWhile (p := fun b => ¬key a ≤ key b)
      rw [sortBy, List.insertionSort_cons, List.orderedInsert_eq_take_drop, List.filter_append]
      rw [← sortBy]
      by_cases ha : p a = true
      · -- before `a` there are smaller keys only
        have hsmaller : ((sortBy key l).takeWhile fun b => ¬key a ≤ key b).filter p = [] := by
          refine List.filter_eq_nil_iff.mpr fun b hb hpb => ?_
          have hbl : b ∈ l := mem_sortBy.mp ((List.takeWhile_prefix _).subset hb)
          have hlt : ¬key a ≤ key b :=
            of_decide_eq_true (List.all_eq_true.mp List.all_takeWhile b hb)
          exact hlt (hp a (by simp) b (by simp [hbl]) ha hpb).le
        rw [← hsplit, List.filter_append, hsmaller, List.nil_append] at hl
        rw [hsmaller, List.nil_append, List.filter_cons_of_pos ha, List.filter_cons_of_pos ha, hl]
      · rw [List.filter_cons_of_neg ha, List.filter_cons_of_neg ha, ← List.filter_append,
          hsplit, hl]

/-! ### Newest first -/

/-- The rows of `l` in descending order of `key`. -/
def descending (key : α → κ) (l : List α) : List α := (sortBy key l).reverse

theorem descending_perm (key : α → κ) (l : List α) : (descending key l).Perm l :=
  (List.reverse_perm _).trans (sortBy_perm key l)

@[simp] theorem mem_descending {key : α → κ} {l : List α} {a : α} :
    a ∈ descending key l ↔ a ∈ l :=
  (descending_perm key l).mem_iff

theorem pairwise_le_descending (key : α → κ) (l : List α) :
    (descending key l).Pairwise fun a b => key b ≤ key a :=
  List.pairwise_reverse.mpr (pairwise_sortBy key l)

theorem pairwise_descending {key : α → κ} {l : List α} (h : (l.map key).Nodup) :
    (descending key l).Pairwise fun a b => key b < key a := by
  have hdistinct : (sortBy key l).Pairwise fun a b => key a ≠ key b :=
    List.pairwise_map.mp (((sortBy_perm key l).map key).nodup_iff.mpr h)
  exact List.pairwise_reverse.mpr
    ((pairwise_sortBy key l).imp₂ (fun _ _ hle hne => lt_of_le_of_ne hle hne) hdistinct)

/-- There is only one way to list the rows in strictly descending order. -/
theorem eq_descending {key : α → κ} {l l' : List α}
    (hsorted : l'.Pairwise fun a b => key b < key a) (hperm : l'.Perm l) :
    l' = descending key l := by
  have hnodup : (l.map key).Nodup :=
    (hperm.map key).nodup_iff.mp (List.pairwise_map.mpr (hsorted.imp fun h => (ne_of_lt h).symm))
  refine List.Perm.eq_of_pairwise (fun a b _ _ hab hba => absurd hab (lt_asymm hba)) hsorted
    (pairwise_descending hnodup) (hperm.trans (descending_perm key l).symm)

theorem filter_descending {key : α → κ} {l : List α} (h : (l.map key).Nodup) (p : α → Bool) :
    (descending key l).filter p = descending key (l.filter p) :=
  eq_descending ((pairwise_descending h).filter p) ((descending_perm key l).filter p)

/-- Keyset pagination: the rows below the last one of the first `n` are those after
them. -/
theorem filter_lt_eq_drop {key : α → κ} {l : List α} {last : α} {n : ℕ}
    (hsorted : l.Pairwise fun a b => key b < key a)
    (hlast : (l.take n).getLast? = some last) :
    (l.filter fun a => key a < key last) = l.drop n := by
  obtain ⟨init, hinit⟩ := List.getLast?_eq_some_iff.mp hlast
  have hsplit : l = (init ++ [last]) ++ l.drop n := by rw [← hinit, List.take_append_drop]
  rw [hsplit, List.append_assoc, List.pairwise_append] at hsorted
  obtain ⟨-, htail, hinit_gt⟩ := hsorted
  rw [List.singleton_append, List.pairwise_cons] at htail
  conv_lhs => rw [hsplit]
  rw [List.filter_append, List.filter_append]
  have h₁ : (init.filter fun a => key a < key last) = [] :=
    List.filter_eq_nil_iff.mpr fun a ha => by
      simpa using (hinit_gt a ha last (by simp)).le
  have h₂ : (([last] : List α).filter fun a => key a < key last) = [] := by simp
  have h₃ : ((l.drop n).filter fun a => key a < key last) = l.drop n :=
    List.filter_eq_self.mpr fun a ha => by simpa using htail.1 a ha
  rw [h₁, h₂, h₃, List.nil_append, List.nil_append]

end TelegramServer.Lib

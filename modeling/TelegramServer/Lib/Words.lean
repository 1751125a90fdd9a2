import Mathlib.Data.List.Basic

/-!
Words in a text. A word is a list of letters, elements with `p`, and it occurs in a
text as an infix. Other elements separate words: a word that occurs in two texts
put together occurs in one of them, unless both have a letter where they meet.
A text without a long stretch of letters has no long word, which for a given text
is a matter of computation.
-/

namespace TelegramServer.Lib

variable {α : Type} {p : α → Bool}

/-- Somewhere in the list `n` elements in a row have `p`; `k` is the number of those
just before the list. -/
def hasStretch (p : α → Bool) (n : ℕ) : ℕ → List α → Bool
  | k, [] => n ≤ k
  | k, x :: xs => n ≤ k || hasStretch p n (if p x then k + 1 else 0) xs

theorem hasStretch_of_le {n k : ℕ} (h : n ≤ k) (l : List α) : hasStretch p n k l = true := by
  cases l <;> simp [hasStretch, h]

theorem hasStretch_mono {n k k' : ℕ} {l : List α} (hk : k ≤ k') (h : hasStretch p n k l = true) :
    hasStretch p n k' l = true := by
  induction l generalizing k k' with
  | nil =>
      simp only [hasStretch, decide_eq_true_eq] at h ⊢
      exact Nat.le_trans h hk
  | cons x xs ih =>
      simp only [hasStretch, Bool.or_eq_true, decide_eq_true_eq] at h ⊢
      refine h.imp (fun hn => Nat.le_trans hn hk) (ih ?_)
      split <;> omega

theorem hasStretch_word_append {n k : ℕ} {word l : List α} (hword : ∀ x ∈ word, p x = true)
    (hn : n ≤ k + word.length) : hasStretch p n k (word ++ l) = true := by
  induction word generalizing k with
  | nil => exact hasStretch_of_le hn l
  | cons x word ih =>
      have hx := hword x (List.mem_cons_self ..)
      simp only [List.cons_append, hasStretch, hx, if_true, Bool.or_eq_true]
      refine .inr (ih (fun y hy => hword y (List.mem_cons_of_mem _ hy)) ?_)
      simp only [List.length_cons] at hn
      omega

/-- A long word leaves a long stretch of letters in every text it occurs in. -/
theorem hasStretch_of_infix {n : ℕ} {word l : List α} (hword : ∀ x ∈ word, p x = true)
    (hn : n ≤ word.length) (h : word <:+: l) : hasStretch p n 0 l = true := by
  obtain ⟨before, after, rfl⟩ := h
  rw [List.append_assoc]
  induction before with
  | nil =>
      rw [List.nil_append]
      exact hasStretch_word_append hword (by omega)
  | cons x before ih =>
      simp only [List.cons_append, hasStretch, Bool.or_eq_true]
      exact .inr (hasStretch_mono (Nat.zero_le _) ih)

/-- At most one of the two texts has a letter where they meet. -/
def Fenced (p : α → Bool) (l l' : List α) : Prop :=
  l.getLast?.all (fun x => !p x) = true ∨ l'.head?.all (fun x => !p x) = true

theorem infix_append_of_fenced {word l l' : List α} (hword : ∀ x ∈ word, p x = true)
    (hfence : Fenced p l l') (h : word <:+: l ++ l') : word <:+: l ∨ word <:+: l' := by
  obtain h | h | ⟨w, w', hw, hw', rfl, hl, hl'⟩ := List.infix_append_iff_ne_nil.mp h
  · exact .inl h
  · exact .inr h
  · -- the word would have a letter on either side of the fence
    obtain ⟨l, rfl⟩ := hl
    obtain ⟨l', rfl⟩ := hl'
    obtain ⟨x, hx⟩ := Option.ne_none_iff_exists'.mp (mt List.getLast?_eq_none_iff.mp hw)
    obtain ⟨x', hx'⟩ := Option.ne_none_iff_exists'.mp (mt List.head?_eq_none_iff.mp hw')
    have hlast := hword x (List.mem_append_left _ (List.mem_of_getLast? hx))
    have hhead := hword x' (List.mem_append_right _ (List.mem_of_head? hx'))
    simp [Fenced, hx, hx', hlast, hhead] at hfence

end TelegramServer.Lib

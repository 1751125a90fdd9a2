import Mathlib.Data.List.Basic
import Mathlib.Data.List.Infix

/-!
Prefix codes, and cutting a coded message short. No word of a prefix code is a
proper prefix of another, so the words of a message can be read off from the
left, and a message cut in the middle of a word is not a message.

`exists_take_coded` is what this is for: below any cut there is a last boundary
between words, less than the length of a word away, and what lies between the
boundary and the cut is not coded.
-/

namespace TelegramServer.Lib

/-- A code with words of at most `bound` units. -/
structure PrefixCode (β α : Type*) where
  code : β → List α
  bound : ℕ
  ne_nil : ∀ b, code b ≠ []
  length_le : ∀ b, (code b).length ≤ bound
  eq_of_isPrefix : ∀ a b, code a <+: code b → code a = code b

namespace PrefixCode

variable {β α : Type*} (c : PrefixCode β α)

/-- The list is the code of a message. -/
def Coded (l : List α) : Prop := ∃ ms : List β, l = ms.flatMap c.code

variable {c}

theorem coded_nil : c.Coded [] := ⟨[], rfl⟩

theorem Coded.cons {l : List α} (b : β) (h : c.Coded l) : c.Coded (c.code b ++ l) := by
  obtain ⟨ms, rfl⟩ := h
  exact ⟨b :: ms, List.flatMap_cons.symm⟩

theorem Coded.append {l l' : List α} (h : c.Coded l) (h' : c.Coded l') : c.Coded (l ++ l') := by
  obtain ⟨ms, rfl⟩ := h
  obtain ⟨ms', rfl⟩ := h'
  exact ⟨ms ++ ms', List.flatMap_append.symm⟩

/-- A message that is not empty starts with a word. -/
theorem Coded.exists_cons {l : List α} (h : c.Coded l) (hne : l ≠ []) :
    ∃ b l', l = c.code b ++ l' ∧ c.Coded l' := by
  obtain ⟨ms, rfl⟩ := h
  cases ms with
  | nil => exact absurd rfl hne
  | cons b ms => exact ⟨b, ms.flatMap c.code, List.flatMap_cons, ms, rfl⟩

/-- Of two words that start the same list, both are the same. -/
theorem code_eq_of_append_eq {a b : β} {l l' : List α} (h : c.code a ++ l = c.code b ++ l') :
    c.code a = c.code b := by
  rcases List.append_eq_append_iff.mp h with ⟨m, hb, -⟩ | ⟨m, ha, -⟩
  · exact c.eq_of_isPrefix a b ⟨m, hb.symm⟩
  · exact (c.eq_of_isPrefix b a ⟨m, ha.symm⟩).symm

theorem coded_code_append_iff {b : β} {l : List α} : c.Coded (c.code b ++ l) ↔ c.Coded l := by
  refine ⟨fun h => ?_, fun h => h.cons b⟩
  have hne : c.code b ++ l ≠ [] := by simp [c.ne_nil b]
  obtain ⟨a, l', heq, hl'⟩ := h.exists_cons hne
  have hword := code_eq_of_append_eq heq
  rw [hword, List.append_cancel_left_eq] at heq
  exact heq ▸ hl'

/-- What is left of a message after some words is a message. -/
theorem Coded.of_append {l l' : List α} (hl : c.Coded l) (h : c.Coded (l ++ l')) : c.Coded l' := by
  obtain ⟨ms, rfl⟩ := hl
  induction ms with
  | nil => exact h
  | cons b ms ih =>
      rw [List.flatMap_cons, List.append_assoc, coded_code_append_iff] at h
      exact ih h

/-- A part of a word is not coded. -/
theorem not_coded_of_isPrefix {b : β} {p : List α} (hp : p <+: c.code b) (hnil : p ≠ [])
    (hlt : p.length < (c.code b).length) : ¬ c.Coded p := by
  intro h
  obtain ⟨a, l, rfl, -⟩ := h.exists_cons hnil
  have hword := c.eq_of_isPrefix a b ((List.prefix_append _ _).trans hp)
  rw [List.length_append, hword] at hlt
  omega

/-- The last boundary between words at or before a cut. -/
theorem exists_take_coded {l : List α} (h : c.Coded l) {k : ℕ} (hk : k ≤ l.length) :
    ∃ m ≤ k, k ≤ m + (c.bound - 1) ∧ c.Coded (l.take m) ∧
      ∀ i, m < i → i ≤ k → ¬ c.Coded (l.take i) := by
  obtain ⟨ms, rfl⟩ := h
  induction ms generalizing k with
  | nil =>
      obtain rfl : k = 0 := by simpa using hk
      exact ⟨0, le_rfl, Nat.zero_le _, coded_nil, fun i hi hi' => absurd hi (by omega)⟩
  | cons b ms ih =>
      rw [List.flatMap_cons] at hk ⊢
      have hbound := c.length_le b
      rcases lt_or_ge k (c.code b).length with hin | hout
      · -- the cut is inside the first word
        refine ⟨0, Nat.zero_le k, by omega, coded_nil, fun i hi hik => ?_⟩
        have htake : (c.code b ++ ms.flatMap c.code).take i = (c.code b).take i :=
          List.take_append_of_le_length (by omega)
        have hlen : ((c.code b).take i).length = i := by
          rw [List.length_take]
          omega
        rw [htake]
        exact not_coded_of_isPrefix (List.take_prefix i _)
          (List.ne_nil_of_length_pos (by omega)) (by omega)
      · rw [List.length_append] at hk
        have hrest : k - (c.code b).length ≤ (ms.flatMap c.code).length := by omega
        obtain ⟨m, hmk, hclose, hcoded, hlast⟩ := ih hrest
        have htake (i : ℕ) : (c.code b ++ ms.flatMap c.code).take ((c.code b).length + i) =
            c.code b ++ (ms.flatMap c.code).take i :=
          List.take_length_add_append i
        refine ⟨(c.code b).length + m, by omega, by omega, ?_, fun i hi hik => ?_⟩
        · rw [htake]
          exact hcoded.cons b
        · obtain ⟨j, rfl⟩ : ∃ j, i = (c.code b).length + j := ⟨i - (c.code b).length, by omega⟩
          rw [htake, coded_code_append_iff]
          exact hlast j (by omega) (by omega)

end PrefixCode

end TelegramServer.Lib

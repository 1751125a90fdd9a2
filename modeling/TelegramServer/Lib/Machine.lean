import Mathlib.Data.List.Basic
import Mathlib.Order.Defs.PartialOrder

/-!
Machines that answer. `step s a` is the answer to the input `a` in the state `s`
and the state afterwards; `answers` pairs every input of a sequence with its
answer. A machine may serve several clients at once, and `answers_filter` is the
rule by which one of them is looked at alone: the inputs of the others must not
touch what its answers depend on. Two machines are compared by
`answers_eq_of_simulation`, where the relation between their states may depend on
the time.
-/

namespace TelegramServer.Lib

variable {σ τ α β : Type*}

/-- The state after a sequence of inputs. -/
def final (step : σ → α → β × σ) (s : σ) (as : List α) : σ := as.foldl (fun s a => (step s a).2) s

/-- The inputs, each with its answer. -/
def answers (step : σ → α → β × σ) : σ → List α → List (α × β)
  | _, [] => []
  | s, a :: as => (a, (step s a).1) :: answers step (step s a).2 as

variable (step : σ → α → β × σ)

theorem final_append (s : σ) (as bs : List α) :
    final step s (as ++ bs) = final step (final step s as) bs :=
  List.foldl_append

@[simp] theorem final_concat (s : σ) (as : List α) (a : α) :
    final step s (as ++ [a]) = (step (final step s as) a).2 := by
  rw [final_append]
  rfl

theorem answers_append (s : σ) (as bs : List α) :
    answers step s (as ++ bs) = answers step s as ++ answers step (final step s as) bs := by
  induction as generalizing s with
  | nil => rfl
  | cons a as ih => rw [List.cons_append, answers, ih, answers, List.cons_append]; rfl

theorem answers_concat (s : σ) (as : List α) (a : α) :
    answers step s (as ++ [a]) = answers step s as ++ [(a, (step (final step s as) a).1)] := by
  rw [answers_append]
  rfl

@[simp] theorem length_answers (s : σ) (as : List α) :
    (answers step s as).length = as.length := by
  induction as generalizing s with
  | nil => rfl
  | cons a as ih => simp [answers, ih]

/-- The answers so far do not depend on what comes. -/
theorem take_answers (s : σ) (as : List α) (n : ℕ) :
    (answers step s as).take n = answers step s (as.take n) := by
  induction as generalizing s n with
  | nil => simp [answers]
  | cons a as ih =>
      cases n with
      | zero => simp [answers]
      | succ n => simp [answers, ih]

/-- **One client alone.** Inputs with `p` are answered by what `R` relates, and the others
do not touch it. -/
theorem answers_filter {step' : τ → α → β × τ} {p : α → Bool} {R : σ → τ → Prop}
    (hown : ∀ s t a, R s t → p a = true →
      (step s a).1 = (step' t a).1 ∧ R (step s a).2 (step' t a).2)
    (hother : ∀ s t a, R s t → p a = false → R (step s a).2 t) {s : σ} {t : τ} (h : R s t)
    (as : List α) :
    (answers step s as).filter (fun o => p o.1) = answers step' t (as.filter p) := by
  induction as generalizing s t with
  | nil => rfl
  | cons a as ih =>
      cases hp : p a with
      | true =>
          obtain ⟨hanswer, hrel⟩ := hown s t a h hp
          rw [List.filter_cons_of_pos hp, answers, answers, List.filter_cons_of_pos (by exact hp),
            ih hrel, hanswer]
      | false =>
          rw [List.filter_cons_of_neg (by simp [hp]), answers,
            List.filter_cons_of_neg (by simp [hp]), ih (hother s t a h hp)]

/-- **Simulation under a clock.** The inputs come in the order of their times, and states that
are related stay so as time passes. -/
theorem answers_eq_of_simulation {T : Type*} [Preorder T] {step' : τ → α → β × τ} {time : α → T}
    {R : T → σ → τ → Prop} (hmono : ∀ u v s t, u ≤ v → R u s t → R v s t)
    (hstep : ∀ s t a, R (time a) s t →
      (step s a).1 = (step' t a).1 ∧ R (time a) (step s a).2 (step' t a).2)
    {s : σ} {t : τ} {as : List α} (h : ∀ a ∈ as, R (time a) s t)
    (hsorted : as.Pairwise fun a b => time a ≤ time b) :
    answers step s as = answers step' t as := by
  induction as generalizing s t with
  | nil => rfl
  | cons a as ih =>
      rw [List.pairwise_cons] at hsorted
      obtain ⟨hanswer, hrel⟩ := hstep s t a (h a (by simp))
      rw [answers, answers, hanswer]
      congr 1
      refine ih ?_ hsorted.2
      intro b hb
      exact hmono _ _ _ _ (hsorted.1 b hb) hrel

end TelegramServer.Lib

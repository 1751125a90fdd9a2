import Mathlib.Data.Option.Basic
import Mathlib.Data.List.Basic
import Mathlib.Data.List.Induction
import Mathlib.Logic.Relation

/-!
Runs of a labelled system given by a partial step function. `step s a` is the
state after the action `a`, or `none` when `a` is not enabled in `s`; a run
is a list of actions each of which is enabled where it is taken. Nothing is
assumed about fairness or termination: every theorem below is about the
state at the end of an arbitrary finite run, which is the same thing as every
state along every run.

A *guarded* run additionally asks of each action a condition on the state it
is taken in. This is the form in which a system with a known defect is
verified: the condition keeps off the defect, and the invariant is proved for
the runs that meet it.
-/

namespace TelegramServer.Lib

variable {σ α : Type*}

/-- The state a list of actions leads to, if all of them are enabled. -/
def run (step : σ → α → Option σ) : σ → List α → Option σ
  | s, [] => some s
  | s, a :: as => (step s a).bind fun s' => run step s' as

/-- Every action of the run meets the condition `C` in the state it is taken
in. Actions past the point where the run gets stuck are not constrained. -/
def Guarded (step : σ → α → Option σ) (C : σ → α → Prop) : σ → List α → Prop
  | _, [] => True
  | s, a :: as => C s a ∧ ∀ s', step s a = some s' → Guarded step C s' as

instance Guarded.decidable (step : σ → α → Option σ) (C : σ → α → Prop)
    [∀ s a, Decidable (C s a)] : ∀ s as, Decidable (Guarded step C s as)
  | _, [] => isTrue trivial
  | s, a :: as =>
      match hstep : step s a with
      | none => decidable_of_iff (C s a) (by simp [Guarded, hstep])
      | some s' =>
          have := Guarded.decidable step C s' as
          decidable_of_iff (C s a ∧ Guarded step C s' as) (by simp [Guarded, hstep])

@[simp] theorem run_nil (step : σ → α → Option σ) (s : σ) : run step s [] = some s := rfl

theorem run_cons_eq_some {step : σ → α → Option σ} {s s'' : σ} {a : α} {as : List α} :
    run step s (a :: as) = some s'' ↔
      ∃ s', step s a = some s' ∧ run step s' as = some s'' := by
  simp [run, Option.bind_eq_some_iff]

theorem run_append_eq_some {step : σ → α → Option σ} {s s'' : σ} {as bs : List α} :
    run step s (as ++ bs) = some s'' ↔
      ∃ s', run step s as = some s' ∧ run step s' bs = some s'' := by
  induction as generalizing s with
  | nil => simp
  | cons a as ih =>
      rw [List.cons_append, run_cons_eq_some]
      constructor
      · rintro ⟨s₁, hs₁, hrest⟩
        obtain ⟨s', has, hbs⟩ := ih.mp hrest
        exact ⟨s', run_cons_eq_some.mpr ⟨s₁, hs₁, has⟩, hbs⟩
      · rintro ⟨s', has, hbs⟩
        obtain ⟨s₁, hs₁, hrest⟩ := run_cons_eq_some.mp has
        exact ⟨s₁, hs₁, ih.mpr ⟨s', hrest, hbs⟩⟩

theorem run_concat {step : σ → α → Option σ} {s s' s'' : σ} {as : List α} {a : α}
    (hrun : run step s as = some s') (hstep : step s' a = some s'') :
    run step s (as ++ [a]) = some s'' :=
  run_append_eq_some.mpr ⟨s', hrun, run_cons_eq_some.mpr ⟨s'', hstep, rfl⟩⟩

/-- What is left of a guarded run is guarded. -/
theorem Guarded.of_append {step : σ → α → Option σ} {C : σ → α → Prop} {s s' : σ}
    {as bs : List α} (h : Guarded step C s (as ++ bs)) (hrun : run step s as = some s') :
    Guarded step C s' bs := by
  induction as generalizing s with
  | nil =>
      simp only [run_nil, Option.some.injEq] at hrun
      exact hrun ▸ h
  | cons a as ih =>
      obtain ⟨s₁, hs₁, hrest⟩ := run_cons_eq_some.mp hrun
      exact ih (h.2 s₁ hs₁) hrest

/-- What a run shows, where `obs s a` is what the action `a` shows in the state `s`. -/
def observe {β : Type*} (step : σ → α → Option σ) (obs : σ → α → List β) : σ → List α → List β
  | _, [] => []
  | s, a :: as => obs s a ++ ((step s a).map fun s' => observe step obs s' as).getD []

theorem observe_concat {β : Type*} {step : σ → α → Option σ} (obs : σ → α → List β) {s s' : σ}
    {as : List α} (hrun : run step s as = some s') (a : α) :
    observe step obs s (as ++ [a]) = observe step obs s as ++ obs s' a := by
  induction as generalizing s with
  | nil =>
      simp only [run_nil, Option.some.injEq] at hrun
      subst hrun
      cases hstep : step s a <;> simp [observe, hstep]
  | cons b as ih =>
      obtain ⟨s₁, hs₁, hrest⟩ := run_cons_eq_some.mp hrun
      simp [observe, hs₁, ih hrest]

/-- **The history rule.** What holds of the empty run and is kept by one more action
holds of the run, where the property may speak of the actions so far. -/
theorem run_history {step : σ → α → Option σ} {I : List α → σ → Prop} {s : σ} (hs : I [] s)
    (hstep : ∀ as s₁ a s₂, run step s as = some s₁ → I as s₁ → step s₁ a = some s₂ →
      I (as ++ [a]) s₂) {as : List α} {s' : σ} (hrun : run step s as = some s') : I as s' := by
  induction as using List.reverseRecOn generalizing s' with
  | nil =>
      simp only [run_nil, Option.some.injEq] at hrun
      exact hrun ▸ hs
  | append_singleton as a ih =>
      obtain ⟨s₁, has, hlast⟩ := run_append_eq_some.mp hrun
      obtain ⟨s₂, ha, hnil⟩ := run_cons_eq_some.mp hlast
      simp only [run_nil, Option.some.injEq] at hnil
      subst hnil
      exact hstep as s₁ a s₂ has (ih has) ha

/-- **The invariant rule for guarded runs.** What one guarded step preserves,
a guarded run preserves. -/
theorem run_invariant_of_guarded {step : σ → α → Option σ} {C : σ → α → Prop} {I : σ → Prop}
    (hstep : ∀ s a s', I s → C s a → step s a = some s' → I s')
    {s s' : σ} {as : List α} (hs : I s) (hg : Guarded step C s as)
    (hrun : run step s as = some s') : I s' := by
  induction as generalizing s with
  | nil =>
      simp only [run_nil, Option.some.injEq] at hrun
      exact hrun ▸ hs
  | cons a as ih =>
      obtain ⟨s₁, hs₁, hrest⟩ := run_cons_eq_some.mp hrun
      exact ih (hstep s a s₁ hs hg.1 hs₁) (hg.2 s₁ hs₁) hrest

/-- A condition that does not depend on the state. -/
theorem guarded_of_forall {step : σ → α → Option σ} {C : σ → α → Prop} {as : List α}
    (h : ∀ a ∈ as, ∀ s, C s a) (s : σ) : Guarded step C s as := by
  induction as generalizing s with
  | nil => trivial
  | cons a as ih =>
      exact ⟨h a (List.mem_cons_self ..) s, fun s' _ =>
        ih (fun b hb => h b (List.mem_cons_of_mem _ hb)) s'⟩

theorem Guarded.and {step : σ → α → Option σ} {C D : σ → α → Prop} {s : σ} {as : List α}
    (hC : Guarded step C s as) (hD : Guarded step D s as) :
    Guarded step (fun s a => C s a ∧ D s a) s as := by
  induction as generalizing s with
  | nil => trivial
  | cons a as ih => exact ⟨⟨hC.1, hD.1⟩, fun s' hs' => ih (hC.2 s' hs') (hD.2 s' hs')⟩

/-- **The invariant rule.** What one step preserves, a run preserves. -/
theorem run_invariant {step : σ → α → Option σ} {I : σ → Prop}
    (hstep : ∀ s a s', I s → step s a = some s' → I s')
    {s s' : σ} {as : List α} (hs : I s) (hrun : run step s as = some s') : I s' :=
  run_invariant_of_guarded (C := fun _ _ => True) (fun s a s' hI _ h => hstep s a s' hI h)
    hs (guarded_of_forall (fun _ _ _ => trivial) s) hrun

/-- **The simulation rule.** If each step is followed by steps of another system, a run is. -/
theorem run_simulates {τ : Type*} {step : σ → α → Option σ} {next : τ → τ → Prop}
    {R : σ → τ → Prop}
    (hstep : ∀ s a s' t, R s t → step s a = some s' →
      ∃ t', Relation.ReflTransGen next t t' ∧ R s' t')
    {s s' : σ} {t : τ} {as : List α} (hR : R s t) (hrun : run step s as = some s') :
    ∃ t', Relation.ReflTransGen next t t' ∧ R s' t' := by
  induction as generalizing s t with
  | nil =>
      simp only [run_nil, Option.some.injEq] at hrun
      exact ⟨t, .refl, hrun ▸ hR⟩
  | cons a as ih =>
      obtain ⟨s₁, hs₁, hrest⟩ := run_cons_eq_some.mp hrun
      obtain ⟨t₁, ht₁, hR₁⟩ := hstep s a s₁ t hR hs₁
      obtain ⟨t', ht', hR'⟩ := ih hR₁ hrest
      exact ⟨t', ht₁.trans ht', hR'⟩

end TelegramServer.Lib

import Mathlib.Init

/-!
Pre- and postconditions for programs in a state monad. `Triple P x Q` says that
`x`, started in a state that meets `P`, returns a value and a state that meet
`Q`; programs of `StateM` always return, so there is nothing else to say. There
is one rule for each construct a program is written with, and `Keeps` is the
special case of an invariant.
-/

namespace TelegramServer.Lib

variable {σ α β : Type}

theorem run_pure (a : α) (s : σ) : (pure a : StateM σ α).run s = (a, s) := rfl

theorem run_bind (x : StateM σ α) (k : α → StateM σ β) (s : σ) :
    (x >>= k).run s = (k (x.run s).1).run (x.run s).2 := rfl

def Triple (P : σ → Prop) (x : StateM σ α) (Q : α → σ → Prop) : Prop :=
  ∀ s, P s → Q (x.run s).1 (x.run s).2

/-- The program keeps the invariant `I`. -/
def Keeps (I : σ → Prop) (x : StateM σ α) : Prop := Triple I x fun _ => I

theorem Triple.pure {P : σ → Prop} {a : α} {Q : α → σ → Prop} (h : ∀ s, P s → Q a s) :
    Triple P (Pure.pure a) Q := h

theorem Triple.bind {P : σ → Prop} {x : StateM σ α} {k : α → StateM σ β} {R : α → σ → Prop}
    {Q : β → σ → Prop} (hx : Triple P x R) (hk : ∀ a, Triple (R a) (k a) Q) :
    Triple P (x >>= k) Q :=
  fun s hs => hk _ _ (hx s hs)

/-- What the rest of a program guarantees in whatever state it is started. -/
theorem Triple.after {P : σ → Prop} {x : StateM σ α} {k : α → StateM σ β} {Q : β → σ → Prop}
    (hk : ∀ a, Triple (fun _ => True) (k a) Q) : Triple P (x >>= k) Q :=
  fun _ _ => hk _ _ trivial

theorem Triple.weaken {P P' : σ → Prop} {x : StateM σ α} {Q Q' : α → σ → Prop}
    (h : Triple P x Q) (hP : ∀ s, P' s → P s) (hQ : ∀ a s, Q a s → Q' a s) : Triple P' x Q' :=
  fun s hs => hQ _ _ (h s (hP s hs))

theorem Triple.and {P : σ → Prop} {x : StateM σ α} {Q Q' : α → σ → Prop}
    (h : Triple P x Q) (h' : Triple P x Q') : Triple P x fun a s => Q a s ∧ Q' a s :=
  fun s hs => ⟨h s hs, h' s hs⟩

theorem Keeps.pure {I : σ → Prop} {a : α} : Keeps I (Pure.pure a) := fun _ hs => hs

theorem Keeps.bind {I : σ → Prop} {x : StateM σ α} {k : α → StateM σ β} (hx : Keeps I x)
    (hk : ∀ a, Keeps I (k a)) : Keeps I (x >>= k) := Triple.bind hx hk

theorem Keeps.ite {I : σ → Prop} {c : Prop} [Decidable c] {x y : StateM σ α} (hx : Keeps I x)
    (hy : Keeps I y) : Keeps I (if c then x else y) := by
  split
  · exact hx
  · exact hy

end TelegramServer.Lib

import Mathlib.Data.List.Perm.Basic
import Mathlib.Data.List.Perm.Lattice

/-!
Interleavings. Several workers take turns, and each turn adds one entry to the record of the
worker and to the common record. `Interleaved trace parts` says that `trace` can come about in
this way, with `parts` as the records of the workers.
-/

namespace TelegramServer.Lib

variable {α β : Type*}

inductive Interleaved : List α → List (List α) → Prop
  | nil : Interleaved [] []
  /-- A worker begins. -/
  | start {trace : List α} {parts : List (List α)} (h : Interleaved trace parts) :
      Interleaved trace (parts ++ [[]])
  /-- The worker `k` takes a turn. -/
  | turn {trace part : List α} {parts : List (List α)} (h : Interleaved trace parts) {k : ℕ}
      (hk : parts[k]? = some part) (x : α) : Interleaved (trace ++ [x]) (parts.set k (part ++ [x]))

namespace Interleaved

variable {trace part : List α} {parts : List (List α)}

/-- A turn without an entry. -/
theorem set_self (h : Interleaved trace parts) {k : ℕ} (hk : parts[k]? = some part) :
    Interleaved trace (parts.set k part) := by
  obtain ⟨hlt, rfl⟩ := List.getElem?_eq_some_iff.mp hk
  rwa [List.set_getElem_self]

/-- Each worker's record is in order. -/
theorem sublist (h : Interleaved trace parts) (hpart : part ∈ parts) : part.Sublist trace := by
  induction h generalizing part with
  | nil => cases hpart
  | start h ih =>
      rcases List.mem_append.mp hpart with hpart | hpart
      · exact ih hpart
      · rw [List.mem_singleton.mp hpart]
        exact List.nil_sublist _
  | turn h hk x ih =>
      rcases List.mem_or_eq_of_mem_set hpart with hpart | rfl
      · exact (ih hpart).trans (List.sublist_append_left _ _)
      · exact (ih (List.mem_of_getElem? hk)).append (List.Sublist.refl _)

theorem subset (h : Interleaved trace parts) (hpart : part ∈ parts) : part ⊆ trace :=
  (h.sublist hpart).subset

end Interleaved

end TelegramServer.Lib

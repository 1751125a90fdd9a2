import Mathlib.Data.List.Induction
import Mathlib.Data.List.ProdSigma
import Mathlib.Data.Set.Image
import Mathlib.Tactic.Tauto

/-!
Hash chains over an arbitrary hash function. A link carries the hash of the
link before it, a body, and its own hash; the chain is *linked* from an
anchor when every `prev` is the hash before it and every `hash` is recomputed
from `prev` and `body`.

The two results are the ones a log built this way is used for. Appending a
link that names the tip keeps the chain linked. And the tip commits to the
whole chain: two linked chains with the same tip are equal, of whatever
lengths, or two different inputs with one hash can be read off from them. No
collision resistance is assumed anywhere; the collision is part of the
conclusion.
-/

namespace TelegramServer.Lib

variable {H B M : Type*}

structure Link (H B : Type*) where
  prev : H
  body : B
  hash : H
  deriving DecidableEq

/-- Every link names the hash before it (`anchor` for the first one) and
carries the hash of its own contents. -/
def Linked (next : H → B → H) : H → List (Link H B) → Prop
  | _, [] => True
  | anchor, e :: es =>
      e.prev = anchor ∧ e.hash = next anchor e.body ∧ Linked next e.hash es

/-- The hash the next link has to name. -/
def tip (anchor : H) (es : List (Link H B)) : H :=
  es.getLast?.elim anchor Link.hash

@[simp] theorem tip_nil (anchor : H) : tip anchor ([] : List (Link H B)) = anchor := rfl

@[simp] theorem tip_append_singleton (anchor : H) (es : List (Link H B)) (e : Link H B) :
    tip anchor (es ++ [e]) = e.hash := by
  simp [tip]

theorem tip_cons (anchor : H) (e : Link H B) (es : List (Link H B)) :
    tip anchor (e :: es) = tip e.hash es := by
  cases es with
  | nil => rfl
  | cons f fs => simp [tip, List.getLast?_cons]

theorem linked_append {next : H → B → H} {anchor : H} {es fs : List (Link H B)} :
    Linked next anchor (es ++ fs) ↔
      Linked next anchor es ∧ Linked next (tip anchor es) fs := by
  induction es generalizing anchor with
  | nil => simp [Linked]
  | cons e es ih => simp [Linked, ih, tip_cons, and_assoc]

/-- Appending one link: it has to name the tip and to carry its own hash. -/
theorem linked_append_singleton {next : H → B → H} {anchor : H} {es : List (Link H B)}
    {e : Link H B} :
    Linked next anchor (es ++ [e]) ↔
      Linked next anchor es ∧ e.prev = tip anchor es ∧
        e.hash = next (tip anchor es) e.body := by
  simp [linked_append, Linked]

/-! ### The tip commits to the chain

From here on the hash of a link is `hash (enc prev body)` and the anchor is
the hash of a seed, so the inputs of `hash` that went into a chain are the
seed and one `enc prev body` per link. -/

/-- The inputs of the hash function behind a chain. -/
def hashInputs (enc : H → B → M) (seed : M) (es : List (Link H B)) : List M :=
  seed :: es.map fun e => enc e.prev e.body

/-- Search a list of inputs for two different ones with the same hash. -/
def findCollision [DecidableEq M] [DecidableEq H] (hash : M → H) (inputs : List M) :
    Option (M × M) :=
  (inputs ×ˢ inputs).find? fun p => decide (p.1 ≠ p.2 ∧ hash p.1 = hash p.2)

theorem findCollision_sound [DecidableEq M] [DecidableEq H] {hash : M → H} {inputs : List M}
    {x y : M} (h : findCollision hash inputs = some (x, y)) :
    x ∈ inputs ∧ y ∈ inputs ∧ x ≠ y ∧ hash x = hash y := by
  have hprop := List.find?_some h
  have hmem := List.mem_of_find?_eq_some h
  simp only [ne_eq, decide_eq_true_eq] at hprop
  exact ⟨(List.mem_product.mp hmem).1, (List.mem_product.mp hmem).2, hprop.1, hprop.2⟩

theorem exists_findCollision [DecidableEq M] [DecidableEq H] {hash : M → H} {inputs : List M}
    {x y : M} (hx : x ∈ inputs) (hy : y ∈ inputs) (hne : x ≠ y) (heq : hash x = hash y) :
    ∃ p, findCollision hash inputs = some p := by
  refine Option.isSome_iff_exists.mp (List.find?_isSome.mpr ⟨(x, y), ?_, ?_⟩)
  · exact List.mem_product.mpr ⟨hx, hy⟩
  · simp [hne, heq]

section Commitment

variable (enc : H → B → M) (hash : M → H) (seed : M) (ok : B → Prop)

/-- In a chain anchored at a hash every `prev` is a hash. -/
theorem prev_mem_range {anchor : H} {es : List (Link H B)} (hanchor : anchor ∈ Set.range hash)
    (h : Linked (fun p b => hash (enc p b)) anchor es) :
    ∀ e ∈ es, e.prev ∈ Set.range hash := by
  induction es generalizing anchor with
  | nil => simp
  | cons f fs ih =>
      obtain ⟨hprev, hhash, hrest⟩ := h
      intro e he
      rcases List.mem_cons.mp he with rfl | he
      · exact hprev ▸ hanchor
      · exact ih ⟨_, hhash.symm⟩ hrest e he

/-- **The tip commits to the chain.** Two linked chains with the same tip are
equal, or the inputs behind them contain a collision. The encoding has to be
unambiguous only where the previous hash really is a hash (`henc`), and has to
keep clear of the seed (`hseed`): that is what ends the argument when one
chain is exhausted before the other. -/
theorem eq_or_collision_of_tip_eq
    (henc : ∀ h ∈ Set.range hash, ∀ h' ∈ Set.range hash, ∀ b b',
      enc h b = enc h' b' → h = h' ∧ b = b')
    (hseed : ∀ h ∈ Set.range hash, ∀ b, ok b → enc h b ≠ seed)
    {as bs : List (Link H B)}
    (ha : Linked (fun p b => hash (enc p b)) (hash seed) as)
    (hb : Linked (fun p b => hash (enc p b)) (hash seed) bs)
    (hoka : ∀ e ∈ as, ok e.body) (hokb : ∀ e ∈ bs, ok e.body)
    (htip : tip (hash seed) as = tip (hash seed) bs) :
    as = bs ∨ ∃ x ∈ hashInputs enc seed as ++ hashInputs enc seed bs,
      ∃ y ∈ hashInputs enc seed as ++ hashInputs enc seed bs, x ≠ y ∧ hash x = hash y := by
  have hsplit : ∀ l : List (Link H B), l = [] ∨ ∃ l' e, l = l' ++ [e] := fun l => by
    simpa using List.eq_nil_or_concat l
  -- backwards over both chains at once: peel the last links off together
  induction as using List.reverseRecOn generalizing bs with
  | nil =>
      rcases hsplit bs with rfl | ⟨bs', b, rfl⟩
      · exact .inl rfl
      · -- `bs` goes on below the anchor: its last input collides with the seed
        obtain ⟨-, hprev, hhash⟩ := linked_append_singleton.mp hb
        have hrange : b.prev ∈ Set.range hash :=
          prev_mem_range enc hash ⟨seed, rfl⟩ hb b (by simp)
        refine .inr ⟨enc b.prev b.body, by simp [hashInputs], seed, by simp [hashInputs],
          hseed _ hrange _ (hokb b (by simp)), ?_⟩
        rw [hprev, ← hhash]
        simpa using htip.symm
  | append_singleton as' a ih =>
      obtain ⟨ha', hpreva, hhasha⟩ := linked_append_singleton.mp ha
      have hrangea : a.prev ∈ Set.range hash := prev_mem_range enc hash ⟨seed, rfl⟩ ha a (by simp)
      rcases hsplit bs with rfl | ⟨bs', b, rfl⟩
      · refine .inr ⟨enc a.prev a.body, by simp [hashInputs], seed, by simp [hashInputs],
          hseed _ hrangea _ (hoka a (by simp)), ?_⟩
        rw [hpreva, ← hhasha]
        simpa using htip
      · obtain ⟨hb', hprevb, hhashb⟩ := linked_append_singleton.mp hb
        have hrangeb : b.prev ∈ Set.range hash := prev_mem_range enc hash ⟨seed, rfl⟩ hb b (by simp)
        simp only [tip_append_singleton] at htip
        have heq : hash (enc a.prev a.body) = hash (enc b.prev b.body) := by
          rw [hpreva, hprevb, ← hhasha, ← hhashb, htip]
        by_cases hinput : enc a.prev a.body = enc b.prev b.body
        · obtain ⟨hprev, hbody⟩ := henc _ hrangea _ hrangeb _ _ hinput
          have hab : a = b := by
            cases a
            cases b
            simp_all
          have htip' : tip (hash seed) as' = tip (hash seed) bs' := by
            rw [← hpreva, ← hprevb, hprev]
          rcases ih ha' hb' (fun e he => hoka e (by simp [he]))
            (fun e he => hokb e (by simp [he])) htip' with heq' | ⟨x, hx, y, hy, hcol⟩
          · exact .inl (by rw [heq', hab])
          · refine .inr ⟨x, ?_, y, ?_, hcol⟩
            · simp only [hashInputs, List.map_append, List.mem_append, List.mem_cons] at hx ⊢
              tauto
            · simp only [hashInputs, List.map_append, List.mem_append, List.mem_cons] at hy ⊢
              tauto
        · exact .inr ⟨_, by simp [hashInputs], _, by simp [hashInputs], hinput, heq⟩

end Commitment

end TelegramServer.Lib

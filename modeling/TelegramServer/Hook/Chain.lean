import TelegramServer.Lib.StateTriple
import TelegramServer.Lib.Table
import Mathlib.Data.List.Infix
import Mathlib.Logic.Function.Basic

/-!
The hook chain of `internal/hook/chain.go`. A hook reads the request, acts on
the world outside the chain and answers with a result and an error; the chain
decides from the answers which hook comes next and merges the updates into the
payload. Hooks and core are arbitrary, over an arbitrary outside world `σ`. They
change the request through the `Updated` of their result only.

The world carries a log of the calls, with what each callee saw and answered.
The chain's behaviour is stated about that log: which hooks are in it, in which
order, and where it stops. `Calls` ties the log to the callees: its answers are
those of the hooks and of the core, called one after the other on the request
with the payload they saw, and the outside world is what those calls leave.
-/

namespace TelegramServer.Hooks

open Lib

variable {σ V ε : Type}

/-! ### Payloads -/

/-- A `map[string]any`; `none` is the nil map. -/
abbrev Payload (V : Type) := Option (String → Option V)

/-- Reading a key; the nil map has none. -/
def Payload.get (p : Payload V) (k : String) : Option V := p.bind fun m => m k

/-- The entries of a result's `Updated`, in the order they are ranged over. -/
abbrev Updates (V : Type) := Table (Prod.fst : String × V → String)

def Updates.get (u : Updates V) (k : String) : Option V := (u.find? k).map Prod.snd

/-- `m[k] = v`. -/
def assign (m : String → Option V) (e : String × V) : String → Option V :=
  Function.update m e.1 (some e.2)

def mergePayload (p : Payload V) (updated : Updates V) : Payload V :=
  if updated.rows.isEmpty then p
  else some (updated.rows.foldl assign (p.getD fun _ => none))

theorem foldl_assign_apply {rows : List (String × V)} (hrows : (rows.map Prod.fst).Nodup)
    (m : String → Option V) (k : String) :
    rows.foldl assign m k =
      ((rows.find? fun e => e.1 = k).map Prod.snd).or (m k) := by
  induction rows generalizing m with
  | nil => simp
  | cons e rows ih =>
      rw [List.map_cons, List.nodup_cons] at hrows
      rw [List.foldl_cons, ih hrows.2]
      by_cases hk : e.1 = k
      · -- the key does not come up again
        have hlater : rows.find? (fun e => e.1 = k) = none := by
          rw [List.find?_eq_none]
          intro e' he' hk'
          rw [decide_eq_true_eq] at hk'
          exact hrows.1 (List.mem_map.mpr ⟨e', he', hk'.trans hk.symm⟩)
        simp [assign, hlater, hk]
      · simp [assign, hk, Function.update_of_ne (Ne.symm hk)]

/-- A merge overrides the payload key by key. -/
theorem get_mergePayload (p : Payload V) (updated : Updates V) (k : String) :
    (mergePayload p updated).get k = (updated.get k).or (p.get k) := by
  unfold mergePayload
  split
  · rename_i hempty
    have hrows : updated.rows = [] := List.isEmpty_iff.mp hempty
    simp [Updates.get, Table.find?, hrows]
  · cases p with
    | none => exact foldl_assign_apply updated.nodup _ k
    | some m => exact foldl_assign_apply updated.nodup m k

/-! ### Hooks -/

/-- `hook.Request`. -/
structure Request (V : Type) where
  traceID : String := ""
  messageID : String := ""
  endpoint : String := ""
  appID : String := ""
  capability : String := ""
  routeStrategy : String := ""
  payload : Payload V := none

/-- `hook.Result`. -/
structure Result (V : Type) where
  continues : Bool
  stage : String := ""
  reason : String := ""
  updated : Updates V := .empty

def stagePre : String := "pre"
def stagePost : String := "post"

structure Hook (σ V ε : Type) where
  name : String
  stage : String
  run : Request V → σ → (Result V × Option ε) × σ

/-- `hook.Core`. -/
abbrev Core (σ V ε : Type) := Request V → σ → Option ε × σ

structure Chain (σ V ε : Type) where
  pre : List (Hook σ V ε) := []
  post : List (Hook σ V ε) := []

def newChain (hooks : List (Hook σ V ε)) : Chain σ V ε :=
  hooks.foldl (fun c h =>
    if h.stage = stagePre then { c with pre := c.pre ++ [h] }
    else if h.stage = stagePost then { c with post := c.post ++ [h] }
    else { c with pre := c.pre ++ [h] }) {}

def nonPost (hooks : List (Hook σ V ε)) : List (Hook σ V ε) :=
  hooks.filter fun h => h.stage ≠ stagePost

def postOnly (hooks : List (Hook σ V ε)) : List (Hook σ V ε) :=
  hooks.filter fun h => h.stage = stagePost

/-- Every stage but the last counts as the first. -/
theorem newChain_eq (hooks : List (Hook σ V ε)) :
    newChain hooks = { pre := nonPost hooks, post := postOnly hooks } := by
  suffices hfold : ∀ c : Chain σ V ε,
      hooks.foldl (fun c h =>
        if h.stage = stagePre then { c with pre := c.pre ++ [h] }
        else if h.stage = stagePost then { c with post := c.post ++ [h] }
        else { c with pre := c.pre ++ [h] }) c =
      { pre := c.pre ++ nonPost hooks, post := c.post ++ postOnly hooks } from hfold {}
  induction hooks with
  | nil => simp [nonPost, postOnly]
  | cons h hooks ih =>
      intro c
      rw [List.foldl_cons, ih]
      have hdistinct : stagePre ≠ stagePost := by decide
      by_cases hpre : h.stage = stagePre
      · simp [nonPost, postOnly, hpre, hdistinct]
      · by_cases hpost : h.stage = stagePost
        · simp [nonPost, postOnly, hpost, hdistinct.symm]
        · simp [nonPost, postOnly, hpre, hpost]

/-! ### Execute -/

inductive ExecuteErr (ε : Type)
  /-- `hook <name> (pre): <err>` -/
  | pre (name : String) (err : ε)
  /-- `hook: short-circuit: <name> @ <stage>: <reason>` -/
  | shortCircuit (name stage reason : String)
  /-- `core: <err>` -/
  | core (err : ε)
  /-- `hook <name> (post): <err>` -/
  | post (name : String) (err : ε)
  deriving DecidableEq

structure HookVisit (σ V ε : Type) where
  hook : Hook σ V ε
  saw : Payload V
  result : Result V
  err : Option ε

structure CoreVisit (V ε : Type) where
  saw : Payload V
  err : Option ε

inductive Visit (σ V ε : Type)
  | hook (v : HookVisit σ V ε)
  | core (v : CoreVisit V ε)

/-- The request is behind a pointer, so it is part of the state. -/
structure World (σ V ε : Type) where
  outside : σ
  req : Request V
  visits : List (Visit σ V ε) := []

def Hook.visit (h : Hook σ V ε) : StateM (World σ V ε) (Result V × Option ε) :=
  modifyGet fun w =>
    let (answer, outside) := h.run w.req w.outside
    (answer, { w with
      outside := outside
      visits := w.visits ++ [.hook ⟨h, w.req.payload, answer.1, answer.2⟩] })

def Core.visit (core : Core σ V ε) : StateM (World σ V ε) (Option ε) :=
  modifyGet fun w =>
    let (err, outside) := core w.req w.outside
    (err, { w with outside := outside, visits := w.visits ++ [.core ⟨w.req.payload, err⟩] })

/-- The core is optional; no core is a core that succeeds. -/
def visitCore : Option (Core σ V ε) → StateM (World σ V ε) (Option ε)
  | some core => core.visit
  | none => pure none

theorem Hook.run_visit (h : Hook σ V ε) (w : World σ V ε) :
    (h.visit).run w = ((h.run w.req w.outside).1, { w with
      outside := (h.run w.req w.outside).2
      visits := w.visits ++ [.hook ⟨h, w.req.payload, (h.run w.req w.outside).1.1,
        (h.run w.req w.outside).1.2⟩] }) := rfl

theorem Core.run_visit (core : Core σ V ε) (w : World σ V ε) :
    (core.visit).run w = ((core w.req w.outside).1, { w with
      outside := (core w.req w.outside).2
      visits := w.visits ++ [.core ⟨w.req.payload, (core w.req w.outside).1⟩] }) := rfl

def merge (updated : Updates V) : StateM (World σ V ε) Unit :=
  modify fun w => { w with req := { w.req with payload := mergePayload w.req.payload updated } }

/-- The two loops of `Execute`. They differ in what makes them return. -/
def runHooks (verdict : Hook σ V ε → Result V → Option ε → Option (ExecuteErr ε)) :
    List (Hook σ V ε) → StateM (World σ V ε) (Option (ExecuteErr ε))
  | [] => return none
  | h :: hs => do
      let (res, err) ← h.visit
      match verdict h res err with
      | some e => return some e
      | none =>
          merge res.updated
          runHooks verdict hs

def preVerdict (h : Hook σ V ε) (res : Result V) : Option ε → Option (ExecuteErr ε)
  | some e => some (.pre h.name e)
  | none => if res.continues then none else some (.shortCircuit h.name res.stage res.reason)

/-- A post hook's `Continue` is not looked at. -/
def postVerdict (h : Hook σ V ε) (_ : Result V) : Option ε → Option (ExecuteErr ε)
  | some e => some (.post h.name e)
  | none => none

def Chain.execute (c : Chain σ V ε) (core : Option (Core σ V ε)) :
    StateM (World σ V ε) (Option (ExecuteErr ε)) := do
  match ← runHooks preVerdict c.pre with
  | some e => return some e
  | none =>
      match ← visitCore core with
      | some e => return some (.core e)
      | none => runHooks postVerdict c.post

theorem run_execute (c : Chain σ V ε) (core : Option (Core σ V ε)) (w : World σ V ε) :
    (c.execute core).run w =
      match (runHooks preVerdict c.pre).run w with
      | (some e, w₁) => (some e, w₁)
      | (none, w₁) =>
          match (visitCore core).run w₁ with
          | (some e, w₂) => (some (.core e), w₂)
          | (none, w₂) => (runHooks postVerdict c.post).run w₂ := by
  unfold Chain.execute
  rw [run_bind]
  rcases (runHooks preVerdict c.pre).run w with ⟨_ | e, w₁⟩
  · dsimp only
    rw [run_bind]
    rcases (visitCore core).run w₁ with ⟨_ | e, w₂⟩ <;> rfl
  · rfl

/-! ### What the log of a run says -/

/-- The hook ends the first loop: it fails or does not continue. -/
def HookVisit.Halts (v : HookVisit σ V ε) : Prop := v.err ≠ none ∨ v.result.continues = false

/-- The hook fails. -/
def HookVisit.Fails (v : HookVisit σ V ε) : Prop := v.err ≠ none

/-- The visits of a loop over `hooks` that ends at the first visit of the kind
`stops`. -/
structure RunsUpTo (stops : HookVisit σ V ε → Prop) (hooks : List (Hook σ V ε))
    (vs : List (HookVisit σ V ε)) : Prop where
  order : vs.map (·.hook) <+: hooks
  before : ∀ v ∈ vs.dropLast, ¬ stops v
  cut : vs.map (·.hook) ≠ hooks → ∃ v, vs.getLast? = some v ∧ stops v

/-- All hooks were visited, and none of them ended the loop. -/
def Completes (stops : HookVisit σ V ε → Prop) (hooks : List (Hook σ V ε))
    (vs : List (HookVisit σ V ε)) : Prop :=
  vs.map (·.hook) = hooks ∧ ∀ v ∈ vs, ¬ stops v

def Visit.saw : Visit σ V ε → Payload V
  | .hook v => v.saw
  | .core v => v.saw

/-- What a visit sets a key to: a hook that succeeds, if the key is among its
updates. -/
def Visit.update (k : String) : Visit σ V ε → Option V
  | .hook v => if v.err.isNone then v.result.updated.get k else none
  | .core _ => none

/-- The latest value a list of visits sets a key to. -/
def latest (k : String) (vs : List (Visit σ V ε)) : Option V :=
  vs.reverse.findSome? fun v => v.update k

/-- Every callee sees the payload `p` overridden by the visits before it. -/
def Sees (p : Payload V) (vs : List (Visit σ V ε)) : Prop :=
  ∀ l v r, vs = l ++ v :: r → ∀ k, v.saw.get k = (latest k l).or (p.get k)

theorem latest_append (k : String) (vs vs' : List (Visit σ V ε)) :
    latest k (vs ++ vs') = (latest k vs').or (latest k vs) := by
  simp [latest, List.findSome?_append]

theorem latest_singleton (k : String) (v : Visit σ V ε) : latest k [v] = v.update k := by
  simp [latest]

theorem sees_nil (p : Payload V) : Sees (σ := σ) (ε := ε) p [] := by
  intro l v r hsplit
  simp at hsplit

theorem sees_singleton (v : Visit σ V ε) : Sees v.saw [v] := by
  intro l u r hsplit k
  obtain ⟨rfl, hrest⟩ : l = [] ∧ [v] = u :: r := by
    cases l with
    | nil => exact ⟨rfl, hsplit⟩
    | cons _ _ => simp at hsplit
  cases hrest
  rfl

/-- Visits after other visits, seen from the payload those leave. -/
theorem Sees.append {p p' : Payload V} {vs vs' : List (Visit σ V ε)} (h : Sees p vs)
    (hp : ∀ k, p'.get k = (latest k vs).or (p.get k)) (h' : Sees p' vs') :
    Sees p (vs ++ vs') := by
  intro l v r hsplit k
  rcases List.append_eq_append_iff.mp hsplit with ⟨m, hl, hvs'⟩ | ⟨m, hvs, hrest⟩
  · rw [h' m v r hvs' k, hl, latest_append, hp, Option.or_assoc]
  · cases m with
    | nil =>
        have hl : vs = l := by simpa using hvs
        rw [h' [] v r hrest.symm k, hp, hl]
        rfl
    | cons u m =>
        obtain ⟨rfl, -⟩ := List.cons_eq_cons.mp hrest
        exact h l v m hvs k

/-- The calls behind a log. Each visit has the answer its hook, or the core, gives
on the request with the payload it saw, in the outside world the calls before it
left. -/
inductive Calls (core : Option (Core σ V ε)) (req : Request V) :
    σ → List (Visit σ V ε) → σ → Prop
  | nil (s : σ) : Calls core req s [] s
  | hook {v : HookVisit σ V ε} {vs : List (Visit σ V ε)} {s s₁ s' : σ}
      (answer : v.hook.run { req with payload := v.saw } s = ((v.result, v.err), s₁))
      (rest : Calls core req s₁ vs s') : Calls core req s (.hook v :: vs) s'
  | core {f : Core σ V ε} {v : CoreVisit V ε} {vs : List (Visit σ V ε)} {s s₁ s' : σ}
      (wired : core = some f) (answer : f { req with payload := v.saw } s = (v.err, s₁))
      (rest : Calls core req s₁ vs s') : Calls core req s (.core v :: vs) s'

theorem Calls.append {core : Option (Core σ V ε)} {req : Request V} {s s₁ s' : σ}
    {vs vs' : List (Visit σ V ε)} (h : Calls core req s vs s₁) (h' : Calls core req s₁ vs' s') :
    Calls core req s (vs ++ vs') s' := by
  induction h with
  | nil s => exact h'
  | hook answer _ ih => exact .hook answer (ih h')
  | core wired answer _ ih => exact .core wired answer (ih h')

/-- The callees' own payload replaces that of the request. -/
theorem Calls.withPayload {core : Option (Core σ V ε)} {req : Request V} {p : Payload V}
    {s s' : σ} {vs : List (Visit σ V ε)} (h : Calls core { req with payload := p } s vs s') :
    Calls core req s vs s' := by
  induction h with
  | nil s => exact .nil s
  | hook answer _ ih => exact .hook answer ih
  | core wired answer _ ih => exact .core wired answer ih

section Loop

variable {stops : HookVisit σ V ε → Prop} {hooks : List (Hook σ V ε)}
  {v : HookVisit σ V ε} {vs : List (HookVisit σ V ε)}

theorem runsUpTo_nil : RunsUpTo stops [] [] := ⟨List.prefix_rfl, by simp, by simp⟩

theorem runsUpTo_singleton (hv : stops v) : RunsUpTo stops (v.hook :: hooks) [v] :=
  ⟨by simp, by simp, fun _ => ⟨v, rfl, hv⟩⟩

theorem RunsUpTo.cons (h : RunsUpTo stops hooks vs) (hv : ¬ stops v) :
    RunsUpTo stops (v.hook :: hooks) (v :: vs) where
  order := by simpa using h.order
  before u hu := by
    cases vs with
    | nil => simp at hu
    | cons v' vs =>
        rw [List.dropLast_cons_cons, List.mem_cons] at hu
        rcases hu with rfl | hu
        · exact hv
        · exact h.before u hu
  cut hne := by
    obtain ⟨u, hlast, hu⟩ := h.cut fun heq => hne (by rw [List.map_cons, heq])
    refine ⟨u, ?_, hu⟩
    rw [List.getLast?_cons, hlast]
    rfl

end Loop

/-- What one of the two loops does to the world. -/
structure LoopSpec (core : Option (Core σ V ε))
    (verdict : Hook σ V ε → Result V → Option ε → Option (ExecuteErr ε))
    (hooks : List (Hook σ V ε)) (w w' : World σ V ε) (err : Option (ExecuteErr ε))
    (vs : List (HookVisit σ V ε)) : Prop where
  visits : w'.visits = w.visits ++ vs.map .hook
  calls : Calls core w.req w.outside (vs.map .hook) w'.outside
  request : w'.req = { w.req with payload := w'.req.payload }
  runs : RunsUpTo (fun v => verdict v.hook v.result v.err ≠ none) hooks vs
  none_iff : err = none ↔ Completes (fun v => verdict v.hook v.result v.err ≠ none) hooks vs
  sees : Sees w.req.payload (vs.map .hook)
  payload : err = none →
    ∀ k, w'.req.payload.get k = (latest k (vs.map .hook)).or (w.req.payload.get k)

theorem loopSpec_runHooks (core : Option (Core σ V ε))
    {verdict : Hook σ V ε → Result V → Option ε → Option (ExecuteErr ε)}
    (hverdict : ∀ h res err, verdict h res err = none → err = none)
    (hooks : List (Hook σ V ε)) (w : World σ V ε) :
    ∃ vs, LoopSpec core verdict hooks w ((runHooks verdict hooks).run w).2
      ((runHooks verdict hooks).run w).1 vs := by
  -- the induction follows the loop: its first visit, then the loop over the rest
  induction hooks generalizing w with
  | nil =>
      refine ⟨[], (List.append_nil _).symm, .nil _, rfl, runsUpTo_nil, ?_, sees_nil _,
        fun _ k => rfl⟩
      exact iff_of_true rfl ⟨rfl, fun v hv => absurd hv List.not_mem_nil⟩
  | cons h hooks ih =>
      obtain ⟨⟨⟨res, err⟩, outside⟩, hrun⟩ : ∃ r, r = h.run w.req w.outside := ⟨_, rfl⟩
      let v : HookVisit σ V ε := ⟨h, w.req.payload, res, err⟩
      have hvisit : (h.visit).run w =
          ((res, err), { w with outside := outside, visits := w.visits ++ [.hook v] }) := by
        rw [Hook.run_visit, ← hrun]
      cases hv : verdict h res err with
      | some e =>
          have hloop : (runHooks verdict (h :: hooks)).run w =
              (some e, { w with outside := outside, visits := w.visits ++ [.hook v] }) := by
            rw [runHooks, run_bind, hvisit]
            simp only [hv]
            rfl
          have hstops : verdict v.hook v.result v.err ≠ none := by simp [v, hv]
          rw [hloop]
          refine ⟨[v], rfl, .hook (v := v) hrun.symm (.nil _), rfl,
            runsUpTo_singleton (v := v) hstops, ?_, sees_singleton (.hook v),
            fun hnone => absurd hnone (by simp)⟩
          exact ⟨fun hnone => absurd hnone (by simp),
            fun hall => absurd hstops (hall.2 v (by simp))⟩
      | none =>
          let w₁ : World σ V ε := { w with
            outside := outside
            visits := w.visits ++ [.hook v]
            req := { w.req with payload := mergePayload w.req.payload res.updated } }
          have hloop : (runHooks verdict (h :: hooks)).run w = (runHooks verdict hooks).run w₁ := by
            rw [runHooks, run_bind, hvisit]
            simp only [hv]
            rfl
          have hgoes : ¬ verdict v.hook v.result v.err ≠ none := by simp [v, hv]
          have herr : err = none := hverdict h res err hv
          -- the payload the rest of the loop starts from
          have hpayload : ∀ k, w₁.req.payload.get k =
              (latest k [Visit.hook v]).or (w.req.payload.get k) := by
            intro k
            rw [latest_singleton]
            simp only [w₁, v, Visit.update, herr, Option.isNone_none, if_true]
            exact get_mergePayload w.req.payload res.updated k
          obtain ⟨vs, hrest⟩ := ih w₁
          rw [hloop]
          refine ⟨v :: vs, ?_, ?_, hrest.request, hrest.runs.cons hgoes, ?_, ?_,
            fun hnone k => ?_⟩
          · rw [hrest.visits, List.map_cons, List.append_cons]
          · exact .hook (v := v) hrun.symm hrest.calls.withPayload
          · rw [hrest.none_iff]
            constructor
            · rintro ⟨hall, hnone⟩
              refine ⟨by rw [List.map_cons, hall], ?_⟩
              intro u hu
              rcases List.mem_cons.mp hu with rfl | hu
              · exact hgoes
              · exact hnone u hu
            · rintro ⟨hall, hnone⟩
              exact ⟨(List.cons_eq_cons.mp hall).2, fun u hu => hnone u (List.mem_cons_of_mem v hu)⟩
          · exact Sees.append (sees_singleton (.hook v)) hpayload hrest.sees
          · have hcons := latest_append k [Visit.hook v] (vs.map .hook)
            rw [List.singleton_append] at hcons
            rw [hrest.payload hnone k, hpayload k, List.map_cons, hcons, Option.or_assoc]

/-- The visits of the core say that it succeeded, or there is no core. -/
def CoreSucceeds (core : Option (Core σ V ε)) (cores : List (CoreVisit V ε)) : Prop :=
  (core = none ∧ cores = []) ∨ ∃ c, cores = [c] ∧ c.err = none

/-- What the core does to the world. -/
structure CoreSpec (core : Option (Core σ V ε)) (w w' : World σ V ε) (err : Option ε)
    (cores : List (CoreVisit V ε)) : Prop where
  visits : w'.visits = w.visits ++ cores.map .core
  calls : Calls core w.req w.outside (cores.map .core) w'.outside
  request : w'.req = w.req
  at_most_once : cores.length ≤ 1
  once_iff : cores.length = 1 ↔ core ≠ none
  none_iff : err = none ↔ CoreSucceeds core cores
  sees : Sees (σ := σ) w.req.payload (cores.map .core)

theorem coreSpec_visitCore (core : Option (Core σ V ε)) (w : World σ V ε) :
    ∃ cores, CoreSpec core w ((visitCore core).run w).2 ((visitCore core).run w).1 cores := by
  cases core with
  | none =>
      exact ⟨[], (List.append_nil _).symm, .nil _, rfl, by simp, by simp,
        iff_of_true rfl (.inl ⟨rfl, rfl⟩), sees_nil _⟩
  | some f =>
      let c : CoreVisit V ε := ⟨w.req.payload, (f w.req w.outside).1⟩
      refine ⟨[c], rfl, .core (v := c) rfl rfl (.nil _), rfl, by simp, by simp, ?_,
        sees_singleton (.core c)⟩
      simp [CoreSucceeds, c, visitCore, Core.run_visit]

theorem latest_cores (k : String) (cores : List (CoreVisit V ε)) :
    latest (σ := σ) k (cores.map .core) = none := by
  simp [latest, Visit.update]

theorem preVerdict_ne_none :
    (fun v : HookVisit σ V ε => preVerdict v.hook v.result v.err ≠ none) = HookVisit.Halts := by
  funext v
  obtain ⟨hook, saw, result, err⟩ := v
  cases err <;> simp [preVerdict, HookVisit.Halts]

theorem postVerdict_ne_none :
    (fun v : HookVisit σ V ε => postVerdict v.hook v.result v.err ≠ none) = HookVisit.Fails := by
  funext v
  obtain ⟨hook, saw, result, err⟩ := v
  cases err <;> simp [postVerdict, HookVisit.Fails]

theorem err_of_preVerdict (h : Hook σ V ε) (res : Result V) (err : Option ε)
    (hnone : preVerdict h res err = none) : err = none := by
  cases err with
  | none => rfl
  | some e => simp [preVerdict] at hnone

theorem err_of_postVerdict (h : Hook σ V ε) (res : Result V) (err : Option ε)
    (hnone : postVerdict h res err = none) : err = none := by
  cases err with
  | none => rfl
  | some e => simp [postVerdict] at hnone

/-- The behaviour of the chain of `hooks` around `core` on the request `req`, read
off the world it leaves and its error. -/
structure Behaves (hooks : List (Hook σ V ε)) (core : Option (Core σ V ε)) (outside : σ)
    (req : Request V) (w : World σ V ε) (err : Option (ExecuteErr ε))
    (pre : List (HookVisit σ V ε)) (cores : List (CoreVisit V ε))
    (post : List (HookVisit σ V ε)) : Prop where
  log : w.visits = pre.map .hook ++ cores.map .core ++ post.map .hook
  calls : Calls core req outside w.visits w.outside
  pre_runs : RunsUpTo HookVisit.Halts (nonPost hooks) pre
  core_at_most_once : cores.length ≤ 1
  core_iff : cores.length = 1 ↔ core ≠ none ∧ Completes HookVisit.Halts (nonPost hooks) pre
  post_runs : Completes HookVisit.Halts (nonPost hooks) pre → CoreSucceeds core cores →
    RunsUpTo HookVisit.Fails (postOnly hooks) post
  post_only_after_core :
    ¬ (Completes HookVisit.Halts (nonPost hooks) pre ∧ CoreSucceeds core cores) → post = []
  nil_iff : err = none ↔
    Completes HookVisit.Halts (nonPost hooks) pre ∧ CoreSucceeds core cores ∧
      Completes HookVisit.Fails (postOnly hooks) post
  sees : Sees req.payload w.visits

/-- Every chain behaves so, whatever its hooks and its core do. -/
theorem execute_behaves (hooks : List (Hook σ V ε)) (core : Option (Core σ V ε)) (outside : σ)
    (req : Request V) :
    let out := ((newChain hooks).execute core).run ⟨outside, req, []⟩
    ∃ pre cores post, Behaves hooks core outside req out.2 out.1 pre cores post := by
  obtain ⟨pre, hpre⟩ :=
    loopSpec_runHooks core err_of_preVerdict (nonPost hooks) ⟨outside, req, []⟩
  obtain ⟨hlog, hcalls, hreq, hruns, hnone, hsees, hpayload⟩ := hpre
  rw [preVerdict_ne_none] at hruns hnone
  rw [newChain_eq, run_execute]
  dsimp only
  generalize (runHooks preVerdict (nonPost hooks)).run ⟨outside, req, []⟩ = r at *
  obtain ⟨err₁, w₁⟩ := r
  cases err₁ with
  | some e =>
      -- a hook ended the first loop: no core and no post hook
      have hstopped : ¬ Completes HookVisit.Halts (nonPost hooks) pre :=
        fun hall => absurd (hnone.mpr hall) (by simp)
      refine ⟨pre, [], [], by simpa using hlog, ?_, hruns, by simp, ?_,
        fun hall => absurd hall hstopped, fun _ => rfl, ?_, ?_⟩
      · exact hlog ▸ hcalls
      · exact iff_of_false (by simp) fun hall => hstopped hall.2
      · exact iff_of_false (by simp) fun hall => hstopped hall.1
      · exact hlog ▸ hsees
  | none =>
      have hcompleted : Completes HookVisit.Halts (nonPost hooks) pre := hnone.mp rfl
      obtain ⟨cores, hcore⟩ := coreSpec_visitCore core w₁
      obtain ⟨hlogC, hcallsC, hreqC, hmost, honce, hnoneC, hseesC⟩ := hcore
      have hiff : cores.length = 1 ↔
          core ≠ none ∧ Completes HookVisit.Halts (nonPost hooks) pre :=
        honce.trans (and_iff_left hcompleted).symm
      dsimp only
      generalize (visitCore core).run w₁ = r at *
      obtain ⟨err₂, w₂⟩ := r
      -- up to here the log is that of the first loop and the visit of the core
      have hlog₂ : w₂.visits = pre.map .hook ++ cores.map .core :=
        hlogC.trans (congrArg (· ++ cores.map .core) hlog)
      have hcalls₂ : Calls core req outside (pre.map .hook ++ cores.map .core) w₂.outside := by
        rw [hreq] at hcallsC
        exact hcalls.append hcallsC.withPayload
      have hsees₂ : Sees req.payload (pre.map .hook ++ cores.map .core) :=
        hsees.append (hpayload rfl) hseesC
      cases err₂ with
      | some e =>
          have hfailed : ¬ CoreSucceeds core cores :=
            fun hok => absurd (hnoneC.mpr hok) (by simp)
          refine ⟨pre, cores, [], by simpa using hlog₂, hlog₂ ▸ hcalls₂, hruns, hmost, hiff,
            fun _ hok => absurd hok hfailed, fun _ => rfl, ?_, hlog₂ ▸ hsees₂⟩
          exact iff_of_false (by simp) fun hall => hfailed hall.2.1
      | none =>
          have hok : CoreSucceeds core cores := hnoneC.mp rfl
          obtain ⟨post, hlog₃, hcalls₃, -, hruns₃, hnone₃, hsees₃, -⟩ :=
            loopSpec_runHooks core err_of_postVerdict (postOnly hooks) w₂
          rw [postVerdict_ne_none] at hruns₃ hnone₃
          rw [hlog₂] at hlog₃
          have hpayload₂ : ∀ k, w₂.req.payload.get k =
              (latest k (pre.map .hook ++ cores.map .core)).or (req.payload.get k) := by
            intro k
            rw [latest_append, latest_cores, Option.none_or, ← hpayload rfl k, hreqC]
          refine ⟨pre, cores, post, hlog₃, ?_, hruns, hmost, hiff,
            fun _ _ => hruns₃, fun h => absurd ⟨hcompleted, hok⟩ h, ?_, ?_⟩
          · dsimp only
            rw [hlog₃]
            rw [hreqC, hreq] at hcalls₃
            exact hcalls₂.append hcalls₃.withPayload
          · rw [hnone₃]
            exact ⟨fun hall => ⟨hcompleted, hok, hall⟩, fun hall => hall.2.2⟩
          · dsimp only
            rw [hlog₃]
            exact hsees₂.append hpayload₂ hsees₃

/-! A chain with everything at once: the stages are mixed, the second hook
overrides what the first one set, the first post hook does not continue, which
does not matter, and the second one fails. The outside world is the list of what
was called, each callee with the value it found under `"tag"`. -/

def tagHook (name stage : String) (continues : Bool) (sets : Option ℕ) (err : Option String) :
    Hook (List (String × Option ℕ)) ℕ String where
  name := name
  stage := stage
  run req s := (({ continues := continues
                   updated := match sets with
                     | some n => Table.empty.insert ("tag", n)
                     | none => .empty }, err), s ++ [(name, req.payload.get "tag")])

def tagHooks : List (Hook (List (String × Option ℕ)) ℕ String) :=
  [tagHook "log" stagePost false (some 3) none, tagHook "stamp" stagePre true (some 1) none,
    tagHook "down" stagePost true none (some "no route"),
    tagHook "quota" "audit" true (some 2) none, tagHook "late" stagePost true none none]

def tagCore : Core (List (String × Option ℕ)) ℕ String := fun req s =>
  (none, s ++ [("core", req.payload.get "tag")])

theorem tagHooks_behave :
    let out := ((newChain tagHooks).execute (some tagCore)).run ⟨[], {}, []⟩
    out.1 = some (.post "down" "no route") ∧
    out.2.outside =
      [("stamp", none), ("quota", some 1), ("core", some 2), ("log", some 2), ("down", some 3)] ∧
    ∃ pre cores post, Behaves tagHooks (some tagCore) [] {} out.2 out.1 pre cores post :=
  ⟨by decide, by decide, execute_behaves tagHooks (some tagCore) [] {}⟩

end TelegramServer.Hooks

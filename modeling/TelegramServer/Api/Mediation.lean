import TelegramServer.Api.Gateway
import TelegramServer.Lib.Runs

/-!
Requests at the same time. Every request has a goroutine of its own, and there are a few moments
at which it acts on what all of them share: `Resolve` reads the keys, in one snapshot; the limiter
is asked, under its mutex; a refusal is written to the audit log; and a handler executes its
statements one by one. In between, other requests go on, and keys are issued and revoked.

Over every run of such moments a handler acts for a request only if, when the request came in, its
token was the plaintext of a live key of an active app with the capability, and the limiter let
the app pass when it was asked; and it acts for every such request. What a handler does at its
moments is left open. All other moments of a request leave the keys and what is behind the
handlers alone. The nested middleware of `NewRouter` is the run in which nobody comes in between.
-/

namespace TelegramServer.Api

open Audit Auth Go Lib Ratelimit Registry

variable {ω : Type}

/-! ### The moments of a request -/

/-- Where a request is. -/
inductive VisitPhase
  /-- Behind `Auth`. -/
  | identified (id : RequesterIdentity)
  /-- Refused, with an event to be written. -/
  | denied (e : Event)
  /-- In its handler. -/
  | handling (id : RequesterIdentity)
  | over

/-- A request to a group; `route` is `none` where the group has none. -/
structure Visit where
  request : Request
  route : Option Route
  phase : VisitPhase

structure GateState (ω : Type) where
  world : World ω
  visits : List Visit := []

/-- A statement of a handler. -/
inductive Change (ω : Type)
  | keys (a : KeyAction)
  | audit (e : Event)
  | app (x : ω)

inductive GateAction (ω : Type)
  /-- A transaction of the admin console. -/
  | keys (a : KeyAction)
  | arrive (r : Request)
  | limit (k : ℕ)
  | deny (k : ℕ)
  | act (k : ℕ) (c : Change ω)
  | finish (k : ℕ)

/-- The route of a request to a group. -/
def Deps.grouped (deps : Deps ω) (r : Request) : Option (Option Route) :=
  match deps.route r.method r.path with
  | .guarded e => some (some e)
  | .unrouted => some none
  | .healthz | .notFound => none

/-- A transaction that has to wait for a lock is not done. -/
def World.change (argon : Argon2) (w : World ω) : Change ω → World ω
  | .keys a => { w with keys := (keyStep argon w.keys a).getD w.keys }
  | .audit e => { w with audit := w.audit ++ [e] }
  | .app x => { w with app := x }

/-- `Auth`: who makes the request. -/
def arrivalPhase (deps : Deps ω) (db : KeyDatabase) (r : Request) : VisitPhase :=
  match identify deps db r with
  | .error code => .denied (deniedEvent { traceID := r.traceID } r code)
  | .ok id => .identified id

/-- `RateLimit` and `RequireCapability`. -/
def limitPhase (v : Visit) (id : RequesterIdentity) : Ratelimit.Answer → VisitPhase
  | .tooManyRequests _ => .over
  | .next =>
      match v.route with
      | none => .over
      | some e =>
          if e.capability ∈ id.capabilities then .handling id
          else .denied (capabilityEvent { traceID := v.request.traceID } v.request id e.capability
            "forbidden")

def GateState.setPhase (s : GateState ω) (k : ℕ) (v : Visit) (phase : VisitPhase) : GateState ω :=
  { s with visits := s.visits.set k { v with phase := phase } }

def gateStep (deps : Deps ω) (s : GateState ω) : GateAction ω → Option (GateState ω)
  | .keys a =>
      (keyStep deps.argon s.world.keys a).map fun keys =>
        { s with world := { s.world with keys := keys } }
  | .arrive r =>
      match deps.grouped r with
      | none => some s
      | some route =>
          some { s with visits := s.visits ++ [⟨r, route, arrivalPhase deps s.world.keys.db r⟩] }
  | .limit k =>
      match s.visits[k]? with
      | none => none
      | some v =>
          match v.phase with
          | .identified id =>
              let (answer, limiter) := rateLimit s.world.limiter v.request.reading
                ⟨some id.appID, v.request.remoteAddr⟩
              some { (s.setPhase k v (limitPhase v id answer)) with
                world := { s.world with limiter := limiter } }
          | _ => none
  | .deny k =>
      match s.visits[k]? with
      | none => none
      | some v =>
          match v.phase with
          | .denied e => some { (s.setPhase k v .over) with world := s.world.write deps e }
          | _ => none
  | .act k c =>
      match s.visits[k]? with
      | none => none
      | some v =>
          match v.phase with
          | .handling _ => some { s with world := s.world.change deps.argon c }
          | _ => none
  | .finish k =>
      match s.visits[k]? with
      | none => none
      | some v =>
          match v.phase with
          | .handling _ => some (s.setPhase k v .over)
          | _ => none

/-! ### One moment -/

/-- What a moment does. -/
inductive GateEffect (deps : Deps ω) (s : GateState ω) (a : GateAction ω) (s' : GateState ω) : Prop
  | keys (x : KeyAction) (keys : KeyState) (ha : a = .keys x)
      (hkeys : keyStep deps.argon s.world.keys x = some keys)
      (hs : s' = { s with world := { s.world with keys := keys } })
  | passedBy (r : Request) (ha : a = .arrive r) (hs : s' = s)
  | arrived (r : Request) (route : Option Route) (ha : a = .arrive r)
      (hroute : deps.grouped r = some route)
      (hs : s' = { s with
        visits := s.visits ++ [⟨r, route, arrivalPhase deps s.world.keys.db r⟩] })
  | limited (k : ℕ) (v : Visit) (id : RequesterIdentity) (ha : a = .limit k)
      (hk : s.visits[k]? = some v) (hphase : v.phase = .identified id)
      (hs : s' = { (s.setPhase k v (limitPhase v id (rateLimit s.world.limiter v.request.reading
          ⟨some id.appID, v.request.remoteAddr⟩).1)) with
        world := chargedWorld s.world v.request id.appID })
  | denied (k : ℕ) (v : Visit) (e : Event) (ha : a = .deny k) (hk : s.visits[k]? = some v)
      (hphase : v.phase = .denied e)
      (hs : s' = { (s.setPhase k v .over) with world := s.world.write deps e })
  | acted (k : ℕ) (c : Change ω) (v : Visit) (id : RequesterIdentity) (ha : a = .act k c)
      (hk : s.visits[k]? = some v) (hphase : v.phase = .handling id)
      (hs : s' = { s with world := s.world.change deps.argon c })
  | finished (k : ℕ) (v : Visit) (id : RequesterIdentity) (ha : a = .finish k)
      (hk : s.visits[k]? = some v) (hphase : v.phase = .handling id)
      (hs : s' = s.setPhase k v .over)

section Step

variable {deps : Deps ω} {s s' : GateState ω} {a : GateAction ω}

theorem gateEffect_of_step (h : gateStep deps s a = some s') : GateEffect deps s a s' := by
  cases a with
  | keys x =>
      obtain ⟨keys, hkeys, rfl⟩ := Option.map_eq_some_iff.mp h
      exact .keys x keys rfl hkeys rfl
  | arrive r =>
      simp only [gateStep] at h
      split at h
      · exact .passedBy r rfl (Option.some.inj h).symm
      · next route hroute => exact .arrived r route rfl hroute (Option.some.inj h).symm
  | limit k =>
      simp only [gateStep] at h
      split at h
      · cases h
      · next v hk =>
          split at h
          · next id hphase => exact .limited k v id rfl hk hphase (Option.some.inj h).symm
          · cases h
  | deny k =>
      simp only [gateStep] at h
      split at h
      · cases h
      · next v hk =>
          split at h
          · next e hphase => exact .denied k v e rfl hk hphase (Option.some.inj h).symm
          · cases h
  | act k c =>
      simp only [gateStep] at h
      split at h
      · cases h
      · next v hk =>
          split at h
          · next id hphase => exact .acted k c v id rfl hk hphase (Option.some.inj h).symm
          · cases h
  | finish k =>
      simp only [gateStep] at h
      split at h
      · cases h
      · next v hk =>
          split at h
          · next id hphase => exact .finished k v id rfl hk hphase (Option.some.inj h).symm
          · cases h

/-- The visits after a moment: one may be new, and one may have changed its phase. -/
theorem GateEffect.visit (h : GateEffect deps s a s') {k : ℕ} {v' : Visit}
    (hk : s'.visits[k]? = some v') :
    s.visits[k]? = some v' ∨
      (k = s.visits.length ∧ a = .arrive v'.request ∧ deps.grouped v'.request = some v'.route ∧
        v'.phase = arrivalPhase deps s.world.keys.db v'.request) ∨
      ∃ v, s.visits[k]? = some v ∧ v'.request = v.request ∧ v'.route = v.route ∧
        (v'.phase = .over ∨ ∃ id, a = .limit k ∧ v.phase = .identified id ∧
          v'.phase = limitPhase v id (rateLimit s.world.limiter v.request.reading
            ⟨some id.appID, v.request.remoteAddr⟩).1) := by
  -- a visit that was set to another phase
  have hset {j : ℕ} {v : Visit} {phase : VisitPhase} (hj : s.visits[j]? = some v)
      (hk : (s.visits.set j { v with phase := phase })[k]? = some v') :
      s.visits[k]? = some v' ∨ j = k ∧ v' = { v with phase := phase } := by
    rw [List.getElem?_set] at hk
    split at hk
    · next hjk =>
        split at hk
        · exact .inr ⟨hjk, (Option.some.inj hk).symm⟩
        · cases hk
    · exact .inl hk
  cases h with
  | keys x keys ha hkeys hs =>
      subst hs
      exact .inl hk
  | passedBy r ha hs =>
      subst hs
      exact .inl hk
  | arrived r route ha hroute hs =>
      subst hs
      rcases Nat.lt_trichotomy k s.visits.length with hlt | rfl | hgt
      · exact .inl (by rwa [List.getElem?_append_left hlt] at hk)
      · obtain rfl : _ = v' := by simpa using hk
        exact .inr (.inl ⟨rfl, ha, hroute, rfl⟩)
      · rw [List.getElem?_eq_none (by simp; omega)] at hk
        cases hk
  | limited j v id ha hj hphase hs =>
      subst hs
      rcases hset hj hk with hold | ⟨rfl, rfl⟩
      · exact .inl hold
      · exact .inr (.inr ⟨v, hj, rfl, rfl, .inr ⟨id, ha, hphase, rfl⟩⟩)
  | denied j v e ha hj hphase hs =>
      subst hs
      rcases hset hj hk with hold | ⟨rfl, rfl⟩
      · exact .inl hold
      · exact .inr (.inr ⟨v, hj, rfl, rfl, .inl rfl⟩)
  | acted j c v id ha hj hphase hs =>
      subst hs
      exact .inl hk
  | finished j v id ha hj hphase hs =>
      subst hs
      rcases hset hj hk with hold | ⟨rfl, rfl⟩
      · exact .inl hold
      · exact .inr (.inr ⟨v, hj, rfl, rfl, .inl rfl⟩)

theorem keyInv_change {w : World ω} (hinv : KeyInv deps.argon w.keys) (c : Change ω) :
    KeyInv deps.argon (w.change deps.argon c).keys := by
  cases c with
  | keys a =>
      simp only [World.change]
      cases hkeys : keyStep deps.argon w.keys a with
      | none => exact hinv
      | some keys => exact keyInv_step hinv hkeys
  | audit e => exact hinv
  | app x => exact hinv

/-- What the moments before and after a handler leave alone. -/
theorem GateEffect.frame (h : GateEffect deps s a s') :
    (∃ x, a = .keys x) ∨
      (∃ k c v id, a = .act k c ∧ s.visits[k]? = some v ∧ v.phase = .handling id) ∨
      s'.world.keys = s.world.keys ∧ s'.world.app = s.world.app ∧
        (s'.world.audit = s.world.audit ∨
          ∃ (k : ℕ) (v : Visit) (e : Event), s.visits[k]? = some v ∧ v.phase = .denied e ∧
            s'.world.audit = (s.world.write deps e).audit) := by
  cases h with
  | keys x keys ha hkeys hs => exact .inl ⟨x, ha⟩
  | acted k c v id ha hk hphase hs => exact .inr (.inl ⟨k, c, v, id, ha, hk, hphase⟩)
  | passedBy r ha hs =>
      subst hs
      exact .inr (.inr ⟨rfl, rfl, .inl rfl⟩)
  | arrived r route ha hroute hs =>
      subst hs
      exact .inr (.inr ⟨rfl, rfl, .inl rfl⟩)
  | limited k v id ha hk hphase hs =>
      subst hs
      exact .inr (.inr ⟨rfl, rfl, .inl rfl⟩)
  | denied k v e ha hk hphase hs =>
      subst hs
      exact .inr (.inr ⟨rfl, rfl, .inr ⟨k, v, e, hk, hphase, rfl⟩⟩)
  | finished k v id ha hk hphase hs =>
      subst hs
      exact .inr (.inr ⟨rfl, rfl, .inl rfl⟩)

theorem keyInv_gateStep (hinv : KeyInv deps.argon s.world.keys) (h : gateStep deps s a = some s') :
    KeyInv deps.argon s'.world.keys := by
  have heffect := gateEffect_of_step h
  rcases heffect.frame with ⟨x, rfl⟩ | ⟨k, c, v, id, rfl, -⟩ | ⟨hkeys, -⟩
  · obtain ⟨keys, hkeys, rfl⟩ := Option.map_eq_some_iff.mp h
    exact keyInv_step hinv hkeys
  · cases heffect with
    | acted _ _ _ _ ha _ _ hs =>
        cases ha
        subst hs
        exact keyInv_change hinv c
    | _ => simp_all
  · rw [hkeys]
    exact hinv

end Step

/-! ### Runs -/

/-- Nobody has a key and no request is under way. -/
structure GateState.Fresh (s : GateState ω) : Prop where
  keys : s.world.keys.db.keys.rows = []
  issuing : s.world.keys.issuing = []
  history : s.world.keys.history = []
  visits : s.visits = []

section Runs

variable (deps : Deps ω) (s₀ : GateState ω)

/-- The `k`-th request came in during the run, in the state `s`. -/
structure CameIn (as before : List (GateAction ω)) (k : ℕ) (r : Request) (s : GateState ω) :
    Prop where
  run_before : run (gateStep deps) s₀ before = some s
  index : s.visits.length = k
  arrived : ∃ after, as = before ++ .arrive r :: after

/-- After that, the limiter was asked in the state `s`. -/
def Asked (as before : List (GateAction ω)) (k : ℕ) (r : Request) (s : GateState ω) : Prop :=
  ∃ between after, as = before ++ .arrive r :: (between ++ .limit k :: after) ∧
    run (gateStep deps) s₀ (before ++ .arrive r :: between) = some s

/-- The request was entitled when it came in, and its app was within the rate when the limiter was
asked. -/
def Admitted (as : List (GateAction ω)) (k : ℕ) (r : Request) (e : Route)
    (appID keyPrefix : String) : Prop :=
  deps.route r.method r.path = .guarded e ∧
    ∃ before s₁ s₂, CameIn deps s₀ as before k r s₁ ∧ Entitled s₁.world r e appID keyPrefix ∧
      Asked deps s₀ as before k r s₂ ∧ WithinRate s₂.world r appID

/-- What is known of a request from its phase. -/
structure VisitInv (as : List (GateAction ω)) (k : ℕ) (v : Visit) : Prop where
  grouped : deps.grouped v.request = some v.route
  moments : ∃ before s₁, CameIn deps s₀ as before k v.request s₁ ∧
    (∀ id, v.phase = .identified id → identify deps s₁.world.keys.db v.request = .ok id) ∧
    ∀ id, v.phase = .handling id → identify deps s₁.world.keys.db v.request = .ok id ∧
      (∃ e, v.route = some e ∧ e.capability ∈ id.capabilities) ∧
      ∃ s₂, Asked deps s₀ as before k v.request s₂ ∧ WithinRate s₂.world v.request id.appID
  denied : ∀ e, v.phase = .denied e → DeniedFor v.request e

variable {deps s₀} {as before : List (GateAction ω)} {s s' : GateState ω} {a : GateAction ω} {k : ℕ}
  {v : Visit} {id : RequesterIdentity} {r : Request}

theorem limitPhase_eq_handling {answer : Ratelimit.Answer} {id' : RequesterIdentity} :
    limitPhase v id answer = .handling id' ↔ id' = id ∧ answer = .next ∧
      ∃ e, v.route = some e ∧ e.capability ∈ id.capabilities := by
  unfold limitPhase
  cases answer with
  | tooManyRequests retryAfter => simp
  | next =>
      cases v.route with
      | none => simp
      | some e =>
          by_cases hcap : e.capability ∈ id.capabilities <;> simp [hcap, eq_comm]

theorem limitPhase_ne_identified {answer : Ratelimit.Answer} {id' : RequesterIdentity} :
    limitPhase v id answer ≠ .identified id' := by
  unfold limitPhase
  split
  · simp
  · split
    · simp
    · split <;> simp

theorem deniedFor_of_limitPhase {answer : Ratelimit.Answer} {e : Event}
    (h : limitPhase v id answer = .denied e) : DeniedFor v.request e := by
  unfold limitPhase at h
  split at h
  · cases h
  · split at h
    · cases h
    · split at h
      · cases h
      · cases h
        exact ⟨rfl, rfl, rfl⟩

theorem arrivalPhase_eq_identified {db : KeyDatabase} :
    arrivalPhase deps db r = .identified id ↔ identify deps db r = .ok id := by
  unfold arrivalPhase
  split <;> simp_all

theorem CameIn.concat (h : CameIn deps s₀ as before k r s) (a : GateAction ω) :
    CameIn deps s₀ (as ++ [a]) before k r s := by
  obtain ⟨after, rfl⟩ := h.arrived
  exact ⟨h.run_before, h.index, after ++ [a], by simp⟩

theorem Asked.concat (h : Asked deps s₀ as before k r s) (a : GateAction ω) :
    Asked deps s₀ (as ++ [a]) before k r s := by
  obtain ⟨between, after, rfl, hrun⟩ := h
  exact ⟨between, after ++ [a], by simp, hrun⟩

theorem VisitInv.concat (h : VisitInv deps s₀ as k v) (a : GateAction ω) :
    VisitInv deps s₀ (as ++ [a]) k v := by
  obtain ⟨before, s₁, hcame, hidentified, hhandling⟩ := h.moments
  refine ⟨h.grouped, ⟨before, s₁, hcame.concat a, hidentified, fun id hphase => ?_⟩, h.denied⟩
  obtain ⟨hid, hroute, s₂, hasked, hrate⟩ := hhandling id hphase
  exact ⟨hid, hroute, s₂, hasked.concat a, hrate⟩

/-- A request that has just come in. -/
theorem visitInv_arrived (hrun : run (gateStep deps) s₀ as = some s)
    (hgrouped : deps.grouped v.request = some v.route)
    (hphase : v.phase = arrivalPhase deps s.world.keys.db v.request) :
    VisitInv deps s₀ (as ++ [.arrive v.request]) s.visits.length v := by
  refine ⟨hgrouped, ⟨as, s, ⟨hrun, rfl, [], rfl⟩, ?_, ?_⟩, ?_⟩
  · intro id hid
    exact arrivalPhase_eq_identified.mp (hphase.symm.trans hid)
  · intro id hid
    rw [hphase, arrivalPhase] at hid
    split at hid <;> cases hid
  · intro e he
    rw [hphase, arrivalPhase] at he
    split at he
    · cases he
      exact ⟨rfl, rfl, rfl⟩
    · cases he

/-- A request for which the limiter has just been asked. -/
theorem VisitInv.limited (h : VisitInv deps s₀ as k v) (hrun : run (gateStep deps) s₀ as = some s)
    (hphase : v.phase = .identified id) {v' : Visit} (hrequest : v'.request = v.request)
    (hroute : v'.route = v.route)
    (hphase' : v'.phase = limitPhase v id (rateLimit s.world.limiter v.request.reading
      ⟨some id.appID, v.request.remoteAddr⟩).1) :
    VisitInv deps s₀ (as ++ [.limit k]) k v' := by
  obtain ⟨before, s₁, hcame, hidentified, -⟩ := h.moments
  refine ⟨by rw [hrequest, hroute]; exact h.grouped, ⟨before, s₁, ?_, ?_, ?_⟩, ?_⟩
  · rw [hrequest]
    exact hcame.concat _
  · intro id' hid
    exact absurd (hphase'.symm.trans hid) limitPhase_ne_identified
  · intro id' hid
    obtain ⟨rfl, hnext, hcap⟩ := limitPhase_eq_handling.mp (hphase'.symm.trans hid)
    obtain ⟨after, hafter⟩ := hcame.arrived
    rw [hrequest, hroute]
    exact ⟨hidentified id' hphase, hcap, s, ⟨after, [], by simp [hafter], hafter ▸ hrun⟩, hnext⟩
  · intro e he
    rw [hrequest]
    exact deniedFor_of_limitPhase (hphase'.symm.trans he)

theorem visitInv_over (h : VisitInv deps s₀ as k v) {v' : Visit} (hrequest : v'.request = v.request)
    (hroute : v'.route = v.route) (hphase : v'.phase = .over) : VisitInv deps s₀ as k v' := by
  obtain ⟨before, s₁, hcame, -⟩ := h.moments
  refine ⟨by rw [hrequest, hroute]; exact h.grouped,
    ⟨before, s₁, hrequest ▸ hcame, fun id hid => ?_, fun id hid => ?_⟩, fun e he => ?_⟩
  · cases hphase.symm.trans hid
  · cases hphase.symm.trans hid
  · cases hphase.symm.trans he

structure GateInv (deps : Deps ω) (s₀ : GateState ω) (as : List (GateAction ω))
    (s : GateState ω) : Prop where
  keys : KeyInv deps.argon s.world.keys
  visits : ∀ k v, s.visits[k]? = some v → VisitInv deps s₀ as k v

theorem GateInv.step (h : GateInv deps s₀ as s) (hrun : run (gateStep deps) s₀ as = some s)
    (hstep : gateStep deps s a = some s') : GateInv deps s₀ (as ++ [a]) s' := by
  refine ⟨keyInv_gateStep h.keys hstep, fun k v' hk => ?_⟩
  rcases (gateEffect_of_step hstep).visit hk with
    hold | ⟨rfl, rfl, hgrouped, hphase⟩ | ⟨v, hv, hrequest, hroute, hover | ⟨id, rfl, hid, hphase⟩⟩
  · exact (h.visits k v' hold).concat a
  · exact visitInv_arrived hrun hgrouped hphase
  · exact visitInv_over ((h.visits k v hv).concat a) hrequest hroute hover
  · exact (h.visits k v hv).limited hrun hid hrequest hroute hphase

theorem gateInv_of_run (h₀ : s₀.Fresh) (hrun : run (gateStep deps) s₀ as = some s) :
    GateInv deps s₀ as s := by
  refine run_history ⟨keyInv_of_empty h₀.keys h₀.issuing h₀.history, ?_⟩
    (fun as s a s' hrun h hstep => h.step hrun hstep) hrun
  simp [h₀.visits]

/-- A request keeps its place, and once identified it is nobody else's. -/
theorem GateEffect.keepsVisit (h : GateEffect deps s a s') (hk : s.visits[k]? = some v) :
    ∃ v', s'.visits[k]? = some v' ∧ v'.request = v.request ∧ v'.route = v.route ∧
      ∀ id, v'.phase = .identified id → v.phase = .identified id := by
  have hlength : s.visits.length ≤ s'.visits.length := by
    cases h <;> simp_all [GateState.setPhase]
  obtain ⟨hlt, -⟩ := List.getElem?_eq_some_iff.mp hk
  have hk' := List.getElem?_eq_getElem (hlt.trans_le hlength)
  refine ⟨_, hk', ?_⟩
  rcases h.visit hk' with hold | ⟨rfl, -⟩ | ⟨v₁, hv₁, hrequest, hroute, hphase⟩
  · cases hk.symm.trans hold
    exact ⟨rfl, rfl, fun _ => id⟩
  · exact absurd hlt (Nat.lt_irrefl _)
  · cases hk.symm.trans hv₁
    refine ⟨hrequest, hroute, fun id hid => ?_⟩
    rcases hphase with hover | ⟨id', -, -, hlimit⟩
    · cases hover.symm.trans hid
    · exact absurd (hlimit.symm.trans hid) limitPhase_ne_identified

theorem keepsVisit_of_run (hk : s.visits[k]? = some v) (hrun : run (gateStep deps) s as = some s') :
    ∃ v', s'.visits[k]? = some v' ∧ v'.request = v.request ∧ v'.route = v.route ∧
      ∀ id, v'.phase = .identified id → v.phase = .identified id := by
  refine run_invariant (I := fun s' => ∃ v', s'.visits[k]? = some v' ∧ v'.request = v.request ∧
    v'.route = v.route ∧ ∀ id, v'.phase = .identified id → v.phase = .identified id) ?_
    ⟨v, hk, rfl, rfl, fun _ => id⟩ hrun
  rintro s₁ a s₂ ⟨v₁, hk₁, hrequest, hroute, hphase⟩ hstep
  obtain ⟨v₂, hk₂, hrequest₂, hroute₂, hphase₂⟩ := (gateEffect_of_step hstep).keepsVisit hk₁
  exact ⟨v₂, hk₂, hrequest₂.trans hrequest, hroute₂.trans hroute, fun id hid =>
    hphase id (hphase₂ id hid)⟩

end Runs

/-! ### Mediation -/

section Mediated

variable {deps : Deps ω} {s₀ s : GateState ω} {as : List (GateAction ω)}

theorem route_of_grouped {r : Request} {e : Route} (h : deps.grouped r = some (some e)) :
    deps.route r.method r.path = .guarded e := by
  unfold Deps.grouped at h
  split at h <;> simp_all

theorem grouped_of_route {r : Request} {e : Route}
    (h : deps.route r.method r.path = .guarded e) : deps.grouped r = some (some e) := by
  rw [Deps.grouped, h]

theorem admitted_of_handling (h₀ : s₀.Fresh) (hrun : run (gateStep deps) s₀ as = some s) {k : ℕ}
    {v : Visit} {id : RequesterIdentity} (hk : s.visits[k]? = some v)
    (hphase : v.phase = .handling id) :
    ∃ e, v.route = some e ∧ Admitted deps s₀ as k v.request e id.appID id.keyPrefix := by
  have hv := (gateInv_of_run h₀ hrun).visits k v hk
  obtain ⟨before, s₁, hcame, -, hhandling⟩ := hv.moments
  obtain ⟨hid, ⟨e, hroute, hcap⟩, s₂, hasked, hrate⟩ := hhandling id hphase
  have hkeys := (gateInv_of_run h₀ hcame.run_before).keys
  exact ⟨e, hroute, route_of_grouped (hroute ▸ hv.grouped), before, s₁, s₂, hcame,
    Entitled.of_identify hkeys hid hcap, hasked, hrate⟩

/-- A request that is entitled gets behind the limiter if it is let pass. -/
theorem handling_of_entitled (h₀ : s₀.Fresh) {before between : List (GateAction ω)} {r : Request}
    {k : ℕ} {s₁ s₂ : GateState ω} {e : Route} {appID keyPrefix : String}
    (hbefore : run (gateStep deps) s₀ before = some s₁) (hindex : s₁.visits.length = k)
    (hbetween : run (gateStep deps) s₀ (before ++ .arrive r :: between) = some s₂)
    (hlimit : gateStep deps s₂ (.limit k) = some s)
    (hroute : deps.route r.method r.path = .guarded e)
    (hentitled : Entitled s₁.world r e appID keyPrefix) (hrate : WithinRate s₂.world r appID) :
    ∃ v id, s.visits[k]? = some v ∧ v.request = r ∧ v.phase = .handling id ∧ id.appID = appID ∧
      id.keyPrefix = keyPrefix := by
  obtain ⟨id, hid, rfl, rfl⟩ := hentitled.identify (gateInv_of_run h₀ hbefore).keys
  have hcap : e.capability ∈ id.capabilities := by
    obtain ⟨⟨bearer, -, hresolve⟩, -⟩ := identify_eq_ok.mp hid
    exact (mem_capabilities_of_resolve hresolve _).mpr hentitled.capable
  -- the visit as it came in
  obtain ⟨s₁', hs₁', hrest⟩ := run_append_eq_some.mp hbetween
  cases hbefore.symm.trans hs₁'
  obtain ⟨s₁'', harrive, hbetween'⟩ := run_cons_eq_some.mp hrest
  rw [gateStep, grouped_of_route hroute] at harrive
  obtain rfl := Option.some.inj harrive
  obtain ⟨v, hk, hrequest, hvroute, hphase⟩ := keepsVisit_of_run (k := k)
    (v := ⟨r, some e, arrivalPhase deps s₁.world.keys.db r⟩) (by simp [← hindex]) hbetween'
  -- the limiter was asked, so it was still identified
  cases gateEffect_of_step hlimit with
  | limited k' v' id' ha hk' hphase' hs =>
      cases ha
      cases hk.symm.trans hk'
      have harrival := hphase id' hphase'
      rw [arrivalPhase_eq_identified, hid] at harrival
      cases harrival
      obtain ⟨hlt, -⟩ := List.getElem?_eq_some_iff.mp hk
      have hphase : limitPhase v id (rateLimit s₂.world.limiter v.request.reading
          ⟨some id.appID, v.request.remoteAddr⟩).1 = .handling id := by
        refine limitPhase_eq_handling.mpr ⟨rfl, ?_, e, hvroute, hcap⟩
        rw [hrequest]
        exact hrate
      refine ⟨{ v with phase := .handling id }, id, ?_, hrequest, rfl, rfl, rfl⟩
      rw [hs, hphase]
      exact List.getElem?_set_self hlt
  | _ => simp_all

end Mediated

/-- **Complete mediation.** In every run that starts without keys: a request that is being handled
was entitled when it came in, and its app was within its rate when the limiter was asked; and a
request of which both is true is handled. A moment that is neither one of a handler nor a
transaction of the console leaves the keys and what is behind the handlers alone, and adds at most
the event of a refusal to the audit log. -/
theorem requests_mediated (deps : Deps ω) {s₀ s : GateState ω} (h₀ : s₀.Fresh)
    {as : List (GateAction ω)} (hrun : run (gateStep deps) s₀ as = some s) :
    (∀ k v id, s.visits[k]? = some v → v.phase = .handling id →
      ∃ e, Admitted deps s₀ as k v.request e id.appID id.keyPrefix) ∧
    (∀ before r between k s₁ s₂ e appID keyPrefix,
      as = before ++ .arrive r :: (between ++ [.limit k]) →
      run (gateStep deps) s₀ before = some s₁ → s₁.visits.length = k →
      run (gateStep deps) s₀ (before ++ .arrive r :: between) = some s₂ →
      deps.route r.method r.path = .guarded e → Entitled s₁.world r e appID keyPrefix →
      WithinRate s₂.world r appID →
      ∃ v id, s.visits[k]? = some v ∧ v.request = r ∧ v.phase = .handling id ∧
        id.appID = appID ∧ id.keyPrefix = keyPrefix) ∧
    ∀ a s', gateStep deps s a = some s' →
      (∃ x, a = .keys x) ∨
      (∃ k c v id, a = .act k c ∧ s.visits[k]? = some v ∧ v.phase = .handling id) ∨
      s'.world.keys = s.world.keys ∧ s'.world.app = s.world.app ∧
        (s'.world.audit = s.world.audit ∨ ∃ v ∈ s.visits, ∃ e, DeniedFor v.request e ∧
          s'.world.audit = (s.world.write deps e).audit) := by
  refine ⟨fun k v id hk hphase => ?_, ?_, fun a s' hstep => ?_⟩
  · obtain ⟨e, -, hadmitted⟩ := admitted_of_handling h₀ hrun hk hphase
    exact ⟨e, hadmitted⟩
  · intro before r between k s₁ s₂ e appID keyPrefix heq hbefore hindex hbetween hroute hentitled
      hrate
    rw [heq, ← List.cons_append, ← List.append_assoc] at hrun
    obtain ⟨s₂', hs₂', hlast⟩ := run_append_eq_some.mp hrun
    cases hbetween.symm.trans hs₂'
    obtain ⟨s', hlimit, hnil⟩ := run_cons_eq_some.mp hlast
    cases hnil
    exact handling_of_entitled h₀ hbefore hindex hbetween hlimit hroute hentitled hrate
  · rcases (gateEffect_of_step hstep).frame with hkeys | hact | ⟨hkeys, happ, haudit⟩
    · exact .inl hkeys
    · exact .inr (.inl hact)
    · refine .inr (.inr ⟨hkeys, happ, haudit.imp_right ?_⟩)
      rintro ⟨k, v, e, hk, hphase, heq⟩
      have hvisit := (gateInv_of_run h₀ hrun).visits k v hk
      exact ⟨v, List.mem_of_getElem? hk, e, hvisit.denied e hphase, heq⟩

/-- A gate without keys. -/
def freshGate : GateState ℕ := ⟨⟨emptyKeyState, none, [], [], 0⟩, []⟩

/-- The key is revoked after the request has come in. -/
def overtaken : List (GateAction ℕ) :=
  directKey.map .keys ++ [.arrive slowRequest, .keys (.revoke "news" "news1"), .limit 0,
    .act 0 (.app 1)]

/-- The app for which a request is handled. -/
def Visit.handledFor (v : Visit) : Option String :=
  match v.phase with
  | .handling id => some id.appID
  | _ => none

theorem overtaken_mediated :
    freshGate.Fresh ∧ ∃ s, run (gateStep countingDeps) freshGate overtaken = some s ∧
      s.visits.map Visit.handledFor = [some "news"] ∧
      ∀ k v id, s.visits[k]? = some v → v.phase = .handling id →
        ∃ e, Admitted countingDeps freshGate overtaken k v.request e id.appID id.keyPrefix := by
  have hfresh : freshGate.Fresh := ⟨rfl, rfl, rfl, rfl⟩
  have hrun : (run (gateStep countingDeps) freshGate overtaken).map
      (fun s => s.visits.map Visit.handledFor) = some [some "news"] := by decide +kernel
  obtain ⟨s, hs, hvisits⟩ := Option.map_eq_some_iff.mp hrun
  exact ⟨hfresh, s, hs, hvisits, (requests_mediated countingDeps hfresh hs).1⟩

/-! ### The nested middleware -/

/-- What a handler does, statement by statement. -/
def HandlerOutcome.changes (out : HandlerOutcome ω) : List (Change ω) :=
  out.keyActions.map .keys ++ out.events.map .audit ++ [.app out.app]

/-- The moments of the `k`-th request after it has come in. -/
def GateAction.OfVisit (k : ℕ) : GateAction ω → Prop
  | .limit j | .deny j | .act j _ | .finish j => j = k
  | .keys _ | .arrive _ => False

section Nested

variable {deps : Deps ω} {s : GateState ω} {k : ℕ} {v : Visit} {id : RequesterIdentity}

theorem foldl_change_keys (argon : Argon2) (w : World ω) (as : List KeyAction) :
    (as.map Change.keys).foldl (World.change argon) w =
      { w with keys := perform argon w.keys as } := by
  induction as generalizing w with
  | nil => rfl
  | cons a as ih => exact ih _

theorem foldl_change_audit (argon : Argon2) (w : World ω) (es : List Event) :
    (es.map Change.audit).foldl (World.change argon) w = { w with audit := w.audit ++ es } := by
  induction es generalizing w with
  | nil => simp
  | cons e es ih =>
      rw [List.map_cons, List.foldl_cons, ih]
      simp [World.change]

/-- The handler of a request served alone executes its statements one after the other. -/
theorem foldl_changes (e : Route) (ctx : Context) (r : Request) (w : World ω) :
    (deps.handler e ctx r w).changes.foldl (World.change deps.argon) w =
      (deps.handle e ctx r w).2 := by
  rw [HandlerOutcome.changes, List.foldl_append, List.foldl_append, foldl_change_keys,
    foldl_change_audit]
  rfl

variable (deps) in
theorem run_acts (hk : s.visits[k]? = some v) (hphase : v.phase = .handling id)
    (cs : List (Change ω)) : run (gateStep deps) s (cs.map (.act k)) =
      some { s with world := cs.foldl (World.change deps.argon) s.world } := by
  induction cs generalizing s with
  | nil => rfl
  | cons c cs ih =>
      have hstep : gateStep deps s (.act k c) =
          some { s with world := s.world.change deps.argon c } := by
        simp [gateStep, hk, hphase]
      rw [List.map_cons]
      simp only [run, hstep]
      exact ih hk

/-- What follows the limiter in a group. -/
def groupNext (deps : Deps ω) : Option Route → Handler ω
  | none => fun _ r w => (⟨deps.noRoute r, false⟩, w)
  | some e => requireCapability deps e.capability (deps.handle e)

theorem routes_of_grouped {r : Request} {route : Option Route}
    (h : deps.grouped r = some route) (ctx : Context) (w : World ω) :
    routes deps ctx r w = group deps (groupNext deps route) ctx r w := by
  unfold Deps.grouped at h
  unfold routes
  split at h <;> cases h <;> simp [*, groupNext]

/-- From `s`, the moments of the request alone lead to the world `w'`, up to the log. -/
def RunsAlone (deps : Deps ω) (s : GateState ω) (r : Request) (w' : World ω) : Prop :=
  ∃ moments s', (∀ a ∈ moments, a.OfVisit s.visits.length) ∧
    run (gateStep deps) s (.arrive r :: moments) = some s' ∧
      w' = { s'.world with log := w'.log }

theorem runsAlone_of_run (moments : List (GateAction ω)) {r : Request} {route : Option Route}
    {phase : VisitPhase} {w' : World ω} {s' : GateState ω} (hroute : deps.grouped r = some route)
    (hphase : arrivalPhase deps s.world.keys.db r = phase)
    (hmoments : ∀ a ∈ moments, a.OfVisit s.visits.length)
    (hrun : run (gateStep deps) { s with visits := s.visits ++ [⟨r, route, phase⟩] } moments =
      some s') (hw : w' = { s'.world with log := w'.log }) : RunsAlone deps s r w' := by
  refine ⟨moments, s', hmoments, run_cons_eq_some.mpr ⟨_, ?_, hrun⟩, hw⟩
  simp [gateStep, hroute, hphase]

theorem gateStep_limit (hk : s.visits[k]? = some v) (hphase : v.phase = .identified id) :
    gateStep deps s (.limit k) =
      some { (s.setPhase k v (limitPhase v id (rateLimit s.world.limiter v.request.reading
          ⟨some id.appID, v.request.remoteAddr⟩).1)) with
        world := chargedWorld s.world v.request id.appID } := by
  simp only [gateStep, hk, hphase]
  rfl

theorem gateStep_deny {e : Event} (hk : s.visits[k]? = some v) (hphase : v.phase = .denied e) :
    gateStep deps s (.deny k) =
      some { (s.setPhase k v .over) with world := s.world.write deps e } := by
  simp only [gateStep, hk, hphase]

theorem gateStep_finish (hk : s.visits[k]? = some v) (hphase : v.phase = .handling id) :
    gateStep deps s (.finish k) = some (s.setPhase k v .over) := by
  simp only [gateStep, hk, hphase]

variable (deps id) in
/-- What is behind the limiter, moment by moment. -/
theorem run_of_groupNext (hk : s.visits[k]? = some v) (hphase : v.phase = limitPhase v id .next) :
    ∃ moments s', (∀ a ∈ moments, GateAction.OfVisit k a) ∧
      run (gateStep deps) s moments = some s' ∧
      (groupNext deps v.route ⟨v.request.traceID, some id⟩ v.request s.world).2 = s'.world := by
  cases hroute : v.route with
  | none => exact ⟨[], s, by simp, rfl, rfl⟩
  | some e =>
      by_cases hcap : e.capability ∈ id.capabilities
      · have hhandling : v.phase = .handling id := by simp [hphase, limitPhase, hroute, hcap]
        have hacts := run_acts deps hk hhandling
          (deps.handler e ⟨v.request.traceID, some id⟩ v.request s.world).changes
        have hfinish (w : World ω) : run (gateStep deps) { s with world := w } [.finish k] =
            some (GateState.setPhase { s with world := w } k v .over) :=
          run_cons_eq_some.mpr ⟨_, gateStep_finish hk hhandling, rfl⟩
        refine ⟨_, _, ?_, run_append_eq_some.mpr ⟨_, hacts, hfinish _⟩, ?_⟩
        · simp only [List.mem_append, List.mem_map, List.mem_singleton]
          rintro a (⟨c, -, rfl⟩ | rfl) <;> rfl
        · simp only [groupNext, requireCapability, require, hcap, if_true]
          exact (foldl_changes e _ _ _).symm
      · have hdenied : v.phase = .denied (capabilityEvent { traceID := v.request.traceID } v.request
            id e.capability "forbidden") := by simp [hphase, limitPhase, hroute, hcap]
        refine ⟨[.deny k], _, by simp [GateAction.OfVisit], run_cons_eq_some.mpr
          ⟨_, gateStep_deny hk hdenied, rfl⟩, ?_⟩
        simp [groupNext, requireCapability, require, hcap, capabilityEvent]

/-- The gate of a group is a run of one request alone. -/
theorem runsAlone_gate {r : Request} {route : Option Route}
    (hroute : deps.grouped r = some route) :
    RunsAlone deps s r (authenticate deps (limitRate (groupNext deps route))
      { traceID := r.traceID } r s.world).2 := by
  have hvisit (v : Visit) : (s.visits ++ [v])[s.visits.length]? = some v := by simp
  rw [authenticate_limitRate, judge]
  cases hidentify : identify deps s.world.keys.db r with
  | error code =>
      exact runsAlone_of_run [.deny s.visits.length] hroute
        (by rw [arrivalPhase, hidentify]) (by simp [GateAction.OfVisit])
        (run_cons_eq_some.mpr ⟨_, gateStep_deny (hvisit _) rfl, rfl⟩) rfl
  | ok id =>
      have hphase : arrivalPhase deps s.world.keys.db r = .identified id :=
        arrivalPhase_eq_identified.mpr hidentify
      have hlimit : gateStep deps { s with visits := s.visits ++ [⟨r, route, .identified id⟩] }
          (.limit s.visits.length) = some ⟨chargedWorld s.world r id.appID, s.visits ++
            [⟨r, route, limitPhase ⟨r, route, .identified id⟩ id
              (rateLimit s.world.limiter r.reading ⟨some id.appID, r.remoteAddr⟩).1⟩]⟩ := by
        rw [gateStep_limit (hvisit _) rfl]
        simp [GateState.setPhase]
      dsimp only
      rcases hrate : rateLimit s.world.limiter r.reading ⟨some id.appID, r.remoteAddr⟩
        with ⟨answer, limiter⟩
      rw [chargedWorld, hrate] at hlimit
      cases answer with
      | tooManyRequests retryAfter =>
          exact runsAlone_of_run [.limit s.visits.length] hroute hphase
            (by simp [GateAction.OfVisit]) (run_cons_eq_some.mpr ⟨_, hlimit, rfl⟩) rfl
      | next =>
          obtain ⟨moments, s', hmoments, hrun, hworld⟩ := run_of_groupNext deps id
            (s := ⟨{ s.world with limiter := limiter }, s.visits ++
              [⟨r, route, limitPhase ⟨r, route, .identified id⟩ id .next⟩]⟩) (hvisit _) rfl
          exact runsAlone_of_run (.limit s.visits.length :: moments) hroute hphase
            (by simpa [GateAction.OfVisit] using hmoments)
            (run_cons_eq_some.mpr ⟨_, hlimit, hrun⟩) (by rw [hworld])

/-- The nested middleware of `NewRouter` is the run in which nobody comes in between. -/
theorem serveHTTP_runsAlone {r : Request} {route : Option Route}
    (hroute : deps.grouped r = some route) (s : GateState ω) :
    RunsAlone deps s r (serveHTTP deps s.world r).2 := by
  obtain ⟨moments, s', hmoments, hrun, hworld⟩ := runsAlone_gate (s := s) hroute
  rcases hgate : authenticate deps (limitRate (groupNext deps route)) { traceID := r.traceID } r
    s.world with ⟨reply, w'⟩
  have hserved := serveHTTP_world (fun ctx => routes_of_grouped hroute ctx s.world) hgate
  rw [hgate] at hworld
  dsimp only at hworld
  rw [hworld] at hserved
  exact ⟨moments, s', hmoments, hrun, hserved⟩

end Nested

end TelegramServer.Api

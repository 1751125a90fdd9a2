import TelegramServer.Api.Addressing
import TelegramServer.Api.Mediation

/-!
Message requests that are served at the same time (`NewRouter` with the handlers of
`messages_*.go`). A request that the gate has let in writes `received`; later its resolver looks up
the app, in one statement, and reads the users, in another; then it writes and sends one thing
after another. Between any two of these moments other requests go on, keys are issued and revoked,
and the bot and the operators change the database.

However all of this is interleaved, a message is sent only for a request that the gate let in, to a
user whom the endpoint selects by what the two statements of that request saw.
-/

namespace TelegramServer.Api

open Audit Auth Dispatch Go Lib Ratelimit Registry

def Endpoint.route : Endpoint → Route
  | .direct => .direct
  | .topic => .topic
  | .broadcast => .broadcast
  | .directDM => .directDM

/-- The endpoint behind a route. -/
def Route.endpoint : Route → Option Endpoint
  | .direct => some .direct
  | .topic => some .topic
  | .broadcast => some .broadcast
  | .directDM => some .directDM
  | .createApp | .patchApp | .deleteApp | .purgeApp | .patchUser | .subscribe | .unsubscribe
  | .searchAudit => none

theorem Route.endpoint_eq_some {route : Route} {e : Endpoint} :
    route.endpoint = some e ↔ route = e.route := by
  cases route <;> cases e <;> simp [Route.endpoint, Endpoint.route]

/-! ### Two statements -/

/-- `ResolveDirect`, with the app looked up in `db₁` and the users read in `db₂`. -/
def resolveDirectAcross (db₁ db₂ : Database) (planner : Planner) (userIDs : List ℤ)
    (appID : String) : Except StrategyErr ResolveResult :=
  if !appActive db₁ appID then .error .appNotFound
  else
    match directCandidates userIDs 0 (planner.arrange (directQuery db₂ userIDs appID)) with
    | none => .error .other
    | some cs => .ok (candidateLoop cs [] {})

/-- `ResolveTopic`, with the app looked up in `db₁` and the subscribers read in `db₂`. -/
def resolveTopicAcross (db₁ db₂ : Database) (appID requestMinGrade : String) :
    Except StrategyErr ResolveResult :=
  if !appActive db₁ appID then .error .appNotFound
  else
    let effectiveGrade := maxGrade (appMinGrade db₁ appID) requestMinGrade
    .ok ((topicQuery db₂ appID).foldl (fun res row => res.add (row.verdict effectiveGrade)) {})

/-- The strategies, with the statements of their resolvers in the databases as they then are. The
other two resolvers have one statement only. -/
def Endpoint.strategyAcross (db₁ db₂ : Database) (planner : Planner) : Endpoint → RouteStrategy
  | .direct =>
      { name := "direct"
        resolve := fun r =>
          if r.appID = "" then .error .appNotFound
          else if r.recipients = [] then .error .emptyRecipients
          else resolveDirectAcross db₁ db₂ planner r.recipients r.appID }
  | .topic =>
      { name := "topic"
        resolve := fun r =>
          if r.appID = "" then .error .appNotFound
          else resolveTopicAcross db₁ db₂ r.appID (normalizeGrade r.minGrade) }
  | .broadcast => broadcastAllStrategy db₂
  | .directDM => directDMStrategy db₂ planner

/-- The apps of the one database and the rest of the other. -/
def seenAcross (db₁ db₂ : Database) : Database := { db₂ with apps := db₁.apps }

/-- The two statements see what one statement would see in a database that need never have
existed. -/
theorem Endpoint.strategyAcross_eq (e : Endpoint) (db₁ db₂ : Database) (planner : Planner) :
    e.strategyAcross db₁ db₂ planner = e.strategy (seenAcross db₁ db₂) planner := by
  cases e <;> rfl

/-! ### Requests at work -/

/-- What the message handlers use. The fates of the audit writes and of the calls of `Send` of the
`k`-th request are up to it. -/
structure Messaging where
  deps : Deps Unit
  /-- `decodeStrict` on the body of a request. -/
  decode : String → Option DispatchRequest
  writer : ℕ → AuditWriter
  dispatcher : ℕ → Dispatcher

/-- A message request that the gate has let in. -/
structure Ticket where
  request : Request
  endpoint : Endpoint
  requester : RequesterIdentity

structure Job where
  ticket : Ticket
  /-- What it has done so far. -/
  done : Trace
  /-- The database in which it looked up the app. -/
  lookedUp : Option Database := none
  /-- What it is going to do, once it has read the users. -/
  left : Option Trace := none

namespace Messaging

variable (m : Messaging)

def httpRequest (t : Ticket) : HTTPRequest where
  traceID := t.request.traceID
  path := t.request.path
  requester := t.requester
  newMessageID := t.request.newMessageID
  body := m.decode t.request.body

/-- What the `k`-th request does. -/
def effects (k : ℕ) (db₁ db₂ : Database) (t : Ticket) : Trace :=
  (dispatchRun (m.httpRequest t) (t.endpoint.strategyAcross db₁ db₂ m.deps.planner)
    (m.dispatcher k) (m.writer k) t.endpoint.capability t.endpoint.opts).2

/-- The audit flow of the `k`-th request. Of the strategy, it has only the name. -/
def flow (k : ℕ) (t : Ticket) : AuditFlow :=
  dispatchFlow (m.httpRequest t) (t.endpoint.strategyAcross .empty .empty m.deps.planner)
    (some (m.writer k)) t.endpoint.capability

/-- The request writes `received`. -/
def start (k : ℕ) (t : Ticket) : Job where
  ticket := t
  done := (m.effects k .empty .empty t).take 1

end Messaging

structure TrafficState where
  gate : GateState Unit
  db : Database
  jobs : List Job := []
  /-- The audit writes and the calls of `Send` of all message requests. -/
  trace : Trace := []

inductive TrafficAction
  | gate (a : GateAction Unit)
  /-- The bot or an operator changes the registry. -/
  | database (db : Database)
  /-- The handler of the `v`-th request at the gate begins. -/
  | start (v : ℕ)
  | lookUp (k : ℕ)
  | read (k : ℕ)
  | emit (k : ℕ)

/-- A message request that is being handled. -/
def Visit.ticket (v : Visit) : Option Ticket :=
  match v.phase, v.route with
  | .handling id, some route => route.endpoint.map fun e => ⟨v.request, e, id⟩
  | _, _ => none

def TrafficState.setJob (s : TrafficState) (k : ℕ) (j : Job) : TrafficState :=
  { s with jobs := s.jobs.set k j }

def trafficStep (m : Messaging) (s : TrafficState) : TrafficAction → Option TrafficState
  | .gate a => (gateStep m.deps s.gate a).map fun gate => { s with gate := gate }
  | .database db => some { s with db := db }
  | .start v => do
      let visit ← s.gate.visits[v]?
      let t ← visit.ticket
      -- from here on the job stands for the request
      let gate ← gateStep m.deps s.gate (.finish v)
      let j := m.start s.jobs.length t
      return { s with gate := gate, jobs := s.jobs ++ [j], trace := s.trace ++ j.done }
  | .lookUp k => do
      let j ← s.jobs[k]?
      match j.lookedUp with
      | none => return s.setJob k { j with lookedUp := some s.db }
      | some _ => none
  | .read k => do
      let j ← s.jobs[k]?
      match j.lookedUp, j.left with
      | some db, none =>
          return s.setJob k { j with left := some ((m.effects k db s.db j.ticket).drop 1) }
      | _, _ => none
  | .emit k => do
      let j ← s.jobs[k]?
      match j.left with
      | some (x :: left) =>
          return { s.setJob k { j with done := j.done ++ [x], left := some left } with
            trace := s.trace ++ [x] }
      | some [] => none
      | none => none

/-! ### One request alone -/

section Alone

variable {f : AuditFlow} {w : AuditWriter} {disp : Dispatcher} {env : Envelope}

theorem head_of_attempted {tr : Trace} {e : Event} {es : List Event} (hsends : sends tr = [])
    (h : attempted tr = e :: es) : ∃ ok rest, tr = .audit e ok :: rest := by
  cases tr with
  | nil => cases h
  | cons x tr =>
      cases x with
      | audit e' ok =>
          rw [attempted_audit_cons] at h
          obtain ⟨rfl, -⟩ := List.cons.inj h
          exact ⟨ok, tr, rfl⟩
      | send rh env out => simp at hsends

/-- The first thing a request does is to write `received`. -/
theorem take_dispatchRun (r : HTTPRequest) (strat : RouteStrategy) (disp : Dispatcher)
    (w : AuditWriter) (cap : Capability) (opts : DispatchOpts) :
    (dispatchRun r strat disp w cap opts).2.take 1 =
      [.audit ((dispatchFlow r strat (some w) cap).event .received)
        (w [] ((dispatchFlow r strat (some w) cap).event .received))] := by
  have hhead : ∃ ok rest, (dispatchRun r strat disp w cap opts).2 =
      .audit ((dispatchFlow r strat (some w) cap).event .received) ok :: rest := by
    rcases runStrategyDispatch_run r strat disp w cap opts with
      ⟨hstop, -⟩ | ⟨req, resolved, -, -, -, hout⟩
    · rcases hstop.attempted with ⟨h, -⟩ | ⟨code, status, h, -⟩ | ⟨req, resolved, h, -⟩
      · exact head_of_attempted hstop.sends h
      · exact head_of_attempted hstop.sends h
      · exact head_of_attempted hstop.sends h
    · exact ⟨true, _, congrArg Prod.snd hout⟩
  obtain ⟨ok, rest, heq⟩ := hhead
  -- the answer is that of the writer
  have hanswered : AnsweredBy w disp (dispatchRun r strat disp w cap opts).2 :=
    keeps_runStrategyDispatch r strat cap opts [] answeredBy_nil
  obtain rfl : ok = w [] _ := hanswered [] _ rest heq
  rw [heq]
  rfl

/-- Every call of `Send` follows its `dispatched` event. -/
theorem dispatched_before_send {start rest before after : Trace} {rhs : List RecipientHandle}
    {rh : RecipientHandle} {env' : Envelope} {out : SendOutcome} (hrest : sends rest = [])
    (h : sendEffects f w disp env start rhs ++ rest = before ++ .send rh env' out :: after) :
    ∃ ok, .audit (dispatchedEvent f rh) ok ∈ before := by
  induction rhs generalizing start before with
  | nil =>
      rw [sendEffects, List.nil_append] at h
      simp [h] at hrest
  | cons rh' rhs ih =>
      simp only [sendEffects, roundEffects, List.cons_append, List.nil_append] at h
      obtain _ | ⟨x, _ | ⟨y, _ | ⟨z, before⟩⟩⟩ := before
      · simp at h
      · simp only [List.cons_append, List.nil_append, List.cons.injEq, Effect.send.injEq] at h
        obtain ⟨rfl, ⟨rfl, -, -⟩, -⟩ := h
        exact ⟨_, List.mem_singleton.mpr rfl⟩
      · simp at h
      · simp only [List.cons_append, List.cons.injEq] at h
        obtain ⟨-, -, -, h⟩ := h
        obtain ⟨ok, hok⟩ := ih h
        exact ⟨ok, by simp [hok]⟩

end Alone

namespace Messaging

variable {m : Messaging} {k : ℕ} {db₁ db₂ : Database} {t : Ticket}

theorem flow_eq (db₁ db₂ : Database) :
    dispatchFlow (m.httpRequest t) (t.endpoint.strategyAcross db₁ db₂ m.deps.planner)
      (some (m.writer k)) t.endpoint.capability = m.flow k t := by
  unfold flow
  cases t.endpoint <;> rfl

theorem take_effects (db₁ db₂ : Database) :
    (m.effects k db₁ db₂ t).take 1 = [.audit ((m.flow k t).event .received)
      (m.writer k [] ((m.flow k t).event .received))] := by
  rw [effects, take_dispatchRun, flow_eq]

/-- What a request sends, and what it wrote before. -/
theorem send_effects {before after : Trace} {rh : RecipientHandle} {env : Envelope}
    {out : SendOutcome} (h : m.effects k db₁ db₂ t = before ++ .send rh env out :: after) :
    ∃ req, m.decode t.request.body = some req ∧ requestRefusal t.endpoint.opts req = none ∧
      env = req.envelope ∧
      (∃ u ∈ db₂.users.rows, t.endpoint.Selects (seenAcross db₁ db₂) req u rh) ∧
      .audit ((m.flow k t).event .received) true ∈ before ∧
      (∃ resolved, .audit ((m.flow k t).validated req resolved) true ∈ before) ∧
      ∃ ok, .audit (dispatchedEvent (m.flow k t) rh) ok ∈ before := by
  have hmem : .send rh env out ∈ m.effects k db₁ db₂ t := by simp [h]
  obtain ⟨hstop, -⟩ | ⟨req, resolved, hresolved, -, -, hout⟩ :=
    runStrategyDispatch_run (m.httpRequest t) (t.endpoint.strategyAcross db₁ db₂ m.deps.planner)
      (m.dispatcher k) (m.writer k) t.endpoint.capability t.endpoint.opts
  · have hsent := mem_sends hmem
    rw [effects, hstop.sends] at hsent
    cases hsent
  · obtain ⟨hbody, hresolve⟩ := resolvedRequest_eq_some hresolved
    have hrefusal : requestRefusal t.endpoint.opts req = none := by
      simp only [resolvedRequest, hbody, Option.bind_some] at hresolved
      split at hresolved
      · assumption
      · cases hresolved
    rw [flow_eq] at hout
    have heffects : m.effects k db₁ db₂ t = _ := congrArg Prod.snd hout
    have hhandles := (completed_loops (m.dispatcher k) (m.writer k) t.endpoint.opts (m.flow k t) req
      resolved t.request.newMessageID).handles
    have hsent : (rh, env) ∈ resolved.recipients.map fun rh => (rh, req.envelope) := by
      rw [← hhandles]
      rw [heffects] at hmem
      exact List.mem_map.mpr ⟨_, mem_sends hmem, rfl⟩
    obtain ⟨rh', hrh, heq⟩ := List.mem_map.mp hsent
    obtain ⟨rfl, rfl⟩ := Prod.mk.inj heq
    rw [heffects, List.append_assoc] at h
    obtain ⟨hreceived, hvalidated⟩ := audits_before_send h
    rw [Endpoint.strategyAcross_eq] at hresolve
    refine ⟨req, hbody, hrefusal, rfl, (Endpoint.mem_recipients hresolve).mp hrh, hreceived,
      ⟨resolved, hvalidated⟩, ?_⟩
    -- the two audit writes come before the loops
    obtain _ | ⟨x, _ | ⟨y, before⟩⟩ := before
    · simp at h
    · simp at h
    · simp only [List.cons_append, List.nil_append, List.cons.injEq] at h
      obtain ⟨ok, hok⟩ := dispatched_before_send (sends_skipEffects ..) h.2.2
      exact ⟨ok, List.mem_cons_of_mem _ (List.mem_cons_of_mem _ hok)⟩

end Messaging

/-! ### One moment -/

/-- What a moment does. -/
inductive TrafficEffect (m : Messaging) (s : TrafficState) (a : TrafficAction)
    (s' : TrafficState) : Prop
  | gate (x : GateAction Unit) (gate : GateState Unit) (ha : a = .gate x)
      (hgate : gateStep m.deps s.gate x = some gate) (hs : s' = { s with gate := gate })
  | database (db : Database) (ha : a = .database db) (hs : s' = { s with db := db })
  | started (v : ℕ) (visit : Visit) (t : Ticket) (gate : GateState Unit) (ha : a = .start v)
      (hv : s.gate.visits[v]? = some visit) (ht : visit.ticket = some t)
      (hgate : gateStep m.deps s.gate (.finish v) = some gate)
      (hs : s' = { s with
        gate := gate
        jobs := s.jobs ++ [m.start s.jobs.length t]
        trace := s.trace ++ (m.start s.jobs.length t).done })
  | lookedUp (k : ℕ) (j : Job) (ha : a = .lookUp k) (hk : s.jobs[k]? = some j)
      (hs : s' = s.setJob k { j with lookedUp := some s.db })
  | read (k : ℕ) (j : Job) (db : Database) (ha : a = .read k) (hk : s.jobs[k]? = some j)
      (hlooked : j.lookedUp = some db) (hleft : j.left = none)
      (hs : s' = s.setJob k { j with left := some ((m.effects k db s.db j.ticket).drop 1) })
  | emitted (k : ℕ) (j : Job) (x : Effect) (left : Trace) (ha : a = .emit k)
      (hk : s.jobs[k]? = some j) (hleft : j.left = some (x :: left))
      (hs : s' = { s.setJob k { j with done := j.done ++ [x], left := some left } with
        trace := s.trace ++ [x] })

theorem Visit.ticket_eq_some {v : Visit} {t : Ticket} :
    v.ticket = some t ↔ v.request = t.request ∧ v.phase = .handling t.requester ∧
      v.route = some t.endpoint.route := by
  obtain ⟨request, route, phase⟩ := v
  obtain ⟨request', endpoint, requester⟩ := t
  cases phase <;> cases route <;>
    simp [Visit.ticket, Route.endpoint_eq_some, and_comm, and_assoc]

/-! ### Runs -/

/-- What an action is at the gate. -/
def TrafficAction.atGate : TrafficAction → Option (GateAction Unit)
  | .gate a => some a
  | .start v => some (.finish v)
  | .database _ | .lookUp _ | .read _ | .emit _ => none

def gateActions (as : List TrafficAction) : List (GateAction Unit) :=
  as.filterMap TrafficAction.atGate

theorem gateActions_concat (as : List TrafficAction) (a : TrafficAction) :
    gateActions (as ++ [a]) = gateActions as ++ a.atGate.toList := by
  rw [gateActions, List.filterMap_append, List.filterMap_cons]
  cases a.atGate <;> rfl

section Runs

variable (m : Messaging) (s₀ : TrafficState)

/-- The gate let the request in, and then it became the `k`-th job. -/
def Started (as : List TrafficAction) (k : ℕ) (t : Ticket) : Prop :=
  ∃ before after v s, as = before ++ .start v :: after ∧ run (trafficStep m) s₀ before = some s ∧
    s.jobs.length = k ∧
    Admitted m.deps s₀.gate (gateActions before) v t.request t.endpoint.route t.requester.appID
      t.requester.keyPrefix

/-- After that, it looked up the app in the database `db`. -/
def LookedUp (as : List TrafficAction) (k : ℕ) (t : Ticket) (db : Database) : Prop :=
  ∃ before after s, as = before ++ .lookUp k :: after ∧ run (trafficStep m) s₀ before = some s ∧
    s.db = db ∧ Started m s₀ before k t

/-- After that, it read the users in the database `db₂`. -/
def HasRead (as : List TrafficAction) (k : ℕ) (t : Ticket) (db₁ db₂ : Database) : Prop :=
  ∃ before after s, as = before ++ .read k :: after ∧ run (trafficStep m) s₀ before = some s ∧
    s.db = db₂ ∧ LookedUp m s₀ before k t db₁

structure JobInv (as : List TrafficAction) (k : ℕ) (j : Job) : Prop where
  started : Started m s₀ as k j.ticket
  lookedUp : ∀ db, j.lookedUp = some db → LookedUp m s₀ as k j.ticket db
  fresh : j.left = none → ∀ db₁ db₂, j.done = (m.effects k db₁ db₂ j.ticket).take 1
  reads : ∀ left, j.left = some left → ∃ db₁ db₂, HasRead m s₀ as k j.ticket db₁ db₂ ∧
    j.done ++ left = m.effects k db₁ db₂ j.ticket

/-- Where a message comes from. -/
structure Accounted (as : List TrafficAction) (before : Trace) (rh : RecipientHandle)
    (env : Envelope) (k : ℕ) (t : Ticket) (db₁ db₂ : Database) (req : DispatchRequest) : Prop where
  hasRead : HasRead m s₀ as k t db₁ db₂
  decoded : m.decode t.request.body = some req
  accepted : requestRefusal t.endpoint.opts req = none
  envelope : env = req.envelope
  selected : ∃ u ∈ db₂.users.rows, t.endpoint.Selects (seenAcross db₁ db₂) req u rh
  received : .audit ((m.flow k t).event .received) true ∈ before
  validated : ∃ resolved, .audit ((m.flow k t).validated req resolved) true ∈ before
  dispatched : ∃ ok, .audit (dispatchedEvent (m.flow k t) rh) ok ∈ before

structure TrafficInv (as : List TrafficAction) (s : TrafficState) : Prop where
  gate : run (gateStep m.deps) s₀.gate (gateActions as) = some s.gate
  jobs : ∀ k j, s.jobs[k]? = some j → JobInv m s₀ as k j
  recorded : ∀ j ∈ s.jobs, j.done ⊆ s.trace
  sends : ∀ before rh env out after, s.trace = before ++ .send rh env out :: after →
    ∃ k t db₁ db₂ req, Accounted m s₀ as before rh env k t db₁ db₂ req

variable {m s₀} {as : List TrafficAction} {k : ℕ} {j : Job} {t : Ticket} {db db₁ db₂ : Database}
  {s s' : TrafficState} {a : TrafficAction}

theorem Started.concat (h : Started m s₀ as k t) (a : TrafficAction) :
    Started m s₀ (as ++ [a]) k t := by
  obtain ⟨before, after, v, s, rfl, hrest⟩ := h
  exact ⟨before, after ++ [a], v, s, by simp, hrest⟩

theorem LookedUp.concat (h : LookedUp m s₀ as k t db) (a : TrafficAction) :
    LookedUp m s₀ (as ++ [a]) k t db := by
  obtain ⟨before, after, s, rfl, hrest⟩ := h
  exact ⟨before, after ++ [a], s, by simp, hrest⟩

theorem HasRead.concat (h : HasRead m s₀ as k t db₁ db₂) (a : TrafficAction) :
    HasRead m s₀ (as ++ [a]) k t db₁ db₂ := by
  obtain ⟨before, after, s, rfl, hrest⟩ := h
  exact ⟨before, after ++ [a], s, by simp, hrest⟩

theorem JobInv.concat (h : JobInv m s₀ as k j) (a : TrafficAction) :
    JobInv m s₀ (as ++ [a]) k j where
  started := h.started.concat a
  lookedUp db hdb := (h.lookedUp db hdb).concat a
  fresh := h.fresh
  reads left hleft := by
    obtain ⟨db₁, db₂, hread, heq⟩ := h.reads left hleft
    exact ⟨db₁, db₂, hread.concat a, heq⟩

theorem Accounted.concat {before : Trace} {rh : RecipientHandle} {env : Envelope}
    {req : DispatchRequest} (h : Accounted m s₀ as before rh env k t db₁ db₂ req)
    (a : TrafficAction) : Accounted m s₀ (as ++ [a]) before rh env k t db₁ db₂ req :=
  { h with hasRead := h.hasRead.concat a }

theorem gate_concat (h : run (gateStep m.deps) s₀.gate (gateActions as) = some s.gate)
    (hstep : TrafficEffect m s a s') :
    run (gateStep m.deps) s₀.gate (gateActions (as ++ [a])) = some s'.gate := by
  have hquiet : run (gateStep m.deps) s₀.gate (gateActions as ++ []) = some s.gate := by
    rwa [List.append_nil]
  rw [gateActions_concat]
  cases hstep with
  | gate x gate ha hgate hs =>
      subst ha hs
      exact run_concat h hgate
  | started v visit t gate ha hv ht hgate hs =>
      subst ha hs
      exact run_concat h hgate
  | database db ha hs =>
      subst ha hs
      exact hquiet
  | lookedUp k j ha hk hs =>
      subst ha hs
      exact hquiet
  | read k j db ha hk hlooked hleft hs =>
      subst ha hs
      exact hquiet
  | emitted k j x left ha hk hleft hs =>
      subst ha hs
      exact hquiet

/-- The job the step adds. -/
theorem jobInv_start (h₀ : s₀.gate.Fresh) (hrun : run (trafficStep m) s₀ as = some s)
    (hgate : run (gateStep m.deps) s₀.gate (gateActions as) = some s.gate) {v : ℕ} {visit : Visit}
    (hv : s.gate.visits[v]? = some visit) (ht : visit.ticket = some t) :
    JobInv m s₀ (as ++ [.start v]) s.jobs.length (m.start s.jobs.length t) := by
  obtain ⟨hrequest, hphase, hroute⟩ := Visit.ticket_eq_some.mp ht
  obtain ⟨e, he, hadmitted⟩ := admitted_of_handling h₀ hgate hv hphase
  obtain rfl := Option.some.inj (hroute.symm.trans he)
  refine ⟨⟨as, [], v, s, rfl, hrun, rfl, hrequest ▸ hadmitted⟩, nofun, fun _ db₁ db₂ => ?_, nofun⟩
  rw [Messaging.take_effects]
  exact Messaging.take_effects _ _

/-- The jobs after a step: one may be new, and one may have gone on. -/
theorem TrafficInv.jobs_step (h : TrafficInv m s₀ as s) (h₀ : s₀.gate.Fresh)
    (hrun : run (trafficStep m) s₀ as = some s) (hstep : TrafficEffect m s a s') {k : ℕ} {j' : Job}
    (hk : s'.jobs[k]? = some j') : JobInv m s₀ (as ++ [a]) k j' := by
  -- a job that was set
  have hset {i : ℕ} {j₁ : Job} (hset : (s.jobs.set i j₁)[k]? = some j') :
      JobInv m s₀ (as ++ [a]) k j' ∨ i = k ∧ j' = j₁ := by
    rw [List.getElem?_set] at hset
    split at hset
    · next hik =>
        split at hset
        · exact .inr ⟨hik, (Option.some.inj hset).symm⟩
        · cases hset
    · exact .inl ((h.jobs k j' hset).concat a)
  cases hstep with
  | gate x gate ha hgate hs =>
      subst hs
      exact (h.jobs k j' hk).concat a
  | database db ha hs =>
      subst hs
      exact (h.jobs k j' hk).concat a
  | started v visit t gate ha hv ht hgate hs =>
      subst ha hs
      rcases Nat.lt_trichotomy k s.jobs.length with hlt | rfl | hgt
      · exact (h.jobs k j' (by rwa [List.getElem?_append_left hlt] at hk)).concat _
      · obtain rfl : m.start s.jobs.length t = j' := by simpa using hk
        exact jobInv_start h₀ hrun h.gate hv ht
      · rw [List.getElem?_eq_none (by simp; omega)] at hk
        cases hk
  | lookedUp i j ha hi hs =>
      subst ha hs
      rcases hset hk with hinv | ⟨rfl, rfl⟩
      · exact hinv
      · have hj := h.jobs i j hi
        refine ⟨hj.started.concat _, fun db hdb => ?_, hj.fresh, fun left hleft => ?_⟩
        · cases hdb
          exact ⟨as, [], s, rfl, hrun, rfl, hj.started⟩
        · obtain ⟨db₁, db₂, hread, heq⟩ := hj.reads left hleft
          exact ⟨db₁, db₂, hread.concat _, heq⟩
  | read i j db ha hi hlooked hleft hs =>
      subst ha hs
      rcases hset hk with hinv | ⟨rfl, rfl⟩
      · exact hinv
      · have hj := h.jobs i j hi
        refine ⟨hj.started.concat _, fun db hdb => (hj.lookedUp db hdb).concat _, nofun,
          fun left heq => ?_⟩
        cases heq
        refine ⟨db, s.db, ⟨as, [], s, rfl, hrun, rfl, hj.lookedUp db hlooked⟩, ?_⟩
        rw [hj.fresh hleft db s.db]
        exact List.take_append_drop _ _
  | emitted i j x left ha hi hleft hs =>
      subst ha hs
      rcases hset hk with hinv | ⟨rfl, rfl⟩
      · exact hinv
      · have hj := h.jobs i j hi
        obtain ⟨db₁, db₂, hread, halone⟩ := hj.reads _ hleft
        refine ⟨hj.started.concat _, fun db hdb => (hj.lookedUp db hdb).concat _, nofun,
          fun left' heq => ?_⟩
        cases heq
        exact ⟨db₁, db₂, hread.concat _, by rw [← halone, List.append_assoc]; rfl⟩

/-- What a step adds to the record. -/
theorem TrafficEffect.trace (h : TrafficEffect m s a s') :
    s'.trace = s.trace ∧ (∀ j' ∈ s'.jobs, ∃ j ∈ s.jobs, j'.done = j.done) ∨
      ∃ x, s'.trace = s.trace ++ [x] ∧
        (∀ j' ∈ s'.jobs, j' ∈ s.jobs ∨ j'.done = [x] ∨ ∃ j ∈ s.jobs, j'.done = j.done ++ [x]) ∧
        ∀ rh env out, x = .send rh env out → ∃ (k : ℕ) (j : Job) (left : Trace),
          s.jobs[k]? = some j ∧ j.left = some (x :: left) := by
  cases h with
  | gate x gate ha hgate hs =>
      subst hs
      exact .inl ⟨rfl, fun j hj => ⟨j, hj, rfl⟩⟩
  | database db ha hs =>
      subst hs
      exact .inl ⟨rfl, fun j hj => ⟨j, hj, rfl⟩⟩
  | started v visit t gate ha hv ht hgate hs =>
      subst hs
      have hdone := Messaging.take_effects (m := m) (k := s.jobs.length) (t := t) .empty .empty
      refine .inr ⟨_, by rw [Messaging.start, hdone], fun j' hj' => ?_, fun _ _ _ hx => by cases hx⟩
      rcases List.mem_append.mp hj' with hj | hj
      · exact .inl hj
      · obtain rfl := List.mem_singleton.mp hj
        exact .inr (.inl hdone)
  | lookedUp k j ha hk hs =>
      subst hs
      refine .inl ⟨rfl, fun j' hj' => ?_⟩
      rcases List.mem_or_eq_of_mem_set hj' with hj' | rfl
      · exact ⟨j', hj', rfl⟩
      · exact ⟨j, List.mem_of_getElem? hk, rfl⟩
  | read k j db ha hk hlooked hleft hs =>
      subst hs
      refine .inl ⟨rfl, fun j' hj' => ?_⟩
      rcases List.mem_or_eq_of_mem_set hj' with hj' | rfl
      · exact ⟨j', hj', rfl⟩
      · exact ⟨j, List.mem_of_getElem? hk, rfl⟩
  | emitted k j x left ha hk hleft hs =>
      subst hs
      refine .inr ⟨x, rfl, fun j' hj' => ?_, fun _ _ _ _ => ⟨k, j, left, hk, hleft⟩⟩
      rcases List.mem_or_eq_of_mem_set hj' with hj' | rfl
      · exact .inl hj'
      · exact .inr (.inr ⟨j, List.mem_of_getElem? hk, rfl⟩)

theorem TrafficInv.recorded_step (h : TrafficInv m s₀ as s) (hstep : TrafficEffect m s a s') :
    ∀ j' ∈ s'.jobs, j'.done ⊆ s'.trace := by
  intro j' hj'
  rcases hstep.trace with ⟨htrace, hdone⟩ | ⟨x, htrace, hdone, -⟩
  · obtain ⟨j, hj, heq⟩ := hdone j' hj'
    rw [htrace, heq]
    exact h.recorded j hj
  · rw [htrace]
    rcases hdone j' hj' with hj | heq | ⟨j, hj, heq⟩
    · exact List.subset_append_of_subset_left _ (h.recorded j' hj)
    · rw [heq]
      exact List.subset_append_right _ _
    · rw [heq]
      exact List.append_subset.mpr ⟨List.subset_append_of_subset_left _ (h.recorded j hj),
        List.subset_append_right _ _⟩

/-- A message that is about to be sent. -/
theorem TrafficInv.accounted (h : TrafficInv m s₀ as s) {rh : RecipientHandle} {env : Envelope}
    {out : SendOutcome} {left : Trace} (hk : s.jobs[k]? = some j)
    (hleft : j.left = some (.send rh env out :: left)) :
    ∃ db₁ db₂ req, Accounted m s₀ as s.trace rh env k j.ticket db₁ db₂ req := by
  obtain ⟨db₁, db₂, hread, heffects⟩ := (h.jobs k j hk).reads _ hleft
  obtain ⟨req, hdecode, haccepted, henv, hselected, hreceived, ⟨resolved, hvalidated⟩, ok,
    hdispatched⟩ := Messaging.send_effects heffects.symm
  have hdone := h.recorded j (List.mem_of_getElem? hk)
  exact ⟨db₁, db₂, req, hread, hdecode, haccepted, henv, hselected, hdone hreceived,
    ⟨resolved, hdone hvalidated⟩, ⟨ok, hdone hdispatched⟩⟩

theorem TrafficInv.sends_step (h : TrafficInv m s₀ as s) (hstep : TrafficEffect m s a s') :
    ∀ before rh env out after, s'.trace = before ++ .send rh env out :: after →
      ∃ k t db₁ db₂ req, Accounted m s₀ (as ++ [a]) before rh env k t db₁ db₂ req := by
  intro before rh env out after heq
  -- what was sent before was accounted for
  have hold {after : Trace} (heq : s.trace = before ++ .send rh env out :: after) :
      ∃ k t db₁ db₂ req, Accounted m s₀ (as ++ [a]) before rh env k t db₁ db₂ req := by
    obtain ⟨k, t, db₁, db₂, req, hacc⟩ := h.sends before rh env out after heq
    exact ⟨k, t, db₁, db₂, req, hacc.concat a⟩
  rcases hstep.trace with ⟨htrace, -⟩ | ⟨x, htrace, -, hx⟩
  · exact hold (htrace ▸ heq)
  · rw [htrace] at heq
    rcases List.eq_nil_or_concat after with rfl | ⟨after, y, rfl⟩
    · obtain ⟨rfl, hsend⟩ := List.append_inj' heq rfl
      obtain rfl := (List.cons.inj hsend).1
      obtain ⟨k, j, left, hk, hleft⟩ := hx rh env out rfl
      obtain ⟨db₁, db₂, req, hacc⟩ := h.accounted hk hleft
      exact ⟨k, j.ticket, db₁, db₂, req, hacc.concat a⟩
    · rw [List.concat_eq_append, ← List.cons_append, ← List.append_assoc] at heq
      exact hold (List.append_inj' heq rfl).1

theorem TrafficInv.step (h : TrafficInv m s₀ as s) (h₀ : s₀.gate.Fresh)
    (hrun : run (trafficStep m) s₀ as = some s) (hstep : TrafficEffect m s a s') :
    TrafficInv m s₀ (as ++ [a]) s' :=
  ⟨gate_concat h.gate hstep, fun _ _ hk => h.jobs_step h₀ hrun hstep hk, h.recorded_step hstep,
    h.sends_step hstep⟩

end Runs

/-- Nobody has a key yet and nothing is under way. -/
structure TrafficState.Fresh (s : TrafficState) : Prop where
  gate : s.gate.Fresh
  jobs : s.jobs = []
  trace : s.trace = []

end TelegramServer.Api

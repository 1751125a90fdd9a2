import TelegramServer.Audit.Event
import TelegramServer.Auth.KeyLifecycle
import TelegramServer.Ratelimit.RetryAfter

/-!
What a request passes through before it reaches a handler (`internal/api/server.go` and
`internal/api/middleware`): its trace id, the recovery from panics, the access log, the time
limit, the key, the rate and the capability. The handlers and the matching of paths, which is
that of `chi`, are parameters. A handler may read everything there is, the keys and the audit log
included, and it may change the keys by any of the transactions on them.

A request that is served alone is handled exactly if its token is the plaintext of a live key of
an active app that has the capability, and the app is within its rate. Any other request changes
the limiter and the logs at most. The access log has the status and the size of the response,
unless the time limit was over: then it says 504, whatever the client got.
-/

namespace TelegramServer.Api

open Audit Auth Go Lib Ratelimit Registry

/-! ### Responses -/

/-- A call on an `http.ResponseWriter`. -/
inductive WriteOp
  | setHeader (name value : String)
  | writeHeader (status : ℕ)
  | write (text : String)

/-- What the client gets: the status of the first `WriteHeader`, and the header at that time. -/
structure Response where
  header : String → Option String := fun _ => none
  status : ℕ := 0
  body : String := ""

def Response.apply (resp : Response) : WriteOp → Response
  | .setHeader name value =>
      if resp.status = 0 then { resp with header := Function.update resp.header name (some value) }
      else resp
  | .writeHeader status => if resp.status = 0 then { resp with status := status } else resp
  | .write text =>
      { resp with
        status := if resp.status = 0 then 200 else resp.status
        body := resp.body ++ text }

def response (ops : List WriteOp) : Response :=
  let resp := ops.foldl Response.apply {}
  if resp.status = 0 then { resp with status := 200 } else resp

/-- `statusRecorder` keeps the status of the last `WriteHeader`. -/
structure StatusRecorder where
  status : ℕ := 0
  bytes : ℕ := 0

def StatusRecorder.apply (rec : StatusRecorder) : WriteOp → StatusRecorder
  | .setHeader _ _ => rec
  | .writeHeader status => { rec with status := status }
  | .write text =>
      { status := if rec.status = 0 then 200 else rec.status
        bytes := rec.bytes + text.utf8ByteSize }

/-- `http.Error`. -/
def httpError (text : String) (status : ℕ) : List WriteOp :=
  [.setHeader "Content-Type" "text/plain; charset=utf-8",
    .setHeader "X-Content-Type-Options" "nosniff", .writeHeader status, .write (text ++ "\n")]

def errorText (code : String) : String := "\x7b\"error\":\"" ++ code ++ "\"\x7d"

/-! ### Handlers -/

/-- The guarded routes of `NewRouter`. -/
inductive Route
  | createApp | patchApp | deleteApp | purgeApp | patchUser | subscribe | unsubscribe | searchAudit
  | direct | topic | broadcast | directDM
  deriving DecidableEq

def Route.capability : Route → Capability
  | .createApp | .patchApp | .deleteApp | .purgeApp | .subscribe | .unsubscribe => capAppsRegister
  | .patchUser => capUsersPromote
  | .searchAudit => capAuditSearch
  | .direct => capMessagesDirect
  | .topic => capMessagesTopic
  | .broadcast => capMessagesBroadcast
  | .directDM => capMessagesDirectDM

structure Request where
  method : String := "GET"
  /-- `r.URL.Path`. -/
  path : String := ""
  authorization : String := ""
  /-- The header `X-Trace-Id`. -/
  traceHeader : String := ""
  /-- The UUID that is drawn for a request without one. -/
  newTraceID : String := ""
  body : String := ""
  /-- The UUID of the audit flow of a handler. -/
  newMessageID : String := ""
  remoteAddr : String := ""
  /-- A query of `Resolve` or the ping of the health check fails. -/
  databaseFails : Bool := false
  /-- The reading of the limiter's clock. -/
  reading : Time := 0
  started : Time := 0
  finished : Time := 0
  /-- `HandlerTimeout` was over when the handler of the group returned. -/
  expired : Bool := false

/-- The trace id under which a request is served. -/
def Request.traceID (r : Request) : String :=
  if r.traceHeader = "" then r.newTraceID else r.traceHeader

structure Context where
  traceID : String := ""
  requester : Option RequesterIdentity := none

inductive LogLine
  | authDenied (traceID reason path : String)
  | access (traceID method path : String) (status bytes : ℕ) (durationMs : ℤ)
  | panicked (traceID : String)

/-- What a handler has called on its writer, and whether it ended in a panic. -/
structure Reply where
  ops : List WriteOp
  panicked : Bool := false

/-- The state of the server; `app` is what only handlers change. -/
structure World (ω : Type) where
  keys : KeyState
  limiter : Option BucketLimiter
  audit : List Event := []
  log : List LogLine := []
  app : ω

abbrev Handler (ω : Type) := Context → Request → World ω → Reply × World ω

inductive Routed
  | healthz
  | guarded (e : Route)
  /-- No route below `/admin` or `/v1`. -/
  | unrouted
  | notFound

/-- What a handler does: its transactions on the keys and the apps, the audit events it writes,
and the rest. -/
structure HandlerOutcome (ω : Type) where
  reply : Reply
  keyActions : List KeyAction := []
  events : List Event := []
  app : ω

structure Deps (ω : Type) where
  argon : Argon2
  planner : Planner
  /-- There is an audit writer. -/
  audited : Bool
  route : (method path : String) → Routed
  /-- What `chi` answers where there is no route. -/
  noRoute : Request → List WriteOp
  handler : Route → Context → Request → World ω → HandlerOutcome ω

variable {ω : Type}

/-- Transactions on the keys, one after the other; one that has to wait for a lock is not done. -/
def perform (argon : Argon2) (s : KeyState) (as : List KeyAction) : KeyState :=
  as.foldl (fun s a => (keyStep argon s a).getD s) s

def Deps.handle (deps : Deps ω) (e : Route) : Handler ω := fun ctx r w =>
  let out := deps.handler e ctx r w
  (out.reply, { w with
    keys := perform deps.argon w.keys out.keyActions
    audit := w.audit ++ out.events
    app := out.app })

def health : Handler ω := fun _ r w =>
  let (status, text) := if r.databaseFails then
      (503, "\x7b\"error\":\"db_unreachable\",\"ok\":false\x7d\n")
    else (200, "\x7b\"ok\":true\x7d\n")
  (⟨[.setHeader "Content-Type" "application/json", .writeHeader status, .write text], false⟩, w)

/-! ### Middleware -/

def requestID (next : Handler ω) : Handler ω := fun ctx r w =>
  let (reply, w) := next { ctx with traceID := r.traceID } r w
  ({ reply with ops := .setHeader "X-Trace-Id" r.traceID :: reply.ops }, w)

def recover (next : Handler ω) : Handler ω := fun ctx r w =>
  let (reply, w) := next ctx r w
  if reply.panicked then
    (⟨reply.ops ++ httpError (errorText "internal_error") 500, false⟩,
      { w with log := w.log ++ [.panicked ctx.traceID] })
  else (reply, w)

def sanitizePath (p : String) : String :=
  match cut p '?' with
  | some (before, _) => before
  | none => p

/-- The line is written after the call of `next`, and so not if that panics. -/
def accessLog (next : Handler ω) : Handler ω := fun ctx r w =>
  let (reply, w) := next ctx r w
  if reply.panicked then (reply, w)
  else
    let recorder := reply.ops.foldl StatusRecorder.apply {}
    (reply, { w with log := w.log ++ [.access ctx.traceID r.method (sanitizePath r.path)
      recorder.status recorder.bytes ((r.finished - r.started).tdiv 1000000)] })

/-- `chi`'s `Timeout`. It cancels the context and leaves the handler running; if the deadline was
over when the handler came back, or panicked, it writes a header of its own. -/
def timeout (next : Handler ω) : Handler ω := fun ctx r w =>
  let (reply, w) := next ctx r w
  if r.expired then ({ reply with ops := reply.ops ++ [.writeHeader 504] }, w) else (reply, w)

/-- A call of `Writer.Write` whose error is ignored. -/
def World.write (deps : Deps ω) (w : World ω) (e : Event) : World ω :=
  { w with audit := if deps.audited then w.audit ++ [e] else w.audit }

/-- The event of `denyAndAudit`. -/
def deniedEvent (ctx : Context) (r : Request) (code : String) : Event :=
  { traceID := ctx.traceID, stage := .denied, endpoint := r.path, errorCode := code }

def denyAndAudit (deps : Deps ω) (ctx : Context) (r : Request) (code : String) (status : ℕ)
    (w : World ω) : Reply × World ω :=
  let w := w.write deps (deniedEvent ctx r code)
  (⟨httpError (errorText code) status, false⟩,
    { w with log := w.log ++ [.authDenied ctx.traceID code r.path] })

/-- `Resolve` with the errors of the database; `none` is an error of neither kind. -/
def lookup (deps : Deps ω) (r : Request) (db : KeyDatabase) (bearer : String) :
    Except (Option KeyErr) RequesterIdentity :=
  match resolve deps.argon deps.planner db bearer with
  | .error .bearerMalformed => .error (some .bearerMalformed)
  | .error .keyNotFound => .error (if r.databaseFails then none else some .keyNotFound)
  | .ok id => if r.databaseFails then .error none else .ok id

def authenticate (deps : Deps ω) (next : Handler ω) : Handler ω := fun ctx r w =>
  let hdr := r.authorization
  if !hasPrefix hdr "Bearer " then denyAndAudit deps ctx r "missing_bearer" 401 w
  else
    let bearer := trimSpace (trimPrefix hdr "Bearer ")
    if bearer = "" then denyAndAudit deps ctx r "empty_bearer" 401 w
    else
      match lookup deps r w.keys.db bearer with
      | .error (some .bearerMalformed) => denyAndAudit deps ctx r "malformed_bearer" 401 w
      | .error (some .keyNotFound) => denyAndAudit deps ctx r "unknown_bearer" 401 w
      | .error none => denyAndAudit deps ctx r "invalid_bearer" 401 w
      | .ok id => next { ctx with requester := some id } r w

def limitRate (next : Handler ω) : Handler ω := fun ctx r w =>
  let inbound : Inbound := ⟨ctx.requester.map RequesterIdentity.appID, r.remoteAddr⟩
  match rateLimit w.limiter r.reading inbound with
  | (.next, limiter) => next ctx r { w with limiter := limiter }
  | (.tooManyRequests retryAfter, limiter) =>
      (⟨(retryAfter.toList.map fun s => .setHeader "Retry-After" s) ++
        httpError (errorText "rate_limited") 429, false⟩, { w with limiter := limiter })

inductive RequireErr
  | unauthorized | forbidden

/-- `auth.Require`. -/
def require (ctx : Context) (cap : Capability) : Except RequireErr Unit :=
  match ctx.requester with
  | none => .error .unauthorized
  | some id => if cap ∈ id.capabilities then .ok () else .error .forbidden

/-- The event of `RequireCapability`. -/
def capabilityEvent (ctx : Context) (r : Request) (id : RequesterIdentity) (cap : Capability)
    (code : String) : Event :=
  { traceID := ctx.traceID, stage := .denied, endpoint := r.path, appID := id.appID,
    capability := cap, errorCode := code }

def requireCapability (deps : Deps ω) (cap : Capability) (next : Handler ω) : Handler ω :=
  fun ctx r w =>
    match require ctx cap with
    | .ok () => next ctx r w
    | .error err =>
        let (code, status) := match err with
          | .unauthorized => ("unauthenticated", 401)
          | .forbidden => ("forbidden", 403)
        let id := ctx.requester.getD {}
        (⟨httpError (errorText code) status, false⟩, w.write deps
          (capabilityEvent ctx r id cap code))

/-- What the routes of a group use. -/
def group (deps : Deps ω) (next : Handler ω) : Handler ω :=
  timeout (authenticate deps (limitRate next))

/-- The routes of `NewRouter`. The middleware of a group also runs where the group has no
route. -/
def routes (deps : Deps ω) : Handler ω := fun ctx r w =>
  match deps.route r.method r.path with
  | .healthz => health ctx r w
  | .guarded e => group deps (requireCapability deps e.capability (deps.handle e)) ctx r w
  | .unrouted => group deps (fun _ r w => (⟨deps.noRoute r, false⟩, w)) ctx r w
  | .notFound => (⟨deps.noRoute r, false⟩, w)

def newRouter (deps : Deps ω) : Handler ω := requestID (recover (accessLog (routes deps)))

def serveHTTP (deps : Deps ω) (w : World ω) (r : Request) : Response × World ω :=
  let (reply, w) := newRouter deps {} r w
  (response reply.ops, w)

/-! ### The gate -/

/-- What becomes of a request at the gate of a group. -/
inductive Verdict
  | unauthenticated (code : String)
  | limited (id : RequesterIdentity) (retryAfter : Option String)
  | passed (id : RequesterIdentity)

/-- The token of a request, or the code of its refusal. -/
def bearerOf (r : Request) : Except String String :=
  if !hasPrefix r.authorization "Bearer " then .error "missing_bearer"
  else if trimSpace (trimPrefix r.authorization "Bearer ") = "" then .error "empty_bearer"
  else .ok (trimSpace (trimPrefix r.authorization "Bearer "))

/-- Who makes a request. -/
def identify (deps : Deps ω) (db : KeyDatabase) (r : Request) : Except String RequesterIdentity :=
  match bearerOf r with
  | .error code => .error code
  | .ok bearer =>
      match lookup deps r db bearer with
      | .error (some .bearerMalformed) => .error "malformed_bearer"
      | .error (some .keyNotFound) => .error "unknown_bearer"
      | .error none => .error "invalid_bearer"
      | .ok id => .ok id

def judge (deps : Deps ω) (w : World ω) (r : Request) : Verdict × Option BucketLimiter :=
  match identify deps w.keys.db r with
  | .error code => (.unauthenticated code, w.limiter)
  | .ok id =>
      match rateLimit w.limiter r.reading ⟨some id.appID, r.remoteAddr⟩ with
      | (.next, limiter) => (.passed id, limiter)
      | (.tooManyRequests retryAfter, limiter) => (.limited id retryAfter, limiter)

/-- The middleware of a group does what the verdict says. -/
theorem authenticate_limitRate (deps : Deps ω) (next : Handler ω) (ctx : Context) (r : Request)
    (w : World ω) :
    authenticate deps (limitRate next) ctx r w =
      match judge deps w r with
      | (.unauthenticated code, _) => denyAndAudit deps ctx r code 401 w
      | (.limited _ retryAfter, limiter) =>
          (⟨(retryAfter.toList.map fun s => .setHeader "Retry-After" s) ++
            httpError (errorText "rate_limited") 429, false⟩, { w with limiter := limiter })
      | (.passed id, limiter) =>
          next { ctx with requester := some id } r { w with limiter := limiter } := by
  unfold authenticate judge identify bearerOf
  by_cases hbearer : hasPrefix r.authorization "Bearer " = true
  · by_cases hempty : trimSpace (trimPrefix r.authorization "Bearer ") = ""
    · simp [hbearer, hempty]
    · simp only [hbearer, hempty, Bool.not_true, Bool.false_eq_true, if_false]
      cases lookup deps r w.keys.db (trimSpace (trimPrefix r.authorization "Bearer ")) with
      | error err =>
          cases err with
          | none => rfl
          | some err => cases err <;> rfl
      | ok id =>
          simp only [limitRate, Option.map_some]
          rcases rateLimit w.limiter r.reading ⟨some id.appID, r.remoteAddr⟩
            with ⟨_ | _, limiter⟩ <;> rfl
  · simp [hbearer]

/-! ### Around the routes -/

theorem timeout_world (next : Handler ω) (ctx : Context) (r : Request) (w : World ω) :
    (timeout next ctx r w).2 = (next ctx r w).2 := by
  unfold timeout
  dsimp only
  split <;> rfl

theorem timeout_panicked (next : Handler ω) (ctx : Context) (r : Request) (w : World ω) :
    (timeout next ctx r w).1.panicked = (next ctx r w).1.panicked := by
  unfold timeout
  dsimp only
  split <;> rfl

theorem timeout_ops (next : Handler ω) (ctx : Context) (r : Request) (w : World ω) :
    (timeout next ctx r w).1.ops =
      (next ctx r w).1.ops ++ if r.expired then [.writeHeader 504] else [] := by
  unfold timeout
  dsimp only
  split <;> simp

/-- The outer middleware touches nothing but the log. -/
theorem newRouter_world (deps : Deps ω) (r : Request) (w : World ω) :
    ∃ log, (newRouter deps {} r w).2 =
      { (routes deps { traceID := r.traceID } r w).2 with log := log } := by
  simp only [newRouter, requestID, recover, accessLog]
  by_cases hpanicked : (routes deps { traceID := r.traceID } r w).1.panicked = true
  · exact ⟨_, by simp [hpanicked]; rfl⟩
  · exact ⟨_, by simp [hpanicked]; rfl⟩

/-- The response to a handler that does not panic. -/
theorem newRouter_ops (deps : Deps ω) {r : Request} {w : World ω}
    (h : (routes deps { traceID := r.traceID } r w).1.panicked = false) :
    (newRouter deps {} r w).1.ops = .setHeader "X-Trace-Id" r.traceID ::
      (routes deps { traceID := r.traceID } r w).1.ops := by
  simp [newRouter, requestID, recover, accessLog, h]

/-! ### Mediation -/

/-- The app may use the route: the token is that of a live key, and so on. -/
structure Entitled (w : World ω) (r : Request) (e : Route) (appID keyPrefix : String) : Prop where
  token : ∃ bearer, bearerOf r = .ok bearer ∧ Live w.keys.history appID keyPrefix bearer
  active : AppActive w.keys.db appID
  capable : ⟨appID, e.capability⟩ ∈ w.keys.db.capabilities.rows
  available : r.databaseFails = false

/-- The limiter lets a request of the app pass. -/
def WithinRate (w : World ω) (r : Request) (appID : String) : Prop :=
  (rateLimit w.limiter r.reading ⟨some appID, r.remoteAddr⟩).1 = .next

/-- Both at once. -/
structure Allowed (w : World ω) (r : Request) (e : Route) (appID keyPrefix : String) : Prop
    extends Entitled w r e appID keyPrefix where
  withinRate : WithinRate w r appID

/-- The world a handler finds: the app has been charged. -/
def chargedWorld (w : World ω) (r : Request) (appID : String) : World ω :=
  { w with limiter := (rateLimit w.limiter r.reading ⟨some appID, r.remoteAddr⟩).2 }

/-- The handler was called for the app, and nothing else happened but the line in the log. -/
def Handled (deps : Deps ω) (w : World ω) (r : Request) (e : Route) (appID keyPrefix : String) :
    Prop :=
  ∃ id : RequesterIdentity, id.appID = appID ∧ id.keyPrefix = keyPrefix ∧
    (∀ c, c ∈ id.capabilities ↔ ⟨appID, c⟩ ∈ w.keys.db.capabilities.rows) ∧
    (serveHTTP deps w r).2 =
      { (deps.handle e ⟨r.traceID, some id⟩ r (chargedWorld w r appID)).2 with
        log := (serveHTTP deps w r).2.log }

/-- The event of a refusal, under the trace id and the path of the request. -/
def DeniedFor (r : Request) (e : Event) : Prop :=
  e.traceID = r.traceID ∧ e.stage = .denied ∧ e.endpoint = r.path

/-- How a request is refused: what it costs the limiter and what it leaves in the audit log. -/
inductive Refusal (deps : Deps ω) (w : World ω) (r : Request) (status : ℕ) (w' : World ω) : Prop
  | unauthenticated (hstatus : status = 401) (hlimiter : w'.limiter = w.limiter) (e : Event)
      (he : DeniedFor r e) (haudit : w'.audit = (w.write deps e).audit)
  | limited (appID : String) (hstatus : status = 429)
      (hlimiter : w'.limiter = (chargedWorld w r appID).limiter) (haudit : w'.audit = w.audit)
  | forbidden (appID : String) (hstatus : status = 403)
      (hlimiter : w'.limiter = (chargedWorld w r appID).limiter) (e : Event) (he : DeniedFor r e)
      (happ : e.appID = appID) (haudit : w'.audit = (w.write deps e).audit)

/-- No handler was called. -/
structure Refused (deps : Deps ω) (w : World ω) (r : Request) : Prop where
  keys : (serveHTTP deps w r).2.keys = w.keys
  app : (serveHTTP deps w r).2.app = w.app
  refusal : Refusal deps w r (serveHTTP deps w r).1.status (serveHTTP deps w r).2

section Mediation

variable {deps : Deps ω} {w : World ω} {r : Request} {e : Route} {appID keyPrefix : String}

theorem mem_capabilities_of_resolve {argon : Argon2} {planner : Planner} {db : KeyDatabase}
    {bearer : String} {id : RequesterIdentity} (h : resolve argon planner db bearer = .ok id)
    (c : Capability) : c ∈ id.capabilities ↔ ⟨id.appID, c⟩ ∈ db.capabilities.rows := by
  unfold resolve at h
  split at h
  · cases h
  · split at h
    · cases h
    · next k a _ =>
        cases h
        simp only [List.mem_map, List.mem_filter, decide_eq_true_eq]
        constructor
        · rintro ⟨⟨app, cap⟩, ⟨hmem, rfl⟩, rfl⟩
          exact hmem
        · intro hmem
          exact ⟨_, ⟨hmem, rfl⟩, rfl⟩

theorem identify_eq_ok {db : KeyDatabase} {id : RequesterIdentity} :
    identify deps db r = .ok id ↔ (∃ bearer, bearerOf r = .ok bearer ∧
      resolve deps.argon deps.planner db bearer = .ok id) ∧ r.databaseFails = false := by
  unfold identify lookup
  cases bearerOf r with
  | error code => simp
  | ok bearer =>
      cases hresolve : resolve deps.argon deps.planner db bearer with
      | error err => cases err <;> cases r.databaseFails <;> simp [hresolve]
      | ok id' => cases r.databaseFails <;> simp [hresolve]

theorem status_foldl_apply {resp : Response} (h : resp.status ≠ 0) (ops : List WriteOp) :
    (ops.foldl Response.apply resp).status = resp.status := by
  induction ops generalizing resp with
  | nil => rfl
  | cons op ops ih =>
      have hstep : (resp.apply op).status = resp.status := by
        cases op <;> simp [Response.apply, h]
      rw [List.foldl_cons, ih (hstep.symm ▸ h), hstep]

/-- The first status stays, whatever is written after it. -/
theorem status_httpError {status : ℕ} (hstatus : status ≠ 0) (headers : List (String × String))
    (text : String) (more : List WriteOp) :
    (response (headers.map (fun h => .setHeader h.1 h.2) ++ httpError text status ++ more)).status =
      status := by
  have hheaders (resp : Response) (hresp : resp.status = 0) :
      ((headers.map fun h => WriteOp.setHeader h.1 h.2).foldl Response.apply resp).status = 0 := by
    induction headers generalizing resp with
    | nil => exact hresp
    | cons h headers ih =>
        rw [List.map_cons, List.foldl_cons]
        exact ih _ (by simp [Response.apply, hresp])
  have hfirst : ((headers.map (fun h => WriteOp.setHeader h.1 h.2) ++ httpError text status).foldl
      Response.apply {}).status = status := by
    simp [List.foldl_append, httpError, Response.apply, hheaders {} rfl, hstatus]
  have hall := status_foldl_apply (by rw [hfirst]; exact hstatus) more
  rw [response, List.foldl_append, hall, hfirst, if_neg hstatus, hall, hfirst]

variable (deps) in
/-- What the gate makes of a request to a guarded route. -/
theorem gate_guarded (ctx : Context) :
    authenticate deps (limitRate (requireCapability deps e.capability (deps.handle e))) ctx r w =
      match judge deps w r with
      | (.unauthenticated code, _) => denyAndAudit deps ctx r code 401 w
      | (.limited _ retryAfter, limiter) =>
          (⟨(retryAfter.toList.map fun s => .setHeader "Retry-After" s) ++
            httpError (errorText "rate_limited") 429, false⟩, { w with limiter := limiter })
      | (.passed id, limiter) =>
          if e.capability ∈ id.capabilities then
            deps.handle e { ctx with requester := some id } r { w with limiter := limiter }
          else
            (⟨httpError (errorText "forbidden") 403, false⟩,
              ({ w with limiter := limiter } : World ω).write deps
                (capabilityEvent ctx r id e.capability "forbidden")) := by
  rw [authenticate_limitRate]
  rcases judge deps w r with ⟨verdict, limiter⟩
  cases verdict with
  | unauthenticated code => rfl
  | limited id retryAfter => rfl
  | passed id =>
      by_cases hcap : e.capability ∈ id.capabilities
      · simp [requireCapability, require, hcap]
      · simp [requireCapability, require, hcap, capabilityEvent]

/-- Behind the routes, a request changes what its gate changes. -/
theorem serveHTTP_world {next : Handler ω} {reply : Reply} {w' : World ω}
    (hroutes : ∀ ctx, routes deps ctx r w = group deps next ctx r w)
    (h : authenticate deps (limitRate next) { traceID := r.traceID } r w = (reply, w')) :
    (serveHTTP deps w r).2 = { w' with log := (serveHTTP deps w r).2.log } := by
  obtain ⟨log, hlog⟩ := newRouter_world deps r w
  rw [hroutes, group, timeout_world, h] at hlog
  simp only [serveHTTP, hlog]

/-- A refusal with headers of its own. -/
theorem serveHTTP_status {next : Handler ω} (headers : List (String × String)) {text : String}
    {status : ℕ} {w' : World ω} (hstatus : status ≠ 0)
    (hroutes : ∀ ctx, routes deps ctx r w = group deps next ctx r w)
    (h : authenticate deps (limitRate next) { traceID := r.traceID } r w =
      (⟨headers.map (fun h => .setHeader h.1 h.2) ++ httpError text status, false⟩, w')) :
    (serveHTTP deps w r).1.status = status := by
  have hops := newRouter_ops deps (r := r) (w := w)
    (by rw [hroutes, group, timeout_panicked, h])
  rw [hroutes, group, timeout_ops, h] at hops
  simp only [serveHTTP, hops]
  exact status_httpError hstatus (("X-Trace-Id", r.traceID) :: headers) text _

theorem map_setHeader (name : String) (values : List String) :
    (values.map fun s => WriteOp.setHeader name s) =
      (values.map fun s => (name, s)).map fun h => .setHeader h.1 h.2 := by
  rw [List.map_map]
  rfl

/-- A request that is entitled is identified. -/
theorem Entitled.identify (hinv : KeyInv deps.argon w.keys) (h : Entitled w r e appID keyPrefix) :
    ∃ id, identify deps w.keys.db r = .ok id ∧ id.appID = appID ∧ id.keyPrefix = keyPrefix := by
  obtain ⟨bearer, hbearer, hlive⟩ := h.token
  obtain ⟨id, hresolve, hid⟩ :=
    (exists_resolve_iff deps.planner hinv.toLiveKeys).mpr ⟨hlive, h.active⟩
  exact ⟨id, identify_eq_ok.mpr ⟨⟨bearer, hbearer, hresolve⟩, h.available⟩, hid⟩

theorem Entitled.of_identify (hinv : KeyInv deps.argon w.keys) {id : RequesterIdentity}
    (h : Api.identify deps w.keys.db r = .ok id) (hcap : e.capability ∈ id.capabilities) :
    Entitled w r e id.appID id.keyPrefix := by
  obtain ⟨⟨bearer, hbearer, hresolve⟩, havailable⟩ := identify_eq_ok.mp h
  obtain ⟨hlive, hactive⟩ :=
    (exists_resolve_iff deps.planner hinv.toLiveKeys).mp ⟨id, hresolve, rfl, rfl⟩
  exact ⟨⟨bearer, hbearer, hlive⟩, hactive, (mem_capabilities_of_resolve hresolve _).mp hcap,
    havailable⟩

/-- **One request**, served alone. -/
theorem serveHTTP_allowed_or_refused (hinv : KeyInv deps.argon w.keys)
    (hroute : deps.route r.method r.path = .guarded e) :
    (∃ appID keyPrefix, Allowed w r e appID keyPrefix ∧ Handled deps w r e appID keyPrefix) ∨
      (∀ appID keyPrefix, ¬Allowed w r e appID keyPrefix) ∧ Refused deps w r := by
  have hroutes (ctx : Context) : routes deps ctx r w =
      group deps (requireCapability deps e.capability (deps.handle e)) ctx r w := by
    rw [routes, hroute]
  have hgate := gate_guarded deps (w := w) (r := r) (e := e) { traceID := r.traceID }
  unfold judge at hgate
  cases hidentify : identify deps w.keys.db r with
  | error code =>
      rw [hidentify] at hgate
      refine .inr ⟨fun appID keyPrefix h => ?_, ?_⟩
      · obtain ⟨id, hid, -⟩ := h.toEntitled.identify hinv
        rw [hid] at hidentify
        cases hidentify
      · have hworld := serveHTTP_world hroutes hgate
        have hstatus := serveHTTP_status [] (by decide) hroutes hgate
        exact ⟨by rw [hworld]; rfl, by rw [hworld]; rfl, .unauthenticated hstatus
          (by rw [hworld]; rfl) (deniedEvent { traceID := r.traceID } r code) ⟨rfl, rfl, rfl⟩
          (by rw [hworld])⟩
  | ok id =>
      rw [hidentify] at hgate
      -- whoever is allowed is the app of the token
      have hsame {appID keyPrefix : String} (h : Allowed w r e appID keyPrefix) :
          appID = id.appID := by
        obtain ⟨id', hid', rfl, -⟩ := h.toEntitled.identify hinv
        rw [hid'] at hidentify
        cases hidentify
        rfl
      obtain ⟨⟨bearer, -, hresolve⟩, -⟩ := identify_eq_ok.mp hidentify
      have hcaps := mem_capabilities_of_resolve hresolve
      dsimp only at hgate
      rcases hrate : rateLimit w.limiter r.reading ⟨some id.appID, r.remoteAddr⟩
        with ⟨answer, limiter⟩
      rw [hrate] at hgate
      have hcharged : limiter = (chargedWorld w r id.appID).limiter := by rw [chargedWorld, hrate]
      cases answer with
      | tooManyRequests retryAfter =>
          refine .inr ⟨fun appID keyPrefix h => ?_, ?_⟩
          · have hwithin := h.withinRate
            rw [WithinRate, hsame h, hrate] at hwithin
            cases hwithin
          · dsimp only at hgate
            rw [map_setHeader] at hgate
            have hworld := serveHTTP_world hroutes hgate
            have hstatus := serveHTTP_status _ (by decide) hroutes hgate
            exact ⟨by rw [hworld], by rw [hworld],
              .limited id.appID hstatus (by rw [hworld]; exact hcharged) (by rw [hworld])⟩
      | next =>
          dsimp only at hgate
          by_cases hcap : e.capability ∈ id.capabilities
          · rw [if_pos hcap] at hgate
            have hentitled := Entitled.of_identify hinv hidentify hcap
            refine .inl ⟨id.appID, id.keyPrefix, ⟨hentitled, by rw [WithinRate, hrate]⟩, id, rfl,
              rfl, hcaps, ?_⟩
            have hworld := serveHTTP_world hroutes hgate
            rwa [hcharged] at hworld
          · rw [if_neg hcap] at hgate
            refine .inr ⟨fun appID keyPrefix h => hcap ((hcaps _).mpr (hsame h ▸ h.capable)), ?_⟩
            have hworld := serveHTTP_world hroutes hgate
            have hstatus := serveHTTP_status [] (by decide) hroutes hgate
            exact ⟨by rw [hworld]; rfl, by rw [hworld]; rfl, .forbidden id.appID hstatus
              (by rw [hworld]; exact hcharged)
              (capabilityEvent { traceID := r.traceID } r id e.capability "forbidden")
              ⟨rfl, rfl, rfl⟩ rfl (by rw [hworld]; rfl)⟩

end Mediation

/-! ### The log -/

/-- The handler leaves the trace id alone, and if it returns, it has written one header, first. -/
structure Reply.Orderly (reply : Reply) : Prop where
  keepsTraceID : ∀ value, .setHeader "X-Trace-Id" value ∉ reply.ops
  headerFirst : reply.panicked = false → ∃ (headers : List (String × String)) (status : ℕ)
    (texts : List String), status ≠ 0 ∧
      reply.ops =
        headers.map (fun h => .setHeader h.1 h.2) ++ .writeHeader status :: texts.map .write

section Log

variable {deps : Deps ω}

/-- The recorder has what the client gets. -/
def Recorded (resp : Response) (rec : StatusRecorder) : Prop :=
  resp.status ≠ 0 ∧ rec.status = resp.status ∧ rec.bytes = resp.body.utf8ByteSize

theorem Recorded.write {resp : Response} {rec : StatusRecorder} (h : Recorded resp rec)
    (texts : List String) :
    Recorded ((texts.map WriteOp.write).foldl Response.apply resp)
      ((texts.map WriteOp.write).foldl StatusRecorder.apply rec) := by
  induction texts generalizing resp rec with
  | nil => exact h
  | cons text texts ih =>
      obtain ⟨hne, hstatus, hbytes⟩ := h
      refine ih ⟨?_, ?_, ?_⟩
      · simp [Response.apply, hne]
      · simp [StatusRecorder.apply, Response.apply, hstatus, hne]
      · simp [StatusRecorder.apply, Response.apply, hbytes, String.utf8ByteSize_append]

/-- A second header changes what is recorded, not what the client gets. -/
theorem Recorded.late {ops : List WriteOp} {resp : Response} {rec : StatusRecorder}
    (h : Recorded resp rec) (hops : ops = [] ∨ ∃ status, ops = [.writeHeader status]) :
    ops.foldl Response.apply resp = resp ∧
      (ops.foldl StatusRecorder.apply rec).bytes = resp.body.utf8ByteSize := by
  rcases hops with rfl | ⟨status, rfl⟩
  · exact ⟨rfl, h.2.2⟩
  · exact ⟨by simp [Response.apply, h.1], h.2.2⟩

/-- The handlers, and what `chi` answers without a route, are orderly. -/
structure Deps.Orderly (deps : Deps ω) : Prop where
  handler : ∀ e ctx r w, (deps.handler e ctx r w).reply.Orderly
  noRoute : ∀ r, (⟨deps.noRoute r, false⟩ : Reply).Orderly

/-- The time limit of the group was over. -/
def Deps.timedOut (deps : Deps ω) (r : Request) : Bool :=
  match deps.route r.method r.path with
  | .guarded _ | .unrouted => r.expired
  | .healthz | .notFound => false

/-- What the time limit adds to a reply. -/
def Deps.lateOps (deps : Deps ω) (r : Request) : List WriteOp :=
  if deps.timedOut r then [.writeHeader 504] else []

/-- A reply of the routes: an orderly one, and what the time limit adds. -/
structure OrderlyRoute (deps : Deps ω) (ctx : Context) (r : Request) (w : World ω)
    (ops : List WriteOp) (denied : List LogLine) : Prop where
  orderly : Reply.Orderly ⟨ops, (routes deps ctx r w).1.panicked⟩
  ops_eq : (routes deps ctx r w).1.ops = ops ++ deps.lateOps r
  log_eq : (routes deps ctx r w).2.log = w.log ++ denied
  denied_eq : denied = [] ∨ ∃ code, denied = [.authDenied ctx.traceID code r.path]

theorem OrderlyRoute.keepsTraceID {ctx : Context} {r : Request} {w : World ω}
    {ops : List WriteOp} {denied : List LogLine} (h : OrderlyRoute deps ctx r w ops denied)
    (value : String) : .setHeader "X-Trace-Id" value ∉ (routes deps ctx r w).1.ops := by
  rw [h.ops_eq, List.mem_append, not_or]
  refine ⟨h.orderly.keepsTraceID value, ?_⟩
  unfold Deps.lateOps
  split <;> simp

end Log

/-- Every path is that of the direct messages, whose handler counts its calls. -/
def countingDeps : Deps ℕ where
  argon := plainArgon
  planner := .inOrder
  audited := true
  route _ _ := .guarded .direct
  noRoute _ := httpError "404 page not found" 404
  handler _ _ _ w := { reply := ⟨[.writeHeader 200, .write "ok"], false⟩, app := w.app + 1 }

/-- The random bytes behind `firstToken`. -/
def firstRandomness : Randomness := ⟨List.replicate 24 0, [], List.length_replicate⟩

/-- An app with the capability gets a key. -/
def directKey : List KeyAction :=
  [.createApp "news" ["messages.direct.send"], .submit ⟨"news", "news1", ""⟩ firstRandomness,
    .checkApp 0, .checkPrefix 0, .insert 0, .commit 0]

/-- A request that takes longer than `HandlerTimeout`. -/
def slowRequest : Request :=
  { method := "POST", path := "/v1/messages/direct", authorization := "Bearer " ++ firstToken,
    newTraceID := "t1", finished := 31 * second, expired := true }

end TelegramServer.Api

import TelegramServer.Audit.Event
import TelegramServer.Auth.Capability
import TelegramServer.Dispatch.Types
import TelegramServer.Lib.StateTriple
import Mathlib.Data.List.Basic

/-!
The pipeline behind the four message endpoints (`internal/api/handlers/common.go`
and the `messages_*.go` handlers).

A handler acts on the world in two ways, it attempts audit writes and it calls
`Send`. A `Trace` records both in order. The audit writer and the dispatcher are
functions of the trace so far, so a result that holds for every writer and every
dispatcher holds for every pattern of failures, including failures that depend
on what happened before.

Everything the pipeline does is read off one description of its run,
`runStrategyDispatch_run`: either it stops before the send loop, or its trace is
`received`, `validated` and then what the two loops append. That the trace is no
invention of the model is a separate invariant, `AnsweredBy`: whatever it records
is what the writer and the dispatcher answered when they were called there.
-/

namespace TelegramServer.Api

open Audit Auth Dispatch Lib

/-- One action of a handler on the outside world. -/
inductive Effect
  /-- `Writer.Write` was called; the flag says whether it returned nil. -/
  | audit (e : Event) (ok : Bool)
  /-- `Dispatcher.Send` was called. -/
  | send (rh : RecipientHandle) (env : Envelope) (out : SendOutcome)

abbrev Trace := List Effect

abbrev AuditWriter := Trace → Event → Bool

abbrev Dispatcher := Trace → RecipientHandle → Envelope → SendOutcome

/-- The body of a message request. -/
structure DispatchRequest where
  recipients : List ℤ := []
  appID : String := ""
  minGrade : String := ""
  envelope : Envelope := {}

/-- What a message handler reads from its request. `body` is `none` when
`decodeStrict` fails, and `newMessageID` is the UUID drawn for the request. -/
structure HTTPRequest where
  traceID : String
  path : String
  requester : RequesterIdentity
  newMessageID : String
  body : Option DispatchRequest

structure DispatchReport where
  userID : ℤ
  status : String
  reason : String := ""
  messageID : ℤ := 0
  deriving DecidableEq

structure DispatchResponse where
  messageID : String
  delivered : ℕ := 0
  skipped : ℕ := 0
  failed : ℕ := 0
  recipients : List DispatchReport := []
  deriving DecidableEq

inductive Body
  | error (code : String)
  | dispatch (resp : DispatchResponse)
  deriving DecidableEq

structure HTTPResponse where
  status : ℕ
  body : Body
  deriving DecidableEq

def writeError (status : ℕ) (code : String) : HTTPResponse := ⟨status, .error code⟩

/-- `writeAuditSafe`; the result is `true` when the error it returns is nil. -/
def writeAuditSafe (auditW : Option AuditWriter) (e : Event) : StateM Trace Bool :=
  match auditW with
  | none => pure true
  | some w => modifyGet fun tr => (w tr e, tr ++ [.audit e (w tr e)])

def send (disp : Dispatcher) (rh : RecipientHandle) (env : Envelope) :
    StateM Trace (Except DispatchErr DeliveryResult) :=
  modifyGet fun tr => ((disp tr rh env).result, tr ++ [.send rh env (disp tr rh env)])

structure AuditFlow where
  audit : Option AuditWriter
  base : Event

/-- `newAuditFlow`. The stage of the base event is never written: `event`
overwrites it. -/
def newAuditFlow (r : HTTPRequest) (auditW : Option AuditWriter) (cap : Capability) :
    AuditFlow where
  audit := auditW
  base :=
    { traceID := r.traceID, messageID := r.newMessageID, endpoint := r.path,
      appID := r.requester.appID, capability := cap,
      capabilitySetVer := r.requester.capabilitySetVer, stage := .received }

def AuditFlow.event (f : AuditFlow) (stage : Stage) : Event := { f.base with stage := stage }

def AuditFlow.denied (f : AuditFlow) (code : String) : Event :=
  { f.event .denied with errorCode := code }

/-- `auditFlow.deny`. -/
def AuditFlow.deny (f : AuditFlow) (code : String) (status : ℕ) : StateM Trace HTTPResponse := do
  let _ ← writeAuditSafe f.audit (f.denied code)
  return writeError status code

structure DispatchOpts where
  requireAppID : Bool := false
  requireRecipients : Bool := false
  allowMinGrade : Bool := false
  defaultChannel : DeliveryChannel

/-- The checks between decoding the body and resolving the recipients, in the
source's order. Every one of them answers 400. -/
def requestRefusal (opts : DispatchOpts) (req : DispatchRequest) : Option String :=
  if req.envelope.schemaVersion = 0 then some "missing_envelope_version"
  else if req.envelope.schemaVersion ≠ 1 then some "unsupported_envelope_version"
  else if req.envelope.text = "" then some "empty_envelope_text"
  else if opts.requireAppID ∧ req.appID = "" then some "missing_app_id"
  else if opts.requireRecipients ∧ req.recipients = [] then some "empty_recipients"
  else none

/-- What the strategy is asked: `min_grade` is dropped where it is not
allowed. -/
def strategyRequest (opts : DispatchOpts) (req : DispatchRequest) : Request where
  appID := req.appID
  recipients := req.recipients
  minGrade := if opts.allowMinGrade then req.minGrade else ""
  envelope := req.envelope

def resolveRefusal : StrategyErr → String × ℕ
  | .appNotFound => ("app_not_found", 400)
  | .emptyRecipients => ("empty_recipients", 400)
  | .other => ("resolver_error", 500)

def AuditFlow.validated (f : AuditFlow) (req : DispatchRequest) (resolved : ResolveResult) :
    Event :=
  { f.event .validated with
    details :=
      [("recipients_requested", .int req.recipients.length),
        ("recipients_resolved", .int resolved.recipients.length),
        ("recipients_skipped", .int resolved.skipped.length)] }

def AuditFlow.recipientEvent (f : AuditFlow) (stage : Stage) (channel : DeliveryChannel)
    (userID chatID : ℤ) (code : String) : Event :=
  { f.event stage with
    deliveryChannel := channel, recipientUserID := userID, recipientChatID := chatID,
    errorCode := code }

def classifyDispatchErr : DispatchErr → String
  | .chatNotFound => "chat_not_found"
  | .botNotAdmin => "bot_not_admin"
  | .rateLimited => "telegram_rate_limited"
  | .telegramAuth => "telegram_auth_failed"
  | .transient | .context => "telegram_transient"

/-- The loop over `resolved.Recipients`. -/
def sendLoop (f : AuditFlow) (disp : Dispatcher) (env : Envelope) :
    List RecipientHandle → DispatchResponse → StateM Trace DispatchResponse
  | [], resp => return resp
  | rh :: rest, resp => do
      let channel := rh.channel
      let _ ← writeAuditSafe f.audit
        (f.recipientEvent .dispatched channel rh.userID rh.chatID "")
      match ← send disp rh env with
      | .error sendErr =>
          let code := classifyDispatchErr sendErr
          let _ ← writeAuditSafe f.audit
            (f.recipientEvent .deferred channel rh.userID rh.chatID code)
          sendLoop f disp env rest
            { resp with
              failed := resp.failed + 1
              recipients := resp.recipients ++
                [{ userID := rh.userID, status := "failed", reason := code }] }
      | .ok result =>
          let _ ← writeAuditSafe f.audit
            (f.recipientEvent .delivered channel rh.userID rh.chatID "")
          sendLoop f disp env rest
            { resp with
              delivered := resp.delivered + 1
              recipients := resp.recipients ++
                [{ userID := rh.userID, status := "delivered",
                   messageID := result.telegramMessageID }] }

/-- The loop over `resolved.Skipped`. -/
def skipLoop (f : AuditFlow) (channel : DeliveryChannel) :
    List ResolveError → DispatchResponse → StateM Trace DispatchResponse
  | [], resp => return resp
  | sk :: rest, resp => do
      let _ ← writeAuditSafe f.audit (f.recipientEvent .denied channel sk.userID 0 sk.code)
      skipLoop f channel rest
        { resp with
          skipped := resp.skipped + 1
          recipients := resp.recipients ++
            [{ userID := sk.userID, status := "skipped", reason := sk.code }] }

/-- The flow of a message request: `newAuditFlow` with the strategy's name. -/
def dispatchFlow (r : HTTPRequest) (strat : RouteStrategy) (auditW : Option AuditWriter)
    (cap : Capability) : AuditFlow :=
  let flow := newAuditFlow r auditW cap
  { flow with base := { flow.base with routeStrategy := strat.name } }

def runStrategyDispatch (r : HTTPRequest) (strat : RouteStrategy) (disp : Dispatcher)
    (auditW : Option AuditWriter) (cap : Capability) (opts : DispatchOpts) :
    StateM Trace HTTPResponse := do
  let flow := dispatchFlow r strat auditW cap
  if !(← writeAuditSafe auditW (flow.event .received)) then
    return writeError 500 "audit_unavailable"
  match r.body with
  | none => flow.deny "malformed_json" 400
  | some req =>
      match requestRefusal opts req with
      | some code => flow.deny code 400
      | none =>
          match strat.resolve (strategyRequest opts req) with
          | .error err => flow.deny (resolveRefusal err).1 (resolveRefusal err).2
          | .ok resolved =>
              if !(← writeAuditSafe auditW (flow.validated req resolved)) then
                return writeError 500 "audit_unavailable"
              let resp ← sendLoop flow disp req.envelope resolved.recipients
                { messageID := flow.base.messageID }
              let resp ← skipLoop flow opts.defaultChannel resolved.skipped resp
              return ⟨200, .dispatch resp⟩

/-! ### Reading a trace -/

/-- One call of `Send`. -/
structure Sent where
  rh : RecipientHandle
  env : Envelope
  out : SendOutcome

def attempted (tr : Trace) : List Event :=
  tr.filterMap fun
    | .audit e _ => some e
    | .send _ _ _ => none

def sends (tr : Trace) : List Sent :=
  tr.filterMap fun
    | .audit _ _ => none
    | .send rh env out => some ⟨rh, env, out⟩

@[simp] theorem attempted_nil : attempted [] = [] := rfl

@[simp] theorem attempted_append (tr tr' : Trace) :
    attempted (tr ++ tr') = attempted tr ++ attempted tr' := List.filterMap_append

@[simp] theorem attempted_audit_cons (e : Event) (ok : Bool) (tr : Trace) :
    attempted (.audit e ok :: tr) = e :: attempted tr := rfl

@[simp] theorem attempted_send_cons (rh : RecipientHandle) (env : Envelope) (out : SendOutcome)
    (tr : Trace) : attempted (.send rh env out :: tr) = attempted tr := rfl

@[simp] theorem sends_nil : sends [] = [] := rfl

@[simp] theorem sends_append (tr tr' : Trace) : sends (tr ++ tr') = sends tr ++ sends tr' :=
  List.filterMap_append

@[simp] theorem sends_audit_cons (e : Event) (ok : Bool) (tr : Trace) :
    sends (.audit e ok :: tr) = sends tr := rfl

@[simp] theorem sends_send_cons (rh : RecipientHandle) (env : Envelope) (out : SendOutcome)
    (tr : Trace) : sends (.send rh env out :: tr) = ⟨rh, env, out⟩ :: sends tr := rfl

theorem mem_sends {tr : Trace} {rh : RecipientHandle} {env : Envelope} {out : SendOutcome}
    (h : .send rh env out ∈ tr) : ⟨rh, env, out⟩ ∈ sends tr :=
  List.mem_filterMap.mpr ⟨_, h, rfl⟩

/-! ### Who answered -/

section Answers

variable (w : AuditWriter) (disp : Dispatcher)

/-- The recorded answer is that of the audit writer, or of the dispatcher, called
after `before`. -/
def Effect.AnsweredAt (before : Trace) : Effect → Prop
  | .audit e ok => ok = w before e
  | .send rh env out => out = disp before rh env

/-- Every answer in the trace was given by the one who was called. -/
def AnsweredBy (tr : Trace) : Prop :=
  ∀ before x after, tr = before ++ x :: after → x.AnsweredAt w disp before

variable {w disp}

theorem answeredBy_nil : AnsweredBy w disp [] := by
  intro before x after hsplit
  simp at hsplit

theorem AnsweredBy.concat {tr : Trace} {x : Effect} (h : AnsweredBy w disp tr)
    (hx : x.AnsweredAt w disp tr) : AnsweredBy w disp (tr ++ [x]) := by
  intro before y after hsplit
  rcases after.eq_nil_or_concat with rfl | ⟨after, z, rfl⟩
  · obtain ⟨rfl, hxy⟩ := List.append_inj' hsplit rfl
    cases hxy
    exact hx
  · rw [List.concat_eq_append, ← List.cons_append, ← List.append_assoc] at hsplit
    exact h before y after (List.append_inj' hsplit rfl).1

theorem keeps_writeAuditSafe (e : Event) :
    Keeps (AnsweredBy w disp) (writeAuditSafe (some w) e) := fun _ h => h.concat rfl

theorem keeps_send (rh : RecipientHandle) (env : Envelope) :
    Keeps (AnsweredBy w disp) (send disp rh env) := fun _ h => h.concat rfl

theorem keeps_deny {f : AuditFlow} (hw : f.audit = some w) (code : String) (status : ℕ) :
    Keeps (AnsweredBy w disp) (f.deny code status) := by
  rw [AuditFlow.deny, hw]
  exact (keeps_writeAuditSafe _).bind fun _ => .pure

theorem keeps_sendLoop {f : AuditFlow} (hw : f.audit = some w) (env : Envelope)
    (rhs : List RecipientHandle) (resp : DispatchResponse) :
    Keeps (AnsweredBy w disp) (sendLoop f disp env rhs resp) := by
  induction rhs generalizing resp with
  | nil => exact .pure
  | cons rh rest ih =>
      rw [sendLoop, hw]
      refine (keeps_writeAuditSafe _).bind fun _ => (keeps_send rh env).bind fun res => ?_
      cases res with
      | error err => exact (keeps_writeAuditSafe _).bind fun _ => ih _
      | ok result => exact (keeps_writeAuditSafe _).bind fun _ => ih _

theorem keeps_skipLoop {f : AuditFlow} (hw : f.audit = some w) (channel : DeliveryChannel)
    (sks : List ResolveError) (resp : DispatchResponse) :
    Keeps (AnsweredBy w disp) (skipLoop f channel sks resp) := by
  induction sks generalizing resp with
  | nil => exact .pure
  | cons sk rest ih =>
      rw [skipLoop, hw]
      exact (keeps_writeAuditSafe _).bind fun _ => ih _

theorem keeps_runStrategyDispatch (r : HTTPRequest) (strat : RouteStrategy) (cap : Capability)
    (opts : DispatchOpts) :
    Keeps (AnsweredBy w disp) (runStrategyDispatch r strat disp (some w) cap opts) := by
  refine (keeps_writeAuditSafe _).bind fun received => .ite .pure ?_
  cases r.body with
  | none => exact keeps_deny rfl _ _
  | some req =>
      dsimp only
      cases requestRefusal opts req with
      | some code => exact keeps_deny rfl _ _
      | none =>
          dsimp only
          cases strat.resolve (strategyRequest opts req) with
          | error err => exact keeps_deny rfl _ _
          | ok resolved =>
              refine (keeps_writeAuditSafe _).bind fun validated => .ite .pure ?_
              refine (keeps_sendLoop rfl _ _ _).bind fun resp => ?_
              exact (keeps_skipLoop rfl _ _ _).bind fun _ => .pure

end Answers

/-! ### The two loops -/

/-- The audit event that follows a call of `Send`. -/
def answerEvent (f : AuditFlow) (s : Sent) : Event :=
  match s.out.result with
  | .error err =>
      f.recipientEvent .deferred s.rh.channel s.rh.userID s.rh.chatID (classifyDispatchErr err)
  | .ok _ => f.recipientEvent .delivered s.rh.channel s.rh.userID s.rh.chatID ""

def dispatchedEvent (f : AuditFlow) (rh : RecipientHandle) : Event :=
  f.recipientEvent .dispatched rh.channel rh.userID rh.chatID ""

def skippedEvent (f : AuditFlow) (channel : DeliveryChannel) (sk : ResolveError) : Event :=
  f.recipientEvent .denied channel sk.userID 0 sk.code

def sentReport (s : Sent) : DispatchReport :=
  match s.out.result with
  | .error err => { userID := s.rh.userID, status := "failed", reason := classifyDispatchErr err }
  | .ok result =>
      { userID := s.rh.userID, status := "delivered", messageID := result.telegramMessageID }

def skippedReport (sk : ResolveError) : DispatchReport :=
  { userID := sk.userID, status := "skipped", reason := sk.code }

def DispatchResponse.addSends (resp : DispatchResponse) (ss : List Sent) : DispatchResponse :=
  { resp with
    delivered := resp.delivered + ss.countP fun s => s.out.succeeded
    failed := resp.failed + ss.countP fun s => !s.out.succeeded
    recipients := resp.recipients ++ ss.map sentReport }

def DispatchResponse.addSkipped (resp : DispatchResponse) (sks : List ResolveError) :
    DispatchResponse :=
  { resp with
    skipped := resp.skipped + sks.length
    recipients := resp.recipients ++ sks.map skippedReport }

section Loops

variable (f : AuditFlow) (w : AuditWriter) (disp : Dispatcher) (env : Envelope)

/-- The effects of one round of the send loop that starts at `tr`. -/
def roundEffects (tr : Trace) (rh : RecipientHandle) : Trace :=
  let dispatched := dispatchedEvent f rh
  let tr₁ := tr ++ [.audit dispatched (w tr dispatched)]
  let out := disp tr₁ rh env
  let tr₂ := tr₁ ++ [.send rh env out]
  let answer := answerEvent f ⟨rh, env, out⟩
  [.audit dispatched (w tr dispatched), .send rh env out, .audit answer (w tr₂ answer)]

def sendEffects (tr : Trace) : List RecipientHandle → Trace
  | [] => []
  | rh :: rest =>
      roundEffects f w disp env tr rh ++
        sendEffects (tr ++ roundEffects f w disp env tr rh) rest

def skipEffects (channel : DeliveryChannel) (tr : Trace) : List ResolveError → Trace
  | [] => []
  | sk :: rest =>
      let e := skippedEvent f channel sk
      .audit e (w tr e) :: skipEffects channel (tr ++ [.audit e (w tr e)]) rest

variable {f w disp env}

theorem writeAuditSafe_run (w : AuditWriter) (e : Event) (tr : Trace) :
    (writeAuditSafe (some w) e).run tr = (w tr e, tr ++ [.audit e (w tr e)]) := rfl

theorem send_run (disp : Dispatcher) (rh : RecipientHandle) (env : Envelope) (tr : Trace) :
    (send disp rh env).run tr =
      ((disp tr rh env).result, tr ++ [.send rh env (disp tr rh env)]) := rfl

theorem addSends_singleton (resp : DispatchResponse) (s : Sent) :
    resp.addSends [s] =
      match s.out.result with
      | .error err =>
          { resp with
            failed := resp.failed + 1
            recipients := resp.recipients ++
              [{ userID := s.rh.userID, status := "failed", reason := classifyDispatchErr err }] }
      | .ok result =>
          { resp with
            delivered := resp.delivered + 1
            recipients := resp.recipients ++
              [{ userID := s.rh.userID, status := "delivered",
                 messageID := result.telegramMessageID }] } := by
  cases hres : s.out.result <;>
    simp [DispatchResponse.addSends, sentReport, SendOutcome.succeeded, Except.isOk,
      Except.toBool, hres]

/-- One round of the send loop. -/
theorem sendLoop_cons_run (hw : f.audit = some w) (rh : RecipientHandle)
    (rest : List RecipientHandle) (resp : DispatchResponse) (tr : Trace) :
    (sendLoop f disp env (rh :: rest) resp).run tr =
      (sendLoop f disp env rest
        (resp.addSends (sends (roundEffects f w disp env tr rh)))).run
          (tr ++ roundEffects f w disp env tr rh) := by
  simp only [sendLoop, run_bind, hw, writeAuditSafe_run, send_run, roundEffects, dispatchedEvent,
    answerEvent, sends_audit_cons, sends_send_cons, sends_nil, addSends_singleton]
  cases (disp (tr ++ [.audit (f.recipientEvent .dispatched rh.channel rh.userID rh.chatID "")
    (w tr (f.recipientEvent .dispatched rh.channel rh.userID rh.chatID ""))]) rh env).result with
  | error err => simp only [run_bind, writeAuditSafe_run, List.append_assoc, List.cons_append,
      List.nil_append]
  | ok result => simp only [run_bind, writeAuditSafe_run, List.append_assoc, List.cons_append,
      List.nil_append]

theorem addSends_append (resp : DispatchResponse) (ss ss' : List Sent) :
    resp.addSends (ss ++ ss') = (resp.addSends ss).addSends ss' := by
  simp [DispatchResponse.addSends, Nat.add_assoc]

theorem sendLoop_run (hw : f.audit = some w) (rhs : List RecipientHandle)
    (resp : DispatchResponse) (tr : Trace) :
    (sendLoop f disp env rhs resp).run tr =
      (resp.addSends (sends (sendEffects f w disp env tr rhs)),
        tr ++ sendEffects f w disp env tr rhs) := by
  induction rhs generalizing resp tr with
  | nil =>
      simp only [sendEffects, sends_nil, List.append_nil, DispatchResponse.addSends, List.map_nil]
      rfl
  | cons rh rest ih =>
      rw [sendLoop_cons_run hw, ih, sendEffects, sends_append, addSends_append, List.append_assoc]

theorem skipLoop_run (hw : f.audit = some w) (channel : DeliveryChannel)
    (sks : List ResolveError) (resp : DispatchResponse) (tr : Trace) :
    (skipLoop f channel sks resp).run tr =
      (resp.addSkipped sks, tr ++ skipEffects f w channel tr sks) := by
  induction sks generalizing resp tr with
  | nil =>
      simp only [skipEffects, List.append_nil, DispatchResponse.addSkipped, List.map_nil]
      rfl
  | cons sk rest ih =>
      simp only [skipLoop, run_bind, hw, writeAuditSafe_run]
      rw [ih]
      simp [skipEffects, skippedEvent, DispatchResponse.addSkipped, skippedReport,
        Nat.add_assoc, Nat.add_comm 1]

theorem rh_sendEffects (tr : Trace) (rhs : List RecipientHandle) :
    (sends (sendEffects f w disp env tr rhs)).map (fun s => (s.rh, s.env)) =
      rhs.map fun rh => (rh, env) := by
  induction rhs generalizing tr with
  | nil => rfl
  | cons rh rest ih => simp [sendEffects, roundEffects, ih]

theorem attempted_sendEffects (tr : Trace) (rhs : List RecipientHandle) :
    attempted (sendEffects f w disp env tr rhs) =
      (sends (sendEffects f w disp env tr rhs)).flatMap fun s =>
        [dispatchedEvent f s.rh, answerEvent f s] := by
  induction rhs generalizing tr with
  | nil => rfl
  | cons rh rest ih => simp [sendEffects, roundEffects, ih]

theorem sends_skipEffects (channel : DeliveryChannel) (tr : Trace) (sks : List ResolveError) :
    sends (skipEffects f w channel tr sks) = [] := by
  induction sks generalizing tr with
  | nil => rfl
  | cons sk rest ih => simp [skipEffects, ih]

theorem attempted_skipEffects (channel : DeliveryChannel) (tr : Trace)
    (sks : List ResolveError) :
    attempted (skipEffects f w channel tr sks) = sks.map (skippedEvent f channel) := by
  induction sks generalizing tr with
  | nil => rfl
  | cons sk rest ih => simp [skipEffects, ih]

end Loops

/-! ### Whole requests -/

/-- The recipients a request gets to: its body decodes and passes the checks,
and the strategy resolves it. -/
def resolvedRequest (r : HTTPRequest) (strat : RouteStrategy) (opts : DispatchOpts) :
    Option (DispatchRequest × ResolveResult) :=
  r.body.bind fun req =>
    match requestRefusal opts req, strat.resolve (strategyRequest opts req) with
    | none, .ok resolved => some (req, resolved)
    | _, _ => none

section Requests

variable (r : HTTPRequest) (strat : RouteStrategy) (disp : Dispatcher) (w : AuditWriter)
  (cap : Capability) (opts : DispatchOpts)

/-- A message request with a wired audit writer: the response and the trace. -/
def dispatchRun : HTTPResponse × Trace :=
  (runStrategyDispatch r strat disp (some w) cap opts).run []

/-- A request that stops before the send loop: it is not answered 200, it sends
nothing, and after `received` it attempts at most one more audit write. -/
structure Stopped (res : HTTPResponse) (tr : Trace) : Prop where
  status : res.status ≠ 200
  sends : sends tr = []
  attempted :
    let f := dispatchFlow r strat (some w) cap
    attempted tr = [f.event .received] ∧ res = writeError 500 "audit_unavailable" ∨
    (∃ code status, attempted tr = [f.event .received, f.denied code] ∧
      res = writeError status code) ∨
    ∃ req resolved, attempted tr = [f.event .received, f.validated req resolved] ∧
      res = writeError 500 "audit_unavailable"

/-- A denial after `received` stops the request. -/
theorem stopped_deny {code : String} {status : ℕ} (hstatus : status ≠ 200)
    {out : HTTPResponse × Trace}
    (hout : out = ((dispatchFlow r strat (some w) cap).deny code status).run
      [.audit ((dispatchFlow r strat (some w) cap).event .received) true]) :
    Stopped r strat w cap out.1 out.2 := by
  subst hout
  exact ⟨hstatus, rfl, .inr (.inl ⟨code, status, rfl, rfl⟩)⟩

/-- What the pipeline does once both audit writes before the loops went
through. -/
theorem loops_run (req : DispatchRequest) (resolved : ResolveResult) (start : Trace) :
    let f := dispatchFlow r strat (some w) cap
    let sent := sendEffects f w disp req.envelope start resolved.recipients
    (do
      let resp ← sendLoop f disp req.envelope resolved.recipients
        { messageID := f.base.messageID }
      let resp ← skipLoop f opts.defaultChannel resolved.skipped resp
      return (⟨200, .dispatch resp⟩ : HTTPResponse) : StateM Trace HTTPResponse).run start =
      (⟨200, .dispatch (({ messageID := r.newMessageID } : DispatchResponse).addSends
          (sends sent) |>.addSkipped resolved.skipped)⟩,
        start ++ sent ++ skipEffects f w opts.defaultChannel (start ++ sent) resolved.skipped) := by
  intro f sent
  have hf : f.audit = some w := rfl
  simp only [run_bind, sendLoop_run hf, skipLoop_run hf]
  rfl

/-- **The whole run of the pipeline.** Either it stops early, for one of three
reasons, or both audit writes went through and the two loops ran. -/
theorem runStrategyDispatch_run :
    let f := dispatchFlow r strat (some w) cap
    let received := f.event .received
    let out := dispatchRun r strat disp w cap opts
    (Stopped r strat w cap out.1 out.2 ∧
      (w [] received = false ∨ resolvedRequest r strat opts = none ∨
        ∃ req resolved, resolvedRequest r strat opts = some (req, resolved) ∧
          w [.audit received true] (f.validated req resolved) = false)) ∨
    ∃ req resolved, resolvedRequest r strat opts = some (req, resolved) ∧
      let validated := f.validated req resolved
      let start : Trace := [.audit received true, .audit validated true]
      let sent := sendEffects f w disp req.envelope start resolved.recipients
      w [] received = true ∧ w [.audit received true] validated = true ∧
      out = (⟨200, .dispatch (({ messageID := r.newMessageID } : DispatchResponse).addSends
          (sends sent) |>.addSkipped resolved.skipped)⟩,
        start ++ sent ++ skipEffects f w opts.defaultChannel (start ++ sent) resolved.skipped) := by
  intro f received out
  have hout : out = (runStrategyDispatch r strat disp (some w) cap opts).run [] := rfl
  simp only [runStrategyDispatch, run_bind, writeAuditSafe_run] at hout
  change out = (if (!w [] received) = true then _ else _ : StateM Trace HTTPResponse).run
    [.audit received (w [] received)] at hout
  cases hrec : w [] received with
  | false =>
      rw [hrec] at hout
      have hstop : out = (writeError 500 "audit_unavailable", [.audit received false]) := hout
      rw [hstop]
      exact .inl ⟨⟨by simp [writeError], rfl, .inl ⟨rfl, rfl⟩⟩, .inl rfl⟩
  | true =>
      rw [hrec] at hout
      simp only [Bool.not_true, Bool.false_eq_true, if_false] at hout
      cases hbody : r.body with
      | none =>
          rw [hbody] at hout
          refine .inl ⟨stopped_deny r strat w cap (by decide) hout, .inr (.inl ?_)⟩
          simp [resolvedRequest, hbody]
      | some req =>
          rw [hbody] at hout
          cases hrefuse : requestRefusal opts req with
          | some code =>
              simp only [hrefuse] at hout
              refine .inl ⟨stopped_deny r strat w cap (by decide) hout, .inr (.inl ?_)⟩
              simp [resolvedRequest, hbody, hrefuse]
          | none =>
              simp only [hrefuse] at hout
              cases hres : strat.resolve (strategyRequest opts req) with
              | error err =>
                  simp only [hres] at hout
                  have hstatus : (resolveRefusal err).2 ≠ 200 := by cases err <;> decide
                  refine .inl ⟨stopped_deny r strat w cap hstatus hout, .inr (.inl ?_)⟩
                  simp [resolvedRequest, hbody, hrefuse, hres]
              | ok resolved =>
                  simp only [hres, run_bind, writeAuditSafe_run] at hout
                  have hresolved : resolvedRequest r strat opts = some (req, resolved) := by
                    simp [resolvedRequest, hbody, hrefuse, hres]
                  change out = (if (!w [.audit received true] (f.validated req resolved)) = true
                    then _ else _ : StateM Trace HTTPResponse).run
                      ([.audit received true] ++ [.audit (f.validated req resolved)
                        (w [.audit received true] (f.validated req resolved))]) at hout
                  cases hval : w [.audit received true] (f.validated req resolved) with
                  | false =>
                      rw [hval] at hout
                      have hstop : out = (writeError 500 "audit_unavailable",
                        [.audit received true, .audit (f.validated req resolved) false]) := hout
                      rw [hstop]
                      exact .inl ⟨⟨by simp [writeError], rfl,
                        .inr (.inr ⟨req, resolved, rfl, rfl⟩)⟩,
                        .inr (.inr ⟨req, resolved, hresolved, hval⟩)⟩
                  | true =>
                      rw [hval] at hout
                      simp only [Bool.not_true, Bool.false_eq_true, if_false] at hout
                      exact .inr ⟨req, resolved, hresolved, rfl, hval,
                        hout.trans (loops_run r strat disp w cap opts req resolved _)⟩

theorem userID_sentReport (s : Sent) : (sentReport s).userID = s.rh.userID := by
  unfold sentReport
  split <;> rfl

theorem countP_succeeded_add (ss : List Sent) :
    (ss.countP fun s => s.out.succeeded) + (ss.countP fun s => !s.out.succeeded) = ss.length := by
  induction ss with
  | nil => rfl
  | cons s ss ih =>
      rw [List.countP_cons, List.countP_cons, List.length_cons]
      cases s.out.succeeded <;> simp <;> omega

/-- A send that comes after two audit writes has both of them before it. -/
theorem audits_before_send {a b : Event} {rest before after : Trace} {rh : RecipientHandle}
    {env : Envelope} {o : SendOutcome}
    (h : .audit a true :: .audit b true :: rest = before ++ .send rh env o :: after) :
    .audit a true ∈ before ∧ .audit b true ∈ before := by
  match before with
  | [] => simp at h
  | [_] => simp at h
  | x :: y :: before =>
      simp only [List.cons_append, List.cons.injEq] at h
      obtain ⟨rfl, rfl, -⟩ := h
      simp

/-- A request that ran both loops: what it sent, counted, reported and
attempted to audit, all in terms of its calls of `Send`. -/
structure Completed (f : AuditFlow) (opts : DispatchOpts) (req : DispatchRequest)
    (resolved : ResolveResult) (resp : DispatchResponse) (tr : Trace) : Prop where
  handles : (sends tr).map (fun s => (s.rh, s.env)) =
    resolved.recipients.map (fun rh => (rh, req.envelope))
  total : resp.delivered + resp.failed + resp.skipped = resp.recipients.length
  delivered : resp.delivered = (sends tr).countP fun s => s.out.succeeded
  failed : resp.failed = (sends tr).countP fun s => !s.out.succeeded
  skipped : resp.skipped = resolved.skipped.length
  reports : resp.recipients = (sends tr).map sentReport ++ resolved.skipped.map skippedReport
  names : resp.recipients.map DispatchReport.userID =
    resolved.recipients.map RecipientHandle.userID ++ resolved.skipped.map ResolveError.userID
  trail : attempted tr = f.event .received :: f.validated req resolved ::
    ((sends tr).flatMap fun s => [dispatchedEvent f s.rh, answerEvent f s]) ++
      resolved.skipped.map (skippedEvent f opts.defaultChannel)

theorem completed_loops (f : AuditFlow) (req : DispatchRequest) (resolved : ResolveResult)
    (messageID : String) :
    let start : Trace := [.audit (f.event .received) true, .audit (f.validated req resolved) true]
    let sent := sendEffects f w disp req.envelope start resolved.recipients
    let tr := start ++ sent ++ skipEffects f w opts.defaultChannel (start ++ sent) resolved.skipped
    Completed f opts req resolved
      (({ messageID := messageID } : DispatchResponse).addSends (sends sent) |>.addSkipped
        resolved.skipped) tr := by
  intro start sent tr
  have hsends : sends tr = sends sent := by simp [tr, start, sends_skipEffects]
  have hhandles : (sends sent).map (fun s => (s.rh, s.env)) =
      resolved.recipients.map (fun rh => (rh, req.envelope)) := rh_sendEffects _ _
  have hnames : (sends sent).map (fun s => s.rh.userID) =
      resolved.recipients.map RecipientHandle.userID := by
    have h := congrArg (List.map fun p => p.1.userID) hhandles
    rwa [List.map_map, List.map_map] at h
  refine ⟨hsends ▸ hhandles, ?_, ?_, ?_, ?_, ?_, ?_, ?_⟩
  · have hcount := countP_succeeded_add (sends sent)
    simp only [DispatchResponse.addSkipped, DispatchResponse.addSends, List.nil_append,
      List.length_append, List.length_map]
    omega
  · simp [DispatchResponse.addSkipped, DispatchResponse.addSends, hsends]
  · simp [DispatchResponse.addSkipped, DispatchResponse.addSends, hsends]
  · simp [DispatchResponse.addSkipped, DispatchResponse.addSends]
  · simp [DispatchResponse.addSkipped, DispatchResponse.addSends, hsends]
  · rw [← hnames]
    simp [DispatchResponse.addSkipped, DispatchResponse.addSends, userID_sentReport,
      skippedReport, Function.comp_def]
  · rw [hsends, ← attempted_sendEffects]
    simp [tr, start, attempted_skipEffects, sent]

/-- A request is answered 200 only where both audit writes before the loops went
through. -/
theorem status_eq_ok_iff :
    let f := dispatchFlow r strat (some w) cap
    (dispatchRun r strat disp w cap opts).1.status = 200 ↔
      w [] (f.event .received) = true ∧
      ∃ req resolved, resolvedRequest r strat opts = some (req, resolved) ∧
        w [.audit (f.event .received) true] (f.validated req resolved) = true := by
  intro f
  rcases runStrategyDispatch_run r strat disp w cap opts with
    ⟨hstop, hreason⟩ | ⟨req, resolved, hresolved, hreceived, hvalidated, hout⟩
  · refine iff_of_false hstop.status ?_
    rintro ⟨hreceived, req, resolved, hresolved, hvalidated⟩
    rcases hreason with hfalse | hnone | ⟨req', resolved', hresolved', hfalse⟩
    · exact absurd (hreceived.symm.trans hfalse) (by decide)
    · exact absurd (hresolved.symm.trans hnone) (by simp)
    · cases hresolved.symm.trans hresolved'
      exact absurd (hvalidated.symm.trans hfalse) (by decide)
  · rw [hout]
    exact iff_of_true rfl ⟨hreceived, req, resolved, hresolved, hvalidated⟩

/-- **The trail of a message request**, for every strategy, every dispatcher and
every pattern of audit failures. What the trail records is what the writer and
the dispatcher answered. No message is sent before both the `received` and the
`validated` write succeeded, and a request either runs both loops to the end,
with status 200, or sends nothing at all. -/
theorem runStrategyDispatch_trail :
    AnsweredBy w disp (dispatchRun r strat disp w cap opts).2 ∧
    let f := dispatchFlow r strat (some w) cap
    let received := f.event .received
    let out := dispatchRun r strat disp w cap opts
    (∀ before after rh env o, out.2 = before ++ .send rh env o :: after →
      o = disp before rh env ∧ w [] received = true ∧
      ∃ validated, validated.stage = .validated ∧
        w [.audit received true] validated = true ∧
        .audit received true ∈ before ∧ .audit validated true ∈ before) ∧
    (out.1.status = 200 ↔ w [] received = true ∧
      ∃ req resolved, resolvedRequest r strat opts = some (req, resolved) ∧
        w [.audit received true] (f.validated req resolved) = true) ∧
    (out.1.status ≠ 200 → Stopped r strat w cap out.1 out.2) ∧
    (out.1.status = 200 →
      ∃ req resolved resp, resolvedRequest r strat opts = some (req, resolved) ∧
        out.1.body = .dispatch resp ∧ Completed f opts req resolved resp out.2) := by
  have hanswered : AnsweredBy w disp (dispatchRun r strat disp w cap opts).2 :=
    keeps_runStrategyDispatch r strat cap opts [] answeredBy_nil
  refine ⟨hanswered, ?_⟩
  intro f received out
  refine ⟨?_, status_eq_ok_iff r strat disp w cap opts, ?_⟩
  · intro before after rh env o htr
    refine ⟨hanswered before _ after htr, ?_⟩
    rcases runStrategyDispatch_run r strat disp w cap opts with
      ⟨hstop, -⟩ | ⟨req, resolved, hresolved, hreceived, hvalidated, hout⟩
    · have hmem : (⟨rh, env, o⟩ : Sent) ∈ sends out.2 := mem_sends (by simp [htr])
      rw [hstop.sends] at hmem
      cases hmem
    · refine ⟨hreceived, f.validated req resolved, rfl, hvalidated, ?_⟩
      exact audits_before_send ((congrArg Prod.snd hout).symm.trans htr)
  · rcases runStrategyDispatch_run r strat disp w cap opts with
      ⟨hstop, -⟩ | ⟨req, resolved, hresolved, -, -, hout⟩
    · exact ⟨fun _ => hstop, fun hok => absurd hok hstop.status⟩
    · have hrun : out = _ := hout
      rw [hrun]
      exact ⟨fun hne => absurd rfl hne, fun _ =>
        ⟨req, resolved, _, hresolved, rfl, completed_loops disp w opts _ req resolved _⟩⟩

end Requests

/-! A run in which everything that may fail after the two fail-closed writes does
fail once: of two recipients the second is not reached and the write of its
`dispatched` event is lost, and a third one is skipped. -/

def mixedRequest : HTTPRequest where
  traceID := "t-1"
  path := "/v1/messages/direct"
  requester := { appID := "news" }
  newMessageID := "m-1"
  body := some { recipients := [7, 8, 9], envelope := { text := "hi", schemaVersion := 1 } }

def mixedStrategy : RouteStrategy where
  name := "direct"
  resolve _ := .ok
    { recipients := [{ userID := 7, chatID := 70, channel := channelDM },
        { userID := 8, chatID := 80, channel := channelDM }]
      skipped := [{ userID := 9, code := "recipient_blocked_bot" }] }

/-- The chat of user 8 is gone. -/
def mixedDispatcher : Dispatcher := fun _ rh _ =>
  if rh.userID = 8 then { accepted := false, result := .error .chatNotFound }
  else { accepted := true, result := .ok { telegramMessageID := 501, deliveredAt := 3 } }

def mixedWriter : AuditWriter := fun _ e => !(e.stage = .dispatched && e.recipientUserID = 8)

theorem mixedRun_trail :
    let out := dispatchRun mixedRequest mixedStrategy mixedDispatcher mixedWriter "send:direct"
      { defaultChannel := channelDM }
    out.1 = ⟨200, .dispatch
      { messageID := "m-1", delivered := 1, skipped := 1, failed := 1
        recipients :=
          [{ userID := 7, status := "delivered", messageID := 501 },
            { userID := 8, status := "failed", reason := "chat_not_found" },
            { userID := 9, status := "skipped", reason := "recipient_blocked_bot" }] }⟩ ∧
    (attempted out.2).map (fun e => (e.stage, e.recipientUserID)) =
      [(.received, 0), (.validated, 0), (.dispatched, 7), (.delivered, 7), (.dispatched, 8),
        (.deferred, 8), (.denied, 9)] ∧
    AnsweredBy mixedWriter mixedDispatcher out.2 :=
  ⟨by decide, by decide, (runStrategyDispatch_trail mixedRequest mixedStrategy mixedDispatcher
    mixedWriter "send:direct" { defaultChannel := channelDM }).1⟩

end TelegramServer.Api

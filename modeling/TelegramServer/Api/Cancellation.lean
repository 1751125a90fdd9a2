import TelegramServer.Api.StrategyDispatch
import Mathlib.Algebra.Order.Round
import Mathlib.Data.String.Basic

/-!
Message requests whose context is cancelled (the 30 s handler timeout of
`internal/api/server.go`, or a client that goes away). Every audit write and
every `Send` of a request uses the request's context, so from the moment of the
cancellation all of them fail.

Only the order of events matters, so time is counted in ticks: an audit write
takes one, a `Send` takes two, the first ends when Telegram takes the message
and the second when its answer is back. A context that is cancelled at tick `n`
lets happen what happens at a tick before `n`.

The send loop audits a delivery after it happened. A cancellation that falls
between the two leaves a message that Telegram accepted without its `delivered`
row, and by counting rows round by round these are the only such messages.
-/

namespace TelegramServer.Api

open Audit Auth Dispatch

def Effect.ticks : Effect → ℕ
  | .audit _ _ => 1
  | .send _ _ _ => 2

def elapsed (tr : Trace) : ℕ := (tr.map Effect.ticks).sum

@[simp] theorem elapsed_append (tr tr' : Trace) :
    elapsed (tr ++ tr') = elapsed tr + elapsed tr' := by
  simp [elapsed]

section Model

variable (cancelAt : ℕ) (telegram : ℕ → Except DispatchErr DeliveryResult)

/-- `PgWriter.Write` under a context that is cancelled at tick `cancelAt`. -/
def contextWriter : AuditWriter := fun tr _ => elapsed tr < cancelAt

/-- `Dispatcher.Send` under that context. `telegram i` is Telegram's verdict on
the `i`-th message of the request. -/
def contextDispatcher : Dispatcher := fun tr _ _ =>
  let start := elapsed tr
  if start < cancelAt then
    let answer := telegram (sends tr).length
    { accepted := answer.isOk
      result := if start + 1 < cancelAt then answer else .error .context }
  else { accepted := false, result := .error .context }

end Model

/-- The messages to a user's chat that Telegram accepted. -/
def acceptedCount (tr : Trace) (userID chatID : ℤ) : ℕ :=
  (sends tr).countP fun s => s.out.accepted && s.rh.userID == userID && s.rh.chatID == chatID

/-- The effect committed a `delivered` row of the message for a user's chat. -/
def Effect.commitsDelivered (messageID : String) (userID chatID : ℤ) : Effect → Bool
  | .audit e ok => ok && e.stage == .delivered && e.messageID == messageID &&
      e.recipientUserID == userID && e.recipientChatID == chatID
  | .send _ _ _ => false

def deliveredCount (messageID : String) (tr : Trace) (userID chatID : ℤ) : ℕ :=
  tr.countP (Effect.commitsDelivered messageID userID chatID)

/-- Every message Telegram accepted is matched by a `delivered` row of its own. -/
def NoUnauditedDelivery (messageID : String) (tr : Trace) : Prop :=
  ∀ userID chatID, acceptedCount tr userID chatID ≤ deliveredCount messageID tr userID chatID

@[simp] theorem acceptedCount_append (tr tr' : Trace) (userID chatID : ℤ) :
    acceptedCount (tr ++ tr') userID chatID =
      acceptedCount tr userID chatID + acceptedCount tr' userID chatID := by
  simp [acceptedCount]

@[simp] theorem deliveredCount_append (messageID : String) (tr tr' : Trace) (userID chatID : ℤ) :
    deliveredCount messageID (tr ++ tr') userID chatID =
      deliveredCount messageID tr userID chatID + deliveredCount messageID tr' userID chatID := by
  simp [deliveredCount]

/-- Where `tr` and `tr'` commit no more rows than they have accepted messages,
no row of one can stand in for a row the other lacks. -/
theorem noUnauditedDelivery_append {messageID : String} {tr tr' : Trace}
    (h : ∀ userID chatID, deliveredCount messageID tr userID chatID ≤
      acceptedCount tr userID chatID)
    (h' : ∀ userID chatID, deliveredCount messageID tr' userID chatID ≤
      acceptedCount tr' userID chatID) :
    NoUnauditedDelivery messageID (tr ++ tr') ↔
      NoUnauditedDelivery messageID tr ∧ NoUnauditedDelivery messageID tr' := by
  unfold NoUnauditedDelivery
  rw [← forall_and]
  refine forall_congr' fun userID => ?_
  rw [← forall_and]
  refine forall_congr' fun chatID => ?_
  have hle := h userID chatID
  have hle' := h' userID chatID
  rw [acceptedCount_append, deliveredCount_append]
  omega

section Rounds

variable {cancelAt : ℕ} {telegram : ℕ → Except DispatchErr DeliveryResult} {f : AuditFlow}
  {env : Envelope}

theorem elapsed_roundEffects {w : AuditWriter} {disp : Dispatcher} (tr : Trace)
    (rh : RecipientHandle) : elapsed (roundEffects f w disp env tr rh) = 4 := rfl

theorem length_sends_roundEffects {w : AuditWriter} {disp : Dispatcher} (tr : Trace)
    (rh : RecipientHandle) : (sends (roundEffects f w disp env tr rh)).length = 1 := rfl

/-- `Send` in round `i`: whether Telegram takes the message, and whether the
handler hears of it. -/
theorem contextDispatcher_eq {tr : Trace} {i : ℕ} (helapsed : elapsed tr = 4 * i + 3)
    (hsends : (sends tr).length = i) (rh : RecipientHandle) :
    let out := contextDispatcher cancelAt telegram tr rh env
    out.accepted = (decide (4 * i + 3 < cancelAt) && (telegram i).isOk) ∧
      out.succeeded = (decide (4 * i + 4 < cancelAt) && (telegram i).isOk) := by
  simp only [contextDispatcher, SendOutcome.succeeded, helapsed, hsends]
  by_cases hstart : 4 * i + 3 < cancelAt
  · by_cases hanswer : 4 * i + 4 < cancelAt
    · simp [hstart, hanswer]
    · simp [hstart, hanswer, Except.isOk, Except.toBool]
  · have hanswer : ¬4 * i + 4 < cancelAt := by omega
    simp [hstart, hanswer, Except.isOk, Except.toBool]

theorem commitsDelivered_answerEvent (s : Sent) (ok : Bool) (userID chatID : ℤ) :
    Effect.commitsDelivered f.base.messageID userID chatID (.audit (answerEvent f s) ok) =
      (ok && s.out.succeeded && s.rh.userID == userID && s.rh.chatID == chatID) := by
  unfold answerEvent SendOutcome.succeeded
  cases s.out.result <;>
    simp [Effect.commitsDelivered, AuditFlow.recipientEvent, AuditFlow.event, Except.isOk,
      Except.toBool]

variable (cancelAt telegram f env)

/-- Round `i`, in numbers: Telegram takes the message if it is willing and tick
`4 * i + 3` is before the cancellation, and its row is committed if tick
`4 * i + 5` is too. -/
theorem roundEffects_counts {tr : Trace} {i : ℕ} (helapsed : elapsed tr = 4 * i + 2)
    (hsends : (sends tr).length = i) (rh : RecipientHandle) (userID chatID : ℤ) :
    let round := roundEffects f (contextWriter cancelAt) (contextDispatcher cancelAt telegram)
      env tr rh
    let here := (rh.userID = userID ∧ rh.chatID = chatID) ∧ (telegram i).isOk
    acceptedCount round userID chatID = (if here ∧ 4 * i + 3 < cancelAt then 1 else 0) ∧
    deliveredCount f.base.messageID round userID chatID =
      (if here ∧ 4 * i + 5 < cancelAt then 1 else 0) := by
  intro round here
  let dispatched : Effect := .audit (dispatchedEvent f rh) (contextWriter cancelAt tr
    (dispatchedEvent f rh))
  let out := contextDispatcher cancelAt telegram (tr ++ [dispatched]) rh env
  have hticks : elapsed (tr ++ [dispatched]) = 4 * i + 3 := by
    rw [elapsed_append, helapsed]
    rfl
  have hticks' : elapsed (tr ++ [dispatched] ++ [.send rh env out]) = 4 * i + 5 := by
    rw [elapsed_append, hticks]
    rfl
  have hlength : (sends (tr ++ [dispatched])).length = i := by
    simpa [dispatched] using hsends
  obtain ⟨haccepted, hsucceeded⟩ : out.accepted = _ ∧ out.succeeded = _ :=
    contextDispatcher_eq hticks hlength rh
  have hround : round = [dispatched, .send rh env out, .audit (answerEvent f ⟨rh, env, out⟩)
      (decide (4 * i + 5 < cancelAt))] := by
    rw [← hticks']
    rfl
  have hdispatched : dispatched.commitsDelivered f.base.messageID userID chatID = false := by
    simp [dispatched, Effect.commitsDelivered, dispatchedEvent, AuditFlow.recipientEvent,
      AuditFlow.event]
  rw [hround]
  constructor
  · have hcount : acceptedCount [dispatched, .send rh env out,
        .audit (answerEvent f ⟨rh, env, out⟩) (decide (4 * i + 5 < cancelAt))] userID chatID =
        if (out.accepted && rh.userID == userID && rh.chatID == chatID) = true then 1 else 0 := by
      simp [acceptedCount, dispatched]
    rw [hcount, haccepted]
    refine if_congr ?_ rfl rfl
    simp only [here, Bool.and_eq_true, beq_iff_eq, decide_eq_true_eq]
    tauto
  · have hcount : deliveredCount f.base.messageID [dispatched, .send rh env out,
        .audit (answerEvent f ⟨rh, env, out⟩) (decide (4 * i + 5 < cancelAt))] userID chatID =
        if (decide (4 * i + 5 < cancelAt) && out.succeeded && rh.userID == userID &&
          rh.chatID == chatID) = true then 1 else 0 := by
      rw [deliveredCount, List.countP_cons_of_neg (by simp [hdispatched]),
        List.countP_cons_of_neg (by simp [Effect.commitsDelivered]), List.countP_singleton,
        commitsDelivered_answerEvent]
    have hlate : 4 * i + 5 < cancelAt → 4 * i + 4 < cancelAt := by omega
    rw [hcount, hsucceeded]
    refine if_congr ?_ rfl rfl
    simp only [here, Bool.and_eq_true, beq_iff_eq, decide_eq_true_eq]
    tauto

/-- **Round `i` is audited** unless Telegram takes its message and the context
is cancelled before the row is written. -/
theorem roundEffects_audited {tr : Trace} {i : ℕ} (helapsed : elapsed tr = 4 * i + 2)
    (hsends : (sends tr).length = i) (rh : RecipientHandle) :
    NoUnauditedDelivery f.base.messageID (roundEffects f (contextWriter cancelAt)
        (contextDispatcher cancelAt telegram) env tr rh) ↔
      ((telegram i).isOk → cancelAt ≠ 4 * i + 4 ∧ cancelAt ≠ 4 * i + 5) := by
  constructor
  · intro haudited hok
    have hle := haudited rh.userID rh.chatID
    obtain ⟨haccepted, hdelivered⟩ := roundEffects_counts cancelAt telegram f env
      helapsed hsends rh rh.userID rh.chatID
    rw [haccepted, hdelivered] at hle
    simp only [hok, and_self, true_and] at hle
    split at hle <;> split at hle <;> omega
  · intro hwhen userID chatID
    obtain ⟨haccepted, hdelivered⟩ := roundEffects_counts cancelAt telegram f env
      helapsed hsends rh userID chatID
    rw [haccepted, hdelivered]
    split
    · rename_i hhere
      have hwindow := hwhen hhere.1.2
      have hcommitted : 4 * i + 5 < cancelAt := by omega
      simp [hhere.1, hcommitted]
    · exact Nat.zero_le _

theorem deliveredCount_roundEffects_le {tr : Trace} {i : ℕ} (helapsed : elapsed tr = 4 * i + 2)
    (hsends : (sends tr).length = i) (rh : RecipientHandle) (userID chatID : ℤ) :
    let round := roundEffects f (contextWriter cancelAt) (contextDispatcher cancelAt telegram)
      env tr rh
    deliveredCount f.base.messageID round userID chatID ≤ acceptedCount round userID chatID := by
  intro round
  obtain ⟨haccepted, hdelivered⟩ := roundEffects_counts cancelAt telegram f env
    helapsed hsends rh userID chatID
  rw [haccepted, hdelivered]
  split
  · rename_i hhere
    have hearlier : 4 * i + 3 < cancelAt := by omega
    simp [hhere.1, hearlier]
  · exact Nat.zero_le _

/-- The state of the send loop before round `i`. -/
structure BeforeRound (i : ℕ) (tr : Trace) : Prop where
  ticks : elapsed tr = 4 * i + 2
  sent : (sends tr).length = i

theorem BeforeRound.next {i : ℕ} {tr : Trace} (h : BeforeRound i tr) {w : AuditWriter}
    {disp : Dispatcher} (rh : RecipientHandle) :
    BeforeRound (i + 1) (tr ++ roundEffects f w disp env tr rh) where
  ticks := by
    rw [elapsed_append, elapsed_roundEffects, h.ticks]
    omega
  sent := by
    rw [sends_append, List.length_append, length_sends_roundEffects, h.sent]

/-- **The send loop from round `i` on.** By induction over the recipients: each
round is audited or not on its own. -/
theorem sendEffects_audited {tr : Trace} {i : ℕ} (h : BeforeRound i tr)
    (rhs : List RecipientHandle) :
    let sent := sendEffects f (contextWriter cancelAt) (contextDispatcher cancelAt telegram)
      env tr rhs
    (∀ userID chatID, deliveredCount f.base.messageID sent userID chatID ≤
      acceptedCount sent userID chatID) ∧
    (NoUnauditedDelivery f.base.messageID sent ↔
      ∀ j < rhs.length, (telegram (i + j)).isOk →
        cancelAt ≠ 4 * (i + j) + 4 ∧ cancelAt ≠ 4 * (i + j) + 5) := by
  induction rhs generalizing i tr with
  | nil =>
      refine ⟨fun _ _ => Nat.le_refl 0, ?_⟩
      simp [NoUnauditedDelivery, sendEffects, acceptedCount]
  | cons rh rest ih =>
      obtain ⟨hle, hrest⟩ := ih (h.next f env rh)
      have hround := deliveredCount_roundEffects_le cancelAt telegram f env h.ticks h.sent rh
      constructor
      · intro userID chatID
        rw [sendEffects, deliveredCount_append, acceptedCount_append]
        exact Nat.add_le_add (hround userID chatID) (hle userID chatID)
      · rw [sendEffects, noUnauditedDelivery_append hround hle, hrest,
          roundEffects_audited cancelAt telegram f env h.ticks h.sent]
        -- round `i` is the first of the list, the others are shifted by one
        constructor
        · rintro ⟨hfirst, hothers⟩ j hj
          cases j with
          | zero => exact hfirst
          | succ j =>
              have hj' := hothers j (by simpa using hj)
              rwa [Nat.add_right_comm] at hj'
        · intro hall
          refine ⟨hall 0 (by simp), fun j hj => ?_⟩
          have hj' := hall (j + 1) (by simpa using hj)
          rwa [← Nat.add_assoc, Nat.add_right_comm] at hj'

/-- The entries of the skip loop are `denied` events: they neither send nor
commit a `delivered` row. -/
theorem skipEffects_counts (w : AuditWriter) (channel : DeliveryChannel) (tr : Trace)
    (sks : List ResolveError) (userID chatID : ℤ) :
    acceptedCount (skipEffects f w channel tr sks) userID chatID = 0 ∧
      deliveredCount f.base.messageID (skipEffects f w channel tr sks) userID chatID = 0 := by
  constructor
  · simp [acceptedCount, sends_skipEffects]
  · induction sks generalizing tr with
    | nil => rfl
    | cons sk rest ih =>
        rw [skipEffects, deliveredCount, List.countP_cons_of_neg, ← deliveredCount, ih]
        simp [Effect.commitsDelivered, skippedEvent, AuditFlow.recipientEvent, AuditFlow.event]

end Rounds

/-! ### Whole requests -/

section Requests

variable (r : HTTPRequest) (strat : RouteStrategy) (cap : Capability) (opts : DispatchOpts)
  (cancelAt : ℕ) (telegram : ℕ → Except DispatchErr DeliveryResult)

/-- The trace of a message request whose context is cancelled at `cancelAt`. -/
def cancelledTrace : Trace :=
  (dispatchRun r strat (contextDispatcher cancelAt telegram) (contextWriter cancelAt) cap opts).2

/-- The recipients the send loop is entered with, if nothing fails. -/
def resolvedRecipients : List RecipientHandle :=
  ((resolvedRequest r strat opts).map fun p => p.2.recipients).getD []

/-- **Deliveries and their audit rows.** For every request and every instant of
cancellation, each message that Telegram accepted has its own committed
`delivered` row exactly when the cancellation does not fall between the moment
Telegram takes the message of a recipient and the commit of that row. -/
theorem cancelledTrace_audited_iff :
    NoUnauditedDelivery r.newMessageID (cancelledTrace r strat cap opts cancelAt telegram) ↔
      ∀ i < (resolvedRecipients r strat opts).length, (telegram i).isOk →
        cancelAt ≠ 4 * i + 4 ∧ cancelAt ≠ 4 * i + 5 := by
  rcases runStrategyDispatch_run r strat (contextDispatcher cancelAt telegram)
      (contextWriter cancelAt) cap opts with
    ⟨hstop, hwhy⟩ | ⟨req, resolved, hresolved, -, -, hout⟩
  · have haudited : NoUnauditedDelivery r.newMessageID
        (cancelledTrace r strat cap opts cancelAt telegram) := by
      intro userID chatID
      simp [acceptedCount, cancelledTrace, hstop.sends]
    refine iff_of_true haudited fun i hi _ => ?_
    rcases hwhy with hreceived | hnone | ⟨req, resolved, -, hvalidated⟩
    · simp [contextWriter, elapsed] at hreceived
      omega
    · simp [resolvedRecipients, hnone] at hi
    · simp [contextWriter, elapsed, Effect.ticks] at hvalidated
      omega
  · have hrecipients : resolvedRecipients r strat opts = resolved.recipients := by
      simp [resolvedRecipients, hresolved]
    let f := dispatchFlow r strat (some (contextWriter cancelAt)) cap
    let start : Trace := [.audit (f.event .received) true, .audit (f.validated req resolved) true]
    let sent := sendEffects f (contextWriter cancelAt) (contextDispatcher cancelAt telegram)
      req.envelope start resolved.recipients
    have htrace : cancelledTrace r strat cap opts cancelAt telegram = start ++ sent ++
        skipEffects f (contextWriter cancelAt) opts.defaultChannel (start ++ sent)
          resolved.skipped := congrArg Prod.snd hout
    have hsame : NoUnauditedDelivery r.newMessageID
        (cancelledTrace r strat cap opts cancelAt telegram) ↔
        NoUnauditedDelivery f.base.messageID sent := by
      refine forall_congr' fun userID => forall_congr' fun chatID => ?_
      obtain ⟨haccepted, hdelivered⟩ := skipEffects_counts f (contextWriter cancelAt)
        opts.defaultChannel (start ++ sent) resolved.skipped userID chatID
      have hstart : acceptedCount start userID chatID = 0 ∧
          deliveredCount f.base.messageID start userID chatID = 0 := ⟨rfl, by
        simp [deliveredCount, start, Effect.commitsDelivered, AuditFlow.event,
          AuditFlow.validated]⟩
      change _ ≤ deliveredCount f.base.messageID _ _ _ ↔ _
      rw [htrace, acceptedCount_append, acceptedCount_append, deliveredCount_append,
        deliveredCount_append, haccepted, hdelivered, hstart.1, hstart.2]
      omega
    have hbefore : BeforeRound 0 start := ⟨rfl, rfl⟩
    have hloop := (sendEffects_audited cancelAt telegram f req.envelope hbefore
      resolved.recipients).2
    rw [hsame, hrecipients, hloop]
    simp

end Requests

/-- A request to one recipient that the server resolves. -/
def sampleRequest : HTTPRequest where
  traceID := "t-1"
  path := "/v1/messages/direct"
  requester := { appID := "deploy-alerts" }
  newMessageID := "m-1"
  body := some { recipients := [42], appID := "deploy-alerts",
                 envelope := { text := "hi", schemaVersion := 1 } }

def sampleStrategy : RouteStrategy where
  name := "direct"
  resolve _ := .ok { recipients := [⟨42, -100, 7, "supergroup"⟩] }

/-- Telegram takes the message at tick 3 and answers at tick 4; the context is
cancelled at tick 5, before the `delivered` row. -/
theorem delivered_without_row :
    ¬ NoUnauditedDelivery "m-1" (cancelledTrace sampleRequest sampleStrategy capMessagesDirect
      { requireAppID := true, requireRecipients := true, defaultChannel := channelSupergroup } 5
      fun _ => .ok ⟨1, 0⟩) := by
  intro h
  have hle := h 42 (-100)
  revert hle
  decide

end TelegramServer.Api

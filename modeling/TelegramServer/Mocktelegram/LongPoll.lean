import TelegramServer.Go.Basic
import TelegramServer.Lib.Runs
import Mathlib.Algebra.Order.Ring.Int
import Mathlib.Tactic.NormNum

/-!
The mock of the Telegram Bot API (`internal/mocktelegram/server.go`): the two
bounded windows, and the long poll of `getUpdates`. A poll that finds the queue
empty waits in a `select` over the client's context, a timer and a ticker; which
of the channels is taken, and when, is up to the run.

The timer is set from the request, in the 64-bit arithmetic of `time.Duration`.
The cap of thirty seconds comes after the multiplication, so it does not see a
timeout whose product has wrapped around.
-/

namespace TelegramServer.Mocktelegram

open Go Lib

/-- What the server leaves to `encoding/json`. -/
structure Codec where
  /-- The field `timeout` of a body, 0 if it is absent; `none` if the body does
  not decode. -/
  timeout : Bytes → Option Int64
  /-- An update under its new `update_id`; a text that does not decode counts as
  an empty object. `none` if it decodes to `null`: there is no map to write to. -/
  withUpdateID : Bytes → ℕ → Option Bytes

/-! ### The duration -/

/-- `const maxWait`, in nanoseconds. -/
def maxWait : Int64 := 30 * 1000000000

def longPollTimeout (codec : Codec) (body : Bytes) : Int64 :=
  match codec.timeout body with
  | none => 0
  | some timeout =>
      if timeout ≤ 0 then 0
      else
        let d := timeout * 1000000000
        if d > maxWait then maxWait else d

/-- The duration of a poll, as an integer: the cap applies to the wrapped
product. -/
theorem toInt_longPollTimeout {codec : Codec} {body : Bytes} {timeout : Int64}
    (hbody : codec.timeout body = some timeout) (hpos : 0 < timeout) :
    (longPollTimeout codec body).toInt =
      min ((timeout.toInt * second).bmod (2 ^ 64)) (30 * second) := by
  have hproduct : (timeout * 1000000000).toInt = (timeout.toInt * second).bmod (2 ^ 64) :=
    Int64.toInt_mul timeout 1000000000
  have hmax : maxWait.toInt = 30 * second := by decide
  unfold longPollTimeout
  rw [hbody]
  dsimp only
  rw [if_neg (Int64.not_le.mpr hpos)]
  split
  · rename_i hlong
    rw [gt_iff_lt, Int64.lt_iff_toInt_lt, hproduct] at hlong
    rw [← hmax, min_eq_right hlong.le]
  · rename_i hshort
    rw [gt_iff_lt, Int64.lt_iff_toInt_lt, hproduct, not_lt] at hshort
    rw [← hmax, min_eq_left hshort, hproduct]

/-- Below this bound the product fits in 64 bits. -/
theorem bmod_timeout_of_le {timeout : ℤ} (hpos : 0 < timeout) (hle : timeout ≤ 9223372036) :
    (timeout * second).bmod (2 ^ 64) = timeout * second := by
  apply Int.bmod_eq_of_le <;> unfold second <;> omega

/-! ### The server -/

structure Call where
  method : String
  token : String
  body : Bytes

inductive Phase
  | waiting (deadline : Time)
  | answered (time : Time) (updates : List Bytes)

/-- One `getUpdates` request. -/
structure Poll where
  body : Bytes
  start : Time
  /-- The client has gone away. -/
  gone : Bool
  phase : Phase

structure Server where
  clock : Time
  calls : List Call := []
  dropped : ℕ := 0
  updateSeq : ℕ := 0
  /-- Updates that have their number and are on their way to the mutex. -/
  inflight : List Bytes := []
  queue : List Bytes := []
  polls : List Poll := []

def maxRecordedCalls : ℕ := 2048
def maxQueuedUpdates : ℕ := 1024

/-- The bounded-window policy of `record` and `Inject`: a full window drops its
oldest entry. -/
def pushWindow {α : Type*} (cap : ℕ) (l : List α) (x : α) : List α :=
  if cap ≤ l.length then l.tail ++ [x] else l ++ [x]

def Server.record (s : Server) (token method : String) (body : Bytes) : Server :=
  { s with
    calls := pushWindow maxRecordedCalls s.calls ⟨method, token, body⟩
    dropped := if maxRecordedCalls ≤ s.calls.length then s.dropped + 1 else s.dropped }

/-- `Inject` up to the mutex. A body of `null` panics after it took its number. -/
def Server.inject (codec : Codec) (s : Server) (raw : Bytes) : Server :=
  { s with
    updateSeq := s.updateSeq + 1
    inflight := s.inflight ++ (codec.withUpdateID raw (s.updateSeq + 1)).toList }

/-- The rest of `Inject`. -/
def Server.enqueue (s : Server) (i : ℕ) (out : Bytes) : Server :=
  { s with
    inflight := s.inflight.eraseIdx i
    queue := pushWindow maxQueuedUpdates s.queue out }

def Server.reset (s : Server) : Server := { s with calls := [], dropped := 0 }

def Server.drainQueue (s : Server) : List Bytes × Server := (s.queue, { s with queue := [] })

def Server.setPoll (s : Server) (i : ℕ) (p : Poll) : Server :=
  { s with polls := s.polls.set i p }

/-- The branch `getUpdates` of `serve`, up to the `select`. -/
def Server.getUpdates (codec : Codec) (s : Server) (body : Bytes) : Server :=
  let (updates, s) := s.drainQueue
  let wait := longPollTimeout codec body
  let phase := if updates = [] ∧ 0 < wait then .waiting (s.clock + wait.toInt)
    else .answered s.clock updates
  { s with polls := s.polls ++ [⟨body, s.clock, false, phase⟩] }

/-- The channels of the `select` in `waitForUpdates`. -/
inductive Channel
  | done | deadline | ticker

/-- One round of the loop of `waitForUpdates`; `none` where the channel is not
ready. -/
def Server.wake (s : Server) (i : ℕ) (p : Poll) (deadline : Time) : Channel → Option Server
  | .done =>
      if p.gone then some (s.setPoll i { p with phase := .answered s.clock [] }) else none
  | .deadline =>
      if deadline ≤ s.clock then some (s.setPoll i { p with phase := .answered s.clock [] })
      else none
  | .ticker =>
      let (updates, s') := s.drainQueue
      if updates = [] then some s'
      else some (s'.setPoll i { p with phase := .answered s.clock updates })

inductive Action
  | advance (d : ℕ)
  | inject (raw : Bytes)
  /-- The injection at this place of those in flight gets the mutex. -/
  | enqueue (i : ℕ)
  | reset
  | request (token method : String) (body : Bytes)
  | disconnect (i : ℕ)
  | select (i : ℕ) (c : Channel)

/-- The canned answers of the other methods are left out; they are recorded. -/
def step (codec : Codec) (s : Server) : Action → Option Server
  | .advance d => some { s with clock := s.clock + d }
  | .inject raw => some (s.inject codec raw)
  | .enqueue i => (s.inflight[i]?).map (s.enqueue i)
  | .reset => some s.reset
  | .request token method body =>
      let s := s.record token method body
      some (if method = "getUpdates" then s.getUpdates codec body else s)
  | .disconnect i => (s.polls[i]?).map fun p => s.setPoll i { p with gone := true }
  | .select i c =>
      match s.polls[i]? with
      | none => none
      | some p =>
          match p.phase with
          | .waiting deadline => s.wake i p deadline c
          | .answered _ _ => none

/-! ### What holds of every poll -/

/-- A poll waits until its deadline; an empty answer means that the client is
gone or that the deadline is over. -/
def Poll.Timed (codec : Codec) (p : Poll) : Prop :=
  match p.phase with
  | .waiting deadline => deadline = p.start + max 0 (longPollTimeout codec p.body).toInt
  | .answered time updates =>
      updates = [] → p.gone = true ∨ p.start + max 0 (longPollTimeout codec p.body).toInt ≤ time

structure ServerInv (codec : Codec) (s : Server) : Prop where
  calls_le : s.calls.length ≤ maxRecordedCalls
  queue_le : s.queue.length ≤ maxQueuedUpdates
  timed : ∀ p ∈ s.polls, p.Timed codec

section Invariant

variable {codec : Codec} {s s' : Server}

theorem length_pushWindow_le {α : Type*} {cap : ℕ} {l : List α} (hcap : 0 < cap)
    (h : l.length ≤ cap) (x : α) : (pushWindow cap l x).length ≤ cap := by
  unfold pushWindow
  split <;> simp only [List.length_append, List.length_tail, List.length_singleton] <;> omega

theorem ServerInv.record (h : ServerInv codec s) (token method : String) (body : Bytes) :
    ServerInv codec (s.record token method body) where
  calls_le := length_pushWindow_le (by decide) h.calls_le _
  queue_le := h.queue_le
  timed := h.timed

theorem ServerInv.setPoll (h : ServerInv codec s) (i : ℕ) {p : Poll} (hp : p.Timed codec) :
    ServerInv codec (s.setPoll i p) where
  calls_le := h.calls_le
  queue_le := h.queue_le
  timed q hq := by
    rcases List.mem_or_eq_of_mem_set hq with hold | hnew
    · exact h.timed q hold
    · exact hnew ▸ hp

theorem ServerInv.drained (h : ServerInv codec s) : ServerInv codec s.drainQueue.2 where
  calls_le := h.calls_le
  queue_le := Nat.zero_le _
  timed := h.timed

theorem ServerInv.getUpdates (h : ServerInv codec s) (body : Bytes) :
    ServerInv codec (s.getUpdates codec body) where
  calls_le := h.calls_le
  queue_le := Nat.zero_le _
  timed p hp := by
    rcases List.mem_append.mp hp with hold | hnew
    · exact h.timed p hold
    · rw [List.mem_singleton] at hnew
      subst hnew
      change Poll.Timed codec ⟨body, s.clock, false,
        if s.queue = [] ∧ 0 < longPollTimeout codec body
        then .waiting (s.clock + (longPollTimeout codec body).toInt)
        else .answered s.clock s.queue⟩
      by_cases hwait : s.queue = [] ∧ 0 < longPollTimeout codec body
      · have hpos : 0 < (longPollTimeout codec body).toInt := Int64.lt_iff_toInt_lt.mp hwait.2
        rw [if_pos hwait]
        change _ = s.clock + max 0 (longPollTimeout codec body).toInt
        rw [max_eq_right hpos.le]
      · -- the queue has updates, or there is no time to wait
        rw [if_neg hwait]
        intro hnone
        have hneg : (longPollTimeout codec body).toInt ≤ 0 := by
          have hnot : ¬ 0 < longPollTimeout codec body := fun hpos => hwait ⟨hnone, hpos⟩
          rwa [Int64.lt_iff_toInt_lt, not_lt] at hnot
        right
        change s.clock + max 0 (longPollTimeout codec body).toInt ≤ s.clock
        rw [max_eq_left hneg, add_zero]

theorem ServerInv.wake (h : ServerInv codec s) {i : ℕ} {p : Poll} {deadline : Time}
    (hp : p.Timed codec) (hphase : p.phase = .waiting deadline) {c : Channel}
    (hwake : s.wake i p deadline c = some s') : ServerInv codec s' := by
  have hdeadline : deadline = p.start + max 0 (longPollTimeout codec p.body).toInt := by
    simpa only [Poll.Timed, hphase] using hp
  cases c with
  | done =>
      simp only [Server.wake, Option.ite_none_right_eq_some, Option.some.injEq] at hwake
      obtain ⟨hgone, rfl⟩ := hwake
      exact h.setPoll i fun _ => .inl hgone
  | deadline =>
      simp only [Server.wake, Option.ite_none_right_eq_some, Option.some.injEq] at hwake
      obtain ⟨hover, rfl⟩ := hwake
      exact h.setPoll i fun _ => .inr (hdeadline ▸ hover)
  | ticker =>
      simp only [Server.wake] at hwake
      split at hwake
      · cases hwake
        exact h.drained
      · rename_i hsome
        cases hwake
        exact h.drained.setPoll i fun hnone => absurd hnone hsome

theorem ServerInv.step (h : ServerInv codec s) (a : Action) (hstep : step codec s a = some s') :
    ServerInv codec s' := by
  cases a with
  | advance d =>
      cases hstep
      exact ⟨h.calls_le, h.queue_le, h.timed⟩
  | inject raw =>
      cases hstep
      exact ⟨h.calls_le, h.queue_le, h.timed⟩
  | enqueue i =>
      simp only [Mocktelegram.step, Option.map_eq_some_iff] at hstep
      obtain ⟨out, -, rfl⟩ := hstep
      exact ⟨h.calls_le, length_pushWindow_le (by decide) h.queue_le _, h.timed⟩
  | reset =>
      cases hstep
      exact ⟨Nat.zero_le _, h.queue_le, h.timed⟩
  | request token method body =>
      cases hstep
      split
      · exact (h.record token method body).getUpdates body
      · exact h.record token method body
  | disconnect i =>
      simp only [Mocktelegram.step, Option.map_eq_some_iff] at hstep
      obtain ⟨p, hp, rfl⟩ := hstep
      have htimed := h.timed p (List.mem_of_getElem? hp)
      refine h.setPoll i ?_
      -- a client that goes away only weakens what is asked of the answer
      unfold Poll.Timed at htimed ⊢
      dsimp only
      split
      · rename_i hphase
        rwa [hphase] at htimed
      · exact fun _ => .inl rfl
  | select i c =>
      simp only [Mocktelegram.step] at hstep
      split at hstep
      · cases hstep
      · rename_i p hp
        split at hstep
        · rename_i deadline hphase
          exact h.wake (h.timed p (List.mem_of_getElem? hp)) hphase hstep
        · cases hstep

theorem serverInv_of_run {clock : Time} {as : List Action}
    (hrun : run (step codec) { clock := clock } as = some s) : ServerInv codec s :=
  run_invariant (fun _ a _ h hstep => h.step a hstep)
    ⟨Nat.zero_le _, Nat.zero_le _, fun _ hp => absurd hp List.not_mem_nil⟩ hrun

end Invariant

/-! ### Busy loops -/

/-- A request for `timeout` seconds blocks: its duration is positive and capped,
and whatever happens to the server, it is answered with no updates only after
that time, or the cap, or to a client that has gone away. -/
structure Blocks (codec : Codec) (body : Bytes) (timeout : ℤ) : Prop where
  pos : 0 < (longPollTimeout codec body).toInt
  capped : (longPollTimeout codec body).toInt ≤ 30 * second
  empty : ∀ clock as s, run (step codec) { clock := clock } as = some s →
    ∀ p ∈ s.polls, p.body = body → ∀ time, p.phase = .answered time [] →
      p.gone = true ∨ p.start + min timeout 30 * second ≤ time

/-- A poll that nothing disturbs is answered when its duration is over. -/
theorem run_undisturbed {codec : Codec} {body : Bytes}
    (hpos : 0 < (longPollTimeout codec body).toInt) :
    ∃ as s, run (step codec) { clock := 0 } as = some s ∧
      (⟨body, 0, false, .answered (longPollTimeout codec body).toInt []⟩ : Poll) ∈ s.polls := by
  have hwait : 0 < longPollTimeout codec body := Int64.lt_iff_toInt_lt.mpr hpos
  obtain ⟨d, hd⟩ := Int.eq_ofNat_of_zero_le hpos.le
  refine ⟨[.request "" "getUpdates" body, .advance d, .select 0 .deadline], ?_⟩
  simp [run, step, Server.record, Server.getUpdates, Server.drainQueue, Server.wake,
    Server.setPoll, hwait, hd]

section Blocks

variable {codec : Codec} {body : Bytes} {timeout : Int64}

theorem blocks_of_fits (hbody : codec.timeout body = some timeout) (hpos : 0 < timeout)
    (hfits : min timeout.toInt 30 * second ≤ (timeout.toInt * second).bmod (2 ^ 64)) :
    Blocks codec body timeout.toInt := by
  have hduration := toInt_longPollTimeout hbody hpos
  have hsec : (0 : ℤ) < second := by decide
  have hcap : min timeout.toInt 30 * second ≤ 30 * second :=
    mul_le_mul_of_nonneg_right (min_le_right _ _) hsec.le
  have hone : 0 < min timeout.toInt 30 :=
    lt_min (Int64.lt_iff_toInt_lt.mp hpos) (by norm_num)
  have hlong : min timeout.toInt 30 * second ≤ (longPollTimeout codec body).toInt := by
    rw [hduration]
    exact le_min hfits hcap
  have hdpos : 0 < (longPollTimeout codec body).toInt := (mul_pos hone hsec).trans_le hlong
  refine ⟨hdpos, hduration ▸ min_le_right _ _, ?_⟩
  intro clock as s hrun p hp hpbody time hphase
  have htimed := (serverInv_of_run hrun).timed p hp
  simp only [Poll.Timed, hphase, forall_const, hpbody] at htimed
  rw [max_eq_right hdpos.le] at htimed
  exact htimed.imp_right fun hover => (add_le_add_right hlong _).trans hover

/-- Every timeout of up to 292 years blocks. -/
theorem blocks_of_le (hbody : codec.timeout body = some timeout) (hpos : 0 < timeout)
    (hle : timeout.toInt ≤ 9223372036) : Blocks codec body timeout.toInt := by
  have hint : 0 < timeout.toInt := Int64.lt_iff_toInt_lt.mp hpos
  apply blocks_of_fits hbody hpos
  rw [bmod_timeout_of_le hint hle]
  exact mul_le_mul_of_nonneg_right (min_le_left _ _) (by decide)

end Blocks

/-- A request blocks exactly where the product in nanoseconds, wrapped to 64
bits, is still at least the time asked for. -/
theorem blocks_iff (codec : Codec) (body : Bytes) (timeout : Int64)
    (hbody : codec.timeout body = some timeout) (hpos : 0 < timeout) :
    Blocks codec body timeout.toInt ↔
      min timeout.toInt 30 * second ≤ (timeout.toInt * second).bmod (2 ^ 64) := by
  refine ⟨fun hblocks => ?_, blocks_of_fits hbody hpos⟩
  obtain ⟨as, s, hrun, hmem⟩ := run_undisturbed hblocks.pos
  have hlate := hblocks.empty 0 as s hrun _ hmem rfl _ rfl
  simp only [Bool.false_eq_true, false_or, zero_add, toInt_longPollTimeout hbody hpos] at hlate
  exact hlate.trans (min_le_left _ _)

/-- `encoding/json` on the bodies used below: a flat object without blanks, and
`null`. -/
def flatCodec : Codec where
  timeout body :=
    let digits := (body.drop 11).dropLast
    if body = utf8 "\x7b\"timeout\":" ++ digits ++ utf8 "\x7d" then
      some (Int64.ofNat (digits.foldl (fun n b => 10 * n + (b.toNat - 48)) 0))
    else if body = utf8 "\x7b\x7d" then some 0
    else none
  withUpdateID raw n :=
    if raw = utf8 "null" then none
    else if raw = utf8 "\x7b\x7d" then
      some (utf8 "\x7b\"update_id\":" ++ utf8 (toString n) ++ utf8 "\x7d")
    else some (raw.dropLast ++ utf8 ",\"update_id\":" ++ utf8 (toString n) ++ utf8 "\x7d")

def eightSeconds : Bytes := utf8 "\x7b\"timeout\":8\x7d"

theorem blocks_eight_seconds : Blocks flatCodec eightSeconds (8 : Int64).toInt :=
  (blocks_iff flatCodec eightSeconds 8 (by decide +kernel) (by decide)).mpr (by decide)

def wrappedTimeout : Bytes := utf8 "\x7b\"timeout\":9223372037\x7d"

/-- A timeout of 9223372037 seconds: the product is negative, and a poll of the
empty queue is answered at once. -/
theorem not_blocks_of_wrapped_product :
    flatCodec.timeout wrappedTimeout = some 9223372037 ∧
      (longPollTimeout flatCodec wrappedTimeout).toInt < 0 ∧
      ((run (step flatCodec) { clock := 0 } [.request "" "getUpdates" wrappedTimeout]).map
        fun s => s.polls.map fun p => p.phase) = some [.answered 0 []] ∧
      ¬ Blocks flatCodec wrappedTimeout 9223372037 := by
  have hbody : flatCodec.timeout wrappedTimeout = some 9223372037 := by decide +kernel
  have hneg : (longPollTimeout flatCodec wrappedTimeout).toInt < 0 := by
    rw [longPollTimeout, hbody]
    decide
  have hwait : ¬ 0 < longPollTimeout flatCodec wrappedTimeout := by
    rw [Int64.lt_iff_toInt_lt]
    exact not_lt.mpr hneg.le
  refine ⟨hbody, hneg, ?_, fun hblocks => ?_⟩
  · simp [run, step, Server.record, Server.getUpdates, Server.drainQueue, hwait]
  · have hpos := hblocks.pos
    omega

end TelegramServer.Mocktelegram

import TelegramServer.Go.Strconv
import TelegramServer.Ratelimit.Limiter

/-!
The `Retry-After` header (`internal/api/middleware/ratelimit.go`). The limiter
says how many nanoseconds the next token is away, cut down to whole ones, and the
middleware rounds that to whole seconds, halves to the even neighbour. A token is
never more than a second away at the rates a policy has, so the header says 0 or
1; it says 0 up to half a second, and then the client is refused once more.
-/

namespace TelegramServer.Ratelimit

open Go Lib Dispatch

/-- Rounding to the nearest integer, halves to even. -/
def roundHalfEven (q : ℚ) : ℤ :=
  if q - ⌊q⌋ < 1 / 2 then ⌊q⌋
  else if 1 / 2 < q - ⌊q⌋ then ⌊q⌋ + 1
  else if ⌊q⌋ % 2 = 0 then ⌊q⌋ else ⌊q⌋ + 1

/-- `fmt.Sprintf("%.0f", q)`. -/
def formatWhole (q : ℚ) : String := toString (roundHalfEven q)

/-- What the middleware reads of a request. -/
structure Inbound where
  /-- The app of `auth.RequesterFrom`. -/
  requester : Option String
  remoteAddr : String

def limiterKey (r : Inbound) : String :=
  match r.requester with
  | some appID => "app:" ++ appID
  | none => r.remoteAddr

inductive Answer
  /-- The request goes on to the next handler. -/
  | next
  /-- 429, with the header if it is set. -/
  | tooManyRequests (retryAfter : Option String)
  deriving DecidableEq

/-- `RateLimit`; there may be no limiter. -/
def rateLimit (rl : Option BucketLimiter) (now : Time) (r : Inbound) :
    Answer × Option BucketLimiter :=
  match rl with
  | none => (.next, none)
  | some l =>
      let (d, l) := l.allow ⟨now, limiterKey r⟩
      if !d.allowed then
        (.tooManyRequests (if 0 < d.retryAfter then
          some (formatWhole ((d.retryAfter : ℚ) / second)) else none), some l)
      else (.next, some l)

/-- A client waits `w` seconds: what the header says, and not at all without one. -/
def Waits (retryAfter : Option String) (w : ℤ) : Prop :=
  retryAfter = some (toString w) ∨ retryAfter = none ∧ w = 0

/-- A request of the app that is refused at `t` is admitted after the wait, if only other keys
are used in between. -/
def Honest (l : BucketLimiter) (appID : String) (t : Time) : Prop :=
  ∀ r r' : Inbound, r.requester = some appID → r'.requester = some appID →
    ∀ header l' w others, rateLimit (some l) t r = (.tooManyRequests header, some l') →
      Waits header w → (∀ c ∈ others, c.key ≠ "app:" ++ appID) →
      (rateLimit (some (l'.after others)) (t + w * second) r').1 = .next

/-- The next token of the bucket is due later than half a second after the refusal at `t`, and
not later than one second after it. -/
structure DueInTime (pol : Policy) (b : Bucket ℚ Time) (t : Time) : Prop where
  late : 500000001 / 1000000000 ≤
    (1 - (b.fill seconds pol.ratePerSec pol.burst t).tokens) / pol.ratePerSec
  soon : (1 - (b.fill seconds pol.ratePerSec pol.burst t).tokens) / pol.ratePerSec +
    (seconds (max b.refill t) - seconds t) ≤ 1

/-! ### Rounding -/

/-- Rounding less than a second, or a whole one. -/
theorem roundHalfEven_div_second {n : ℤ} (h0 : 0 ≤ n) (h1 : n ≤ second) :
    roundHalfEven ((n : ℚ) / second) = if 500000000 < n then 1 else 0 := by
  have hsecond : (second : ℚ) = 1000000000 := by norm_num [second]
  rcases h1.lt_or_eq with hlt | rfl
  · have hfloor : ⌊(n : ℚ) / second⌋ = 0 := by
      rw [Int.floor_eq_zero_iff, hsecond]
      have hn : (0 : ℚ) ≤ n := by exact_mod_cast h0
      have hn' : (n : ℚ) < 1000000000 := by rw [← hsecond]; exact_mod_cast hlt
      constructor
      · positivity
      · rw [div_lt_one (by norm_num)]
        exact hn'
    have hhalf : (n : ℚ) / second ≤ 1 / 2 ↔ n ≤ 500000000 := by
      rw [hsecond, div_le_div_iff₀ (by norm_num) (by norm_num)]
      constructor
      · intro h
        have : (n : ℚ) ≤ 500000000 := by linarith
        exact_mod_cast this
      · intro h
        have : (n : ℚ) ≤ 500000000 := by exact_mod_cast h
        linarith
    unfold roundHalfEven
    rw [hfloor, Int.cast_zero, sub_zero]
    by_cases hn : n ≤ 500000000
    · rw [if_neg (not_lt.mpr (hhalf.mpr hn)), if_neg (not_lt.mpr hn)]
      split <;> simp
    · have hlarge : 1 / 2 < (n : ℚ) / second := not_le.mp fun h => hn (hhalf.mp h)
      rw [if_neg (not_lt.mpr hlarge.le), if_pos hlarge, if_pos (not_le.mp hn), zero_add]
  · rw [div_self (by norm_num [second]), if_pos (by decide)]
    norm_num [roundHalfEven]

/-! ### The bucket of an app -/

variable {policyFn : String → Policy} {key : String} {l : BucketLimiter}

theorem buckets_after_of_ne (others : List Call) (h : ∀ c ∈ others, c.key ≠ key) :
    (l.after others).buckets key = l.buckets key := by
  induction others using List.reverseRecOn with
  | nil => rfl
  | append_singleton others c ih =>
      rw [BucketLimiter.after, final_concat, buckets_allow_of_ne (h c (by simp))]
      exact ih fun d hd => h d (by simp [hd])

/-- When a bucket that lacks a token has it again. -/
theorem one_le_tokens_fill {rate burst : ℚ} (hrate : 0 < rate) (hburst : 1 ≤ burst)
    {b : Bucket ℚ Time} (hb : b.tokens < 1) (now : Time) :
    1 ≤ (b.fill seconds rate burst now).tokens ↔
      (1 - b.tokens) / rate ≤ seconds now - seconds b.refill := by
  rw [div_le_iff₀ hrate]
  rcases le_or_gt now b.refill with hle | hlt
  · rw [fill_of_le seconds_strictMono hle]
    have hback : (seconds now - seconds b.refill) * rate ≤ 0 :=
      mul_nonpos_of_nonpos_of_nonneg (sub_nonpos.mpr (seconds_strictMono.monotone hle)) hrate.le
    constructor
    · intro h
      linarith
    · intro h
      linarith
  · rw [fill_of_lt seconds_strictMono hlt]
    simp only [le_min_iff, and_iff_left hburst]
    constructor
    · intro h
      linarith
    · intro h
      linarith

theorem seconds_add (t : Time) (w : ℤ) : seconds (t + w * second) = seconds t + w := by
  unfold seconds
  push_cast
  rw [add_div, mul_div_cancel_right₀ _ (by norm_num [second])]

section Refused

variable (hrate : 0 < (policyFn key).ratePerSec) (hburst : 1 ≤ (policyFn key).burst)
include hrate hburst

/-- An app whose calls are limited is admitted exactly if its bucket, or a new one, has a token. -/
theorem allow_of_policy (hpolicy : l.policyFn = policyFn) (t : Time) :
    l.allow ⟨t, key⟩ =
      let out := takeToken (policyFn key).ratePerSec (policyFn key).burst t
        ((l.buckets key).getD ⟨(policyFn key).burst, t⟩)
      (out.1, { l with buckets := Function.update l.buckets key (some out.2) }) := by
  subst hpolicy
  exact allow_eq hrate (by linarith)

/-- A refused call finds a bucket that lacks a token. -/
theorem exists_bucket_of_refused {calls : List Call} {t : Time}
    (hrefused : (((newBucketLimiter policyFn).after calls).allow ⟨t, key⟩).1.allowed = false) :
    ∃ b, ((newBucketLimiter policyFn).after calls).buckets key = some b ∧
      0 ≤ (b.fill seconds (policyFn key).ratePerSec (policyFn key).burst t).tokens ∧
      (b.fill seconds (policyFn key).ratePerSec (policyFn key).burst t).tokens < 1 := by
  have haccount := accounted_after hrate (by linarith) calls
  rw [allow_of_policy hrate hburst (policyFn_after calls), allowed_takeToken,
    decide_eq_false_iff_not, not_le] at hrefused
  cases hbucket : ((newBucketLimiter policyFn).after calls).buckets key with
  | none =>
      -- a new bucket is full
      rw [hbucket, Option.getD_none, fill_of_le seconds_strictMono (le_refl t)] at hrefused
      exact absurd hburst (not_le.mpr hrefused)
  | some b =>
      rw [hbucket] at haccount hrefused
      obtain ⟨-, log, hledger, -⟩ := haccount
      exact ⟨b, rfl, (hledger.refilled seconds_strictMono hrate.le t).nonneg, hrefused⟩

/-- The bucket has a token again once the time until the next one has passed, counted from the
latest reading. -/
theorem allowed_after_wait (hpolicy : l.policyFn = policyFn) {b : Bucket ℚ Time}
    (hb : l.buckets key = some b) {t : Time}
    (hlt : (b.fill seconds (policyFn key).ratePerSec (policyFn key).burst t).tokens < 1)
    {others : List Call} (hothers : ∀ c ∈ others, c.key ≠ key) (w : ℤ) :
    (((l.allow ⟨t, key⟩).2.after others).allow ⟨t + w * second, key⟩).1.allowed = true ↔
      (1 - (b.fill seconds (policyFn key).ratePerSec (policyFn key).burst t).tokens) /
        (policyFn key).ratePerSec + (seconds (max b.refill t) - seconds t) ≤ w := by
  have hbucket : ((l.allow ⟨t, key⟩).2.after others).buckets key =
      some (b.fill seconds (policyFn key).ratePerSec (policyFn key).burst t) := by
    rw [buckets_after_of_ne others hothers, allow_of_policy hrate hburst hpolicy, hb,
      Option.getD_some, takeToken_of_lt hlt]
    exact Function.update_self ..
  have hpolicy' : ((l.allow ⟨t, key⟩).2.after others).policyFn = policyFn := by
    rw [policyFn_after, policyFn_allow, hpolicy]
  rw [allow_of_policy hrate hburst hpolicy', hbucket, Option.getD_some, allowed_takeToken,
    decide_eq_true_iff, one_le_tokens_fill hrate hburst hlt, refill_fill seconds_strictMono,
    seconds_add]
  constructor
  · intro h
    linarith
  · intro h
    linarith

end Refused

/-- The header is 1 exactly if the wait is more than half a second, to the nanosecond. -/
theorem half_lt_floor_iff (x : ℚ) :
    500000000 < ⌊x * second⌋ ↔ 500000001 / 1000000000 ≤ x := by
  have hsecond : (second : ℚ) = 1000000000 := by norm_num [second]
  rw [← Int.add_one_le_iff, Int.le_floor, hsecond, div_le_iff₀ (by norm_num)]
  norm_num

theorem limiterKey_eq {r : Inbound} {appID : String} (h : r.requester = some appID) :
    limiterKey r = "app:" ++ appID := by
  rw [limiterKey, h]

/-- The middleware refuses what the limiter refuses. -/
theorem rateLimit_eq_next_iff {r : Inbound} {t : Time} :
    (rateLimit (some l) t r).1 = .next ↔ (l.allow ⟨t, limiterKey r⟩).1.allowed = true := by
  simp only [rateLimit]
  split
  · next h => simpa using h
  · next h => simpa using h

theorem rateLimit_of_refused {r : Inbound} {t : Time}
    (h : (l.allow ⟨t, limiterKey r⟩).1.allowed = false) :
    rateLimit (some l) t r =
      (.tooManyRequests (if 0 < (l.allow ⟨t, limiterKey r⟩).1.retryAfter then
        some (formatWhole (((l.allow ⟨t, limiterKey r⟩).1.retryAfter : ℚ) / second)) else none),
        some (l.allow ⟨t, limiterKey r⟩).2) := by
  simp only [rateLimit, h, Bool.not_false, if_true]

/-- What a client reads off the header: a whole second, or nothing. -/
theorem waits_iff {n w : ℤ} (h0 : 0 ≤ n) (h1 : n ≤ second) :
    Waits (if 0 < n then some (formatWhole ((n : ℚ) / second)) else none) w ↔
      w = if 500000000 < n then 1 else 0 := by
  unfold Waits
  split
  · next hpos =>
      rw [formatWhole, roundHalfEven_div_second h0 h1]
      simp only [Option.some.injEq, reduceCtorEq, false_and, or_false,
        toString_int_injective.eq_iff, eq_comm]
  · next hzero =>
      rw [if_neg (by omega)]
      simp

section Bucket

variable {appID : String} {b : Bucket ℚ Time} {t : Time}
  (hrate : 1 ≤ (policyFn ("app:" ++ appID)).ratePerSec)
  (hburst : 1 ≤ (policyFn ("app:" ++ appID)).burst) (hpolicy : l.policyFn = policyFn)
  (hb : l.buckets ("app:" ++ appID) = some b)
  (hnonneg : 0 ≤ (b.fill seconds (policyFn ("app:" ++ appID)).ratePerSec
    (policyFn ("app:" ++ appID)).burst t).tokens)
  (hlt : (b.fill seconds (policyFn ("app:" ++ appID)).ratePerSec
    (policyFn ("app:" ++ appID)).burst t).tokens < 1)
include hrate hburst hpolicy hb hnonneg hlt

/-- The header says when to come back; whether that is late enough is a matter of arithmetic. -/
theorem honest_iff_le_wait {x : ℚ} (hx : x = (1 - (b.fill seconds
    (policyFn ("app:" ++ appID)).ratePerSec (policyFn ("app:" ++ appID)).burst t).tokens) /
      (policyFn ("app:" ++ appID)).ratePerSec) :
    Honest l appID t ↔ x + (seconds (max b.refill t) - seconds t) ≤
      ((if 500000000 < ⌊x * second⌋ then 1 else 0 : ℤ) : ℚ) := by
  have hpos : 0 < (policyFn ("app:" ++ appID)).ratePerSec := by linarith
  have hallow := allow_of_policy hpos hburst hpolicy t
  rw [hb, Option.getD_some, takeToken_of_lt hlt, ← hx] at hallow
  have hrefused : (l.allow ⟨t, "app:" ++ appID⟩).1.allowed = false := by rw [hallow]
  have hwait : (l.allow ⟨t, "app:" ++ appID⟩).1.retryAfter = ⌊x * second⌋ := by rw [hallow]
  -- the next token is at most a second away
  have hsecond : (0 : ℚ) < second := by norm_num [second]
  have h0 : 0 ≤ ⌊x * second⌋ := by
    have hx0 : 0 ≤ x := hx ▸ div_nonneg (by linarith) hpos.le
    exact Int.floor_nonneg.mpr (mul_nonneg hx0 hsecond.le)
  have h1 : ⌊x * second⌋ ≤ second := by
    have hx1 : x ≤ 1 := by
      rw [hx, div_le_one hpos]
      linarith
    have hmul : x * second ≤ second := by nlinarith
    exact_mod_cast (Int.floor_le _).trans hmul
  have hretry (r : Inbound) (hr : r.requester = some appID) (others : List Call)
      (hothers : ∀ c ∈ others, c.key ≠ "app:" ++ appID) (w : ℤ) :
      (rateLimit (some ((l.allow ⟨t, "app:" ++ appID⟩).2.after others)) (t + w * second) r).1 =
        .next ↔ x + (seconds (max b.refill t) - seconds t) ≤ w := by
    rw [rateLimit_eq_next_iff, limiterKey_eq hr,
      allowed_after_wait hpos hburst hpolicy hb hlt hothers w, ← hx]
  have hfirst (r : Inbound) (hr : r.requester = some appID) : rateLimit (some l) t r =
      (.tooManyRequests (if 0 < ⌊x * second⌋ then
        some (formatWhole ((⌊x * second⌋ : ℚ) / second)) else none),
        some (l.allow ⟨t, "app:" ++ appID⟩).2) := by
    rw [rateLimit_of_refused (by rwa [limiterKey_eq hr]), limiterKey_eq hr, hwait]
  constructor
  · intro h
    refine (hretry ⟨some appID, ""⟩ rfl [] (by simp) _).mp ?_
    exact h ⟨some appID, ""⟩ ⟨some appID, ""⟩ rfl rfl _ _ _ [] (hfirst _ rfl)
      ((waits_iff h0 h1).mpr rfl) (by simp)
  · intro h r r' hr hr' header l' w others hout hwaits hothers
    rw [hfirst r hr] at hout
    obtain ⟨hheader, hl'⟩ := Prod.mk.inj hout
    cases hheader
    cases hl'
    rw [(waits_iff h0 h1).mp hwaits]
    exact (hretry r' hr' others hothers _).mpr h

theorem honest_iff_dueInTime : Honest l appID t ↔ DueInTime (policyFn ("app:" ++ appID)) b t := by
  rw [honest_iff_le_wait hrate hburst hpolicy hb hnonneg hlt rfl]
  have hlag : seconds t ≤ seconds (max b.refill t) :=
    seconds_strictMono.monotone (le_max_right _ _)
  have hx : 0 < (1 - (b.fill seconds (policyFn ("app:" ++ appID)).ratePerSec
      (policyFn ("app:" ++ appID)).burst t).tokens) / (policyFn ("app:" ++ appID)).ratePerSec :=
    div_pos (by linarith) (by linarith)
  split
  · next hhalf =>
      rw [Int.cast_one]
      exact ⟨fun hsoon => ⟨(half_lt_floor_iff _).mp hhalf, hsoon⟩, fun h => h.soon⟩
  · next hhalf =>
      rw [Int.cast_zero]
      constructor
      · intro h
        linarith
      · intro h
        exact absurd ((half_lt_floor_iff _).mpr h.late) hhalf

/-- At two requests per second and more the header is never honest. -/
theorem not_honest_of_two_le (htwo : 2 ≤ (policyFn ("app:" ++ appID)).ratePerSec) :
    ¬Honest l appID t := by
  rw [honest_iff_dueInTime hrate hburst hpolicy hb hnonneg hlt]
  intro h
  have hlate := h.late
  rw [le_div_iff₀ (by linarith)] at hlate
  linarith

end Bucket

/-- **Retry-After is honest** exactly if the next token is due later than half a second after the
refusal and not later than one second after it. -/
theorem honest_iff (policyFn : String → Policy) (appID : String) (calls : List Call) (t : Time)
    (R : ℕ) (hR : 1 ≤ R) (hrate : (policyFn ("app:" ++ appID)).ratePerSec = R)
    (hburst : 1 ≤ (policyFn ("app:" ++ appID)).burst) (r : Inbound)
    (hr : r.requester = some appID)
    (hrefused : (rateLimit (some ((newBucketLimiter policyFn).after calls)) t r).1 ≠ .next) :
    Honest ((newBucketLimiter policyFn).after calls) appID t ↔
      ∃ b, ((newBucketLimiter policyFn).after calls).buckets ("app:" ++ appID) = some b ∧
        DueInTime (policyFn ("app:" ++ appID)) b t := by
  have hone : 1 ≤ (policyFn ("app:" ++ appID)).ratePerSec := by
    rw [hrate]
    exact_mod_cast hR
  rw [ne_eq, rateLimit_eq_next_iff, limiterKey_eq hr, Bool.not_eq_true] at hrefused
  obtain ⟨b, hb, hnonneg, hlt⟩ := exists_bucket_of_refused (by linarith) hburst hrefused
  rw [honest_iff_dueInTime hone hburst (policyFn_after calls) hb hnonneg hlt]
  constructor
  · intro h
    exact ⟨b, hb, h⟩
  · rintro ⟨b', hb', h⟩
    obtain rfl := Option.some.inj (hb.symm.trans hb')
    exact h

/-- One request per second, one at a time: the second request at time 0 is refused, and it is
admitted a second later, as the header says. -/
theorem oneAtATime_honest :
    (rateLimit (some ((newBucketLimiter fun _ => ⟨1, 1⟩).after [⟨0, "app:a"⟩])) 0
        ⟨some "a", ""⟩).1 = .tooManyRequests (some "1") ∧
      Honest ((newBucketLimiter fun _ => ⟨1, 1⟩).after [⟨0, "app:a"⟩]) "a" 0 := by
  have hout : (rateLimit (some ((newBucketLimiter fun _ => ⟨1, 1⟩).after [⟨0, "app:a"⟩])) 0
      ⟨some "a", ""⟩).1 = .tooManyRequests (some "1") := by
    decide +kernel
  have hempty : (((newBucketLimiter fun _ => ⟨1, 1⟩).after [⟨0, "app:a"⟩]).buckets "app:a").map
      (fun b => (b.tokens, b.refill)) = some (0, 0) := by
    decide +kernel
  obtain ⟨⟨tokens, refill⟩, hb, heq⟩ := Option.map_eq_some_iff.mp hempty
  obtain ⟨rfl, rfl⟩ : tokens = 0 ∧ refill = 0 := by simpa using heq
  refine ⟨hout, (honest_iff (fun _ => ⟨1, 1⟩) "a" [⟨0, "app:a"⟩] 0 1 le_rfl (by norm_num)
    (by norm_num) ⟨some "a", ""⟩ rfl (by rw [hout]; simp)).mpr ⟨_, hb, ?_, ?_⟩⟩
  · decide +kernel
  · decide +kernel

/-- The limiter with the default policy after a hundred requests of an app at time 0. -/
def hundredRequests : BucketLimiter :=
  (newBucketLimiter (requestPolicy ⟨100, 100⟩ fun _ => none)).after
    (List.replicate 100 ⟨0, "app:a"⟩)

/-- The next request is told to come back after 0 seconds, and is then refused again. -/
theorem hundredRequests_not_honest :
    (rateLimit (some hundredRequests) 0 ⟨some "a", ""⟩).1 = .tooManyRequests (some "0") ∧
      ¬Honest hundredRequests "a" 0 := by
  have hout : (rateLimit (some hundredRequests) 0 ⟨some "a", ""⟩).1 =
      .tooManyRequests (some "0") := by
    decide +kernel
  refine ⟨hout, fun h => ?_⟩
  have hrefused : (hundredRequests.allow ⟨0, limiterKey ⟨some "a", ""⟩⟩).1.allowed = false := by
    decide +kernel
  have hfirst := rateLimit_of_refused hrefused
  have hheader := Answer.tooManyRequests.inj ((congrArg Prod.fst hfirst).symm.trans hout)
  have hagain := h ⟨some "a", ""⟩ ⟨some "a", ""⟩ rfl rfl _ _ 0 [] hfirst (.inl hheader) (by simp)
  have hno : (rateLimit (some ((hundredRequests.allow ⟨0, limiterKey ⟨some "a", ""⟩⟩).2.after []))
      (0 + 0 * second) ⟨some "a", ""⟩).1 ≠ .next := by
    decide +kernel
  exact hno hagain

end TelegramServer.Ratelimit

import TelegramServer.Ratelimit.Limiter

/-!
The login limiter of the admin UI (`loginLimiter` of `internal/adminui/session.go`):
one bucket of five tokens for each address, refilled in a minute. A call drops the
buckets of the others that are full again. The limiter that keeps them is compared
with it by a simulation: at every moment the maps differ only in buckets that are
full, and a full bucket answers as a new one does.
-/

namespace TelegramServer.Adminui

open Go Lib Dispatch
open Ratelimit (Call)

structure LoginBucket where
  tokens : ℚ
  lastFill : Time

structure LoginLimiter where
  buckets : String → Option LoginBucket

def loginRateLimit : ℚ := 5
def loginRateWindow : ℤ := 60 * second

def newLoginLimiter : LoginLimiter := ⟨fun _ => none⟩

/-- The tokens a bucket has gained at `now`. -/
def LoginBucket.refill (b : LoginBucket) (now : Time) : ℚ :=
  seconds (now - b.lastFill) * (loginRateLimit / seconds loginRateWindow)

/-- The test of the sweep. -/
def LoginBucket.Full (b : LoginBucket) (now : Time) : Prop :=
  loginRateLimit ≤ b.tokens + b.refill now

instance (b : LoginBucket) (now : Time) : Decidable (b.Full now) :=
  inferInstanceAs (Decidable (loginRateLimit ≤ b.tokens + b.refill now))

/-- The loop over the map; each bucket is tested alone, so its order does not matter. -/
def LoginLimiter.sweep (l : LoginLimiter) (now : Time) (key : String) : LoginLimiter where
  buckets k := if k = key then l.buckets k else (l.buckets k).filter fun b => !decide (b.Full now)

/-- The bucket of the caller, made or brought up to date. -/
def openBucket (now : Time) : Option LoginBucket → LoginBucket
  | none => ⟨loginRateLimit, now⟩
  | some b => ⟨min loginRateLimit (b.tokens + b.refill now), now⟩

def LoginBucket.spend (b : LoginBucket) : Bool × LoginBucket :=
  if b.tokens < 1 then (false, b) else (true, { b with tokens := b.tokens - 1 })

/-- What follows the sweep. -/
def LoginLimiter.take (l : LoginLimiter) (now : Time) (key : String) : Bool × LoginLimiter :=
  let (ok, b) := (openBucket now (l.buckets key)).spend
  (ok, ⟨Function.update l.buckets key (some b)⟩)

/-- `loginLimiter.Allow`. -/
def LoginLimiter.allow (l : LoginLimiter) (c : Call) : Bool × LoginLimiter :=
  (l.sweep c.now c.key).take c.now c.key

/-- `loginLimiter.Allow` without its loop. -/
def LoginLimiter.allowUnswept (l : LoginLimiter) (c : Call) : Bool × LoginLimiter :=
  l.take c.now c.key

/-- The call was on the key at a time of the window, and it was admitted. -/
def admittedIn (key : String) (s e : Time) (o : Call × Bool) : Bool :=
  decide (o.1.key = key ∧ s ≤ o.1.now ∧ o.1.now ≤ e) && o.2

/-- Along a sequence of calls nobody notices the sweep, and yet it leaves nothing to drop. -/
structure Unobservable (calls : List Call) : Prop where
  /-- The decisions are those of the limiter without the sweep. -/
  same : answers LoginLimiter.allow newLoginLimiter calls =
    answers LoginLimiter.allowUnswept newLoginLimiter calls
  /-- After every call the buckets that are kept are not full, the caller's apart. -/
  retained : ∀ n, (hn : n < calls.length) → ∀ k b, k ≠ calls[n].key →
    (final LoginLimiter.allow newLoginLimiter (calls.take (n + 1))).buckets k = some b →
    b.tokens + b.refill calls[n].now < loginRateLimit
  /-- Five calls of a key and one more for every twelve seconds are admitted in a window. -/
  window : ∀ key s e, s ≤ e →
    ((answers LoginLimiter.allow newLoginLimiter calls).countP (admittedIn key s e) : ℚ) ≤
      5 + (seconds e - seconds s) / 12

variable {l l' : LoginLimiter} {b : LoginBucket} {now : Time} {key k : String} {c : Call}

/-! ### Refills -/

theorem refill_eq (b : LoginBucket) (now : Time) :
    b.refill now = (seconds now - seconds b.lastFill) * (1 / 12) := by
  simp only [LoginBucket.refill, loginRateLimit, loginRateWindow, seconds, second]
  push_cast
  ring

theorem refill_mono (b : LoginBucket) {s e : Time} (h : s ≤ e) : b.refill s ≤ b.refill e := by
  rw [refill_eq, refill_eq]
  have := seconds_strictMono.monotone h
  linarith

/-- A bucket that is full stays so. -/
theorem LoginBucket.Full.mono {s e : Time} (hfull : b.Full s) (h : s ≤ e) : b.Full e := by
  have hgain := refill_mono b h
  unfold LoginBucket.Full at hfull ⊢
  linarith

/-- A full bucket carries no state. -/
theorem openBucket_of_full (hfull : b.Full now) :
    openBucket now (some b) = openBucket now none := by
  rw [openBucket, openBucket, min_eq_left hfull]

/-! ### The simulation -/

/-- The swept limiter has the bucket too, or dropped it when it was full. -/
def Dropped (now : Time) (swept kept : Option LoginBucket) : Prop :=
  swept = kept ∨ swept = none ∧ ∃ b, kept = some b ∧ b.Full now

theorem Dropped.mono {s e : Time} {swept kept : Option LoginBucket}
    (hdropped : Dropped s swept kept) (h : s ≤ e) : Dropped e swept kept := by
  rcases hdropped with heq | ⟨hnone, b, hb, hfull⟩
  · exact .inl heq
  · exact .inr ⟨hnone, b, hb, hfull.mono h⟩

theorem Dropped.openBucket {swept kept : Option LoginBucket} (hdropped : Dropped now swept kept) :
    openBucket now swept = openBucket now kept := by
  rcases hdropped with rfl | ⟨rfl, b, rfl, hfull⟩
  · rfl
  · exact (openBucket_of_full hfull).symm

/-- The test of the loop drops full buckets only. -/
theorem Dropped.filter {swept kept : Option LoginBucket} (hdropped : Dropped now swept kept) :
    Dropped now (swept.filter fun b => !decide (b.Full now)) kept := by
  rcases hdropped with rfl | ⟨rfl, b, rfl, hfull⟩
  · cases swept with
    | none => exact .inl rfl
    | some b =>
        by_cases hfull : b.Full now
        · exact .inr ⟨by simp [Option.filter, hfull], b, rfl, hfull⟩
        · exact .inl (by simp [Option.filter, hfull])
  · exact .inr ⟨rfl, b, rfl, hfull⟩

/-- The two limiters at a moment. -/
def Simulates (now : Time) (l l' : LoginLimiter) : Prop :=
  ∀ k, Dropped now (l.buckets k) (l'.buckets k)

theorem buckets_take_self :
    (l.take now key).2.buckets key = some (openBucket now (l.buckets key)).spend.2 :=
  Function.update_self ..

theorem buckets_take_of_ne (h : k ≠ key) : (l.take now key).2.buckets k = l.buckets k :=
  Function.update_of_ne h ..

theorem buckets_sweep_self : (l.sweep now key).buckets key = l.buckets key := if_pos rfl

theorem buckets_sweep_of_ne (h : k ≠ key) :
    (l.sweep now key).buckets k = (l.buckets k).filter fun b => !decide (b.Full now) :=
  if_neg h

/-- **Step.** A call gets the same answer from both limiters. -/
theorem Simulates.allow (h : Simulates c.now l l') :
    (l.allow c).1 = (l'.allowUnswept c).1 ∧
      Simulates c.now (l.allow c).2 (l'.allowUnswept c).2 := by
  have hopen : openBucket c.now ((l.sweep c.now c.key).buckets c.key) =
      openBucket c.now (l'.buckets c.key) := by
    rw [buckets_sweep_self]
    exact (h c.key).openBucket
  constructor
  · exact congrArg (fun b => b.spend.1) hopen
  · intro k
    unfold LoginLimiter.allow LoginLimiter.allowUnswept
    by_cases hk : k = c.key
    · subst hk
      rw [buckets_take_self, buckets_take_self, hopen]
      exact .inl rfl
    · rw [buckets_take_of_ne hk, buckets_take_of_ne hk, buckets_sweep_of_ne hk]
      exact (h k).filter

/-- **Run.** The sweep changes no decision. -/
theorem answers_allow {calls : List Call} (hsorted : calls.Pairwise fun c d => c.now ≤ d.now) :
    answers LoginLimiter.allow newLoginLimiter calls =
      answers LoginLimiter.allowUnswept newLoginLimiter calls :=
  answers_eq_of_simulation LoginLimiter.allow (R := Simulates)
    (fun _ _ _ _ hle h k => (h k).mono hle) (fun _ _ _ h => h.allow) (fun _ _ _ => .inl rfl)
    hsorted

/-- What a sweep leaves is not full. -/
theorem not_full_of_buckets_allow (hk : k ≠ c.key) (hb : (l.allow c).2.buckets k = some b) :
    ¬ b.Full c.now := by
  rw [LoginLimiter.allow, buckets_take_of_ne hk, buckets_sweep_of_ne hk,
    Option.filter_eq_some_iff] at hb
  simpa using hb.2

/-! ### The account of a key -/

def LoginBucket.account (b : LoginBucket) : Bucket ℚ Time := ⟨b.tokens, b.lastFill⟩

/-- With a clock that does not run backwards, opening a bucket is a refill of its account. -/
theorem account_openBucket (hcapped : b.tokens ≤ 5) (h : b.lastFill ≤ now) :
    (openBucket now (some b)).account = b.account.fill seconds (1 / 12) 5 now := by
  rcases h.lt_or_eq with hlt | heq
  · have hlater : b.account.refill < now := hlt
    rw [fill_of_lt seconds_strictMono hlater, openBucket, refill_eq, min_comm]
    rfl
  · have hnow : now ≤ b.account.refill := heq.ge
    rw [fill_of_le seconds_strictMono hnow, openBucket, refill_eq, ← heq, sub_self, zero_mul,
      add_zero, loginRateLimit, min_eq_right hcapped]

/-- The times of the calls on a key that were admitted. -/
def admissions (key : String) (outs : List (Call × Bool)) : List Time :=
  (outs.filter fun o => o.1.key = key && o.2).map (·.1.now)

theorem admissions_concat (outs : List (Call × Bool)) (ok : Bool) :
    admissions key (outs ++ [(c, ok)]) =
      admissions key outs ++ if c.key = key ∧ ok then [c.now] else [] := by
  rw [admissions, List.filter_append, List.map_append]
  congr 1
  by_cases h : c.key = key ∧ ok = true
  · simp [h.1, h.2]
  · rw [if_neg h, List.filter_cons_of_neg (by simpa using h)]
    rfl

theorem countP_admittedIn (s e : Time) (outs : List (Call × Bool)) :
    outs.countP (admittedIn key s e) =
      (admissions key outs).countP fun t => decide (s ≤ t ∧ t ≤ e) := by
  rw [admissions, List.countP_map, List.countP_filter]
  refine List.countP_congr fun o _ => ?_
  simp only [admittedIn, Function.comp_apply, Bool.and_eq_true, decide_eq_true_eq]
  tauto

/-- What is known of the bucket of a key after some calls. -/
def Accounted (key : String) (calls : List Call) (outs : List (Call × Bool)) :
    Option LoginBucket → Prop
  | none => admissions key outs = []
  | some b => (∃ c ∈ calls, c.now = b.lastFill) ∧
      Ledger seconds (1 / 12) 5 b.lastFill b.account 0 (admissions key outs)

/-- **Step.** A try at an opened bucket. -/
theorem ledger_spend {log : List Time} (h : Ledger seconds (1 / 12) 5 b.lastFill b.account 0 log) :
    Ledger seconds (1 / 12) 5 b.spend.2.lastFill b.spend.2.account 0
      (log ++ if b.spend.1 then [b.lastFill] else []) := by
  unfold LoginBucket.spend
  split
  · simpa using h
  · next htoken =>
      have hadmitted := Ledger.admit h (not_lt.mp htoken) (le_refl (0 + 1)) fun _ => rfl
      exact hadmitted.use seconds_strictMono (by norm_num)

theorem lastFill_openBucket (o : Option LoginBucket) : (openBucket now o).lastFill = now := by
  cases o <;> rfl

theorem lastFill_spend (b : LoginBucket) : b.spend.2.lastFill = b.lastFill := by
  unfold LoginBucket.spend
  split <;> rfl

/-- Opening the bucket of a key keeps its account. -/
theorem ledger_openBucket {calls : List Call} {outs : List (Call × Bool)} {o : Option LoginBucket}
    (h : Accounted key calls outs o) (hle : ∀ c ∈ calls, c.now ≤ now) :
    Ledger seconds (1 / 12) 5 now (openBucket now o).account 0 (admissions key outs) := by
  cases o with
  | none =>
      have hlog : admissions key outs = [] := h
      rw [hlog]
      exact ledger_full seconds_strictMono (by norm_num) (by norm_num) le_rfl
  | some b =>
      obtain ⟨⟨c, hc, hlast⟩, hledger⟩ := h
      have hlate : b.lastFill ≤ now := hlast ▸ hle c hc
      rw [account_openBucket hledger.capped hlate]
      have hrate : (0 : ℚ) ≤ 1 / 12 := by norm_num
      have hlatest : max b.account.refill now = now := max_eq_right hlate
      have hrefilled := Ledger.refilled (b := b.account) seconds_strictMono hrate hledger now
      rwa [hlatest] at hrefilled

/-- **Run.** The account of a key of the limiter without the sweep. -/
theorem accounted_unswept {calls : List Call} (hsorted : calls.Pairwise fun c d => c.now ≤ d.now)
    (key : String) :
    Accounted key calls (answers LoginLimiter.allowUnswept newLoginLimiter calls)
      ((final LoginLimiter.allowUnswept newLoginLimiter calls).buckets key) := by
  induction calls using List.reverseRecOn with
  | nil => rfl
  | append_singleton calls c ih =>
      rw [List.pairwise_append] at hsorted
      have hle : ∀ d ∈ calls, d.now ≤ c.now := fun d hd => hsorted.2.2 d hd c (by simp)
      have hbefore := ih hsorted.1
      rw [answers_concat, final_concat]
      generalize final LoginLimiter.allowUnswept newLoginLimiter calls = l at hbefore
      by_cases hkey : key = c.key
      · subst hkey
        have hopen := ledger_openBucket hbefore hle
        rw [LoginLimiter.allowUnswept, buckets_take_self]
        refine ⟨⟨c, by simp, ?_⟩, ?_⟩
        · rw [lastFill_spend, lastFill_openBucket]
        · have hspend := ledger_spend (b := openBucket c.now (l.buckets c.key))
            (by rwa [lastFill_openBucket])
          rw [admissions_concat, if_congr (and_iff_right rfl) rfl rfl]
          rw [lastFill_openBucket] at hspend
          exact hspend
      · have hlog : admissions key (answers LoginLimiter.allowUnswept newLoginLimiter calls ++
            [(c, (l.allowUnswept c).1)]) =
            admissions key (answers LoginLimiter.allowUnswept newLoginLimiter calls) := by
          rw [admissions_concat, if_neg fun h => hkey h.1.symm, List.append_nil]
        rw [LoginLimiter.allowUnswept, buckets_take_of_ne hkey]
        cases hbucket : l.buckets key with
        | none =>
            rw [hbucket] at hbefore
            exact hlog.trans hbefore
        | some b =>
            rw [hbucket] at hbefore
            obtain ⟨⟨d, hd, hlast⟩, hledger⟩ := hbefore
            refine ⟨⟨d, by simp [hd], hlast⟩, ?_⟩
            rw [LoginLimiter.allowUnswept] at hlog
            rw [hlog]
            exact hledger

/-- **The sweep is unobservable.** -/
theorem sweep_unobservable (calls : List Call)
    (hsorted : calls.Pairwise fun c d => c.now ≤ d.now) : Unobservable calls where
  same := answers_allow hsorted
  retained := by
    intro n hn k b hk hb
    rw [List.take_succ_eq_append_getElem hn, final_concat] at hb
    exact not_le.mp (not_full_of_buckets_allow hk hb)
  window := by
    intro key s e hse
    rw [answers_allow hsorted, countP_admittedIn]
    have haccount := accounted_unswept hsorted key
    cases hbucket : (final LoginLimiter.allowUnswept newLoginLimiter calls).buckets key with
    | none =>
        rw [hbucket] at haccount
        have hlog : admissions key _ = [] := haccount
        have hmono := seconds_strictMono.monotone hse
        rw [hlog, List.countP_nil, Nat.cast_zero]
        linarith
    | some b =>
        rw [hbucket] at haccount
        have hwindow := haccount.2.window s e hse
        linarith

/-- The bucket of `a` is full again, and dropped, when `b` calls after twelve seconds. -/
theorem idleAddress_unobservable :
    Unobservable [⟨0, "a"⟩, ⟨0, "b"⟩, ⟨12 * second, "b"⟩, ⟨12 * second, "a"⟩] :=
  sweep_unobservable _ (by decide)

end TelegramServer.Adminui

import TelegramServer.Dispatch.Limiter
import TelegramServer.Lib.Runs
import Mathlib.Data.Int.ConditionallyCompleteOrder
import Mathlib.Tactic.Linarith
import Mathlib.Tactic.NormNum

/-!
Guessing the password of the admin UI (`handleLoginSubmit` and `globalBackoff` of
`internal/adminui`). After twenty failures in a row nobody is admitted for thirty
seconds, and ten quiet minutes forget the streak.

A request is two steps, the check of the backoff and the comparison of the password,
and other requests come in between. The bound on the failures of a window is an
account that is kept from the first failure of the window on (`Account`). While the
streak is short each failure is paid for by the streak itself. From the twentieth on
it is paid for by the time since the window began: a request in flight when the block
starts may still fail, so each block costs as many failures as there are requests in
flight, and admits the next ones thirty seconds later. Ten quiet minutes pay for a
whole new streak.
-/

namespace TelegramServer.Adminui

open Go Lib Dispatch

/-! ### `globalBackoff` -/

structure GlobalBackoff where
  failures : ℕ := 0
  lastFailure : Time := 0
  blockedUntil : Time := 0

def globalBackoffThreshold : ℕ := 20
def globalBackoffDelay : ℤ := 30 * second
def globalBackoffDecay : ℤ := 10 * 60 * second

namespace GlobalBackoff

variable (g : GlobalBackoff)

def allow (now : Time) : Bool := !decide (now < g.blockedUntil)

/-- The streak a failure at `now` continues. -/
def streak (now : Time) : ℕ :=
  if g.lastFailure ≠ 0 ∧ globalBackoffDecay ≤ now - g.lastFailure then 0 else g.failures

def recordFailure (now : Time) : GlobalBackoff :=
  let failures := g.streak now + 1
  { failures := failures
    lastFailure := now
    blockedUntil :=
      if globalBackoffThreshold ≤ failures then now + globalBackoffDelay else g.blockedUntil }

def recordSuccess : GlobalBackoff := { g with failures := 0, blockedUntil := 0 }

end GlobalBackoff

/-! ### Requests -/

inductive LoginAction
  /-- A request arrives; `limiterAllows` is the answer of the bucket of its address. -/
  | submit (now : Time) (limiterAllows : Bool) (password : String)
  /-- The `n`-th admitted request compares its password. -/
  | compare (now : Time) (n : ℕ)

def LoginAction.now : LoginAction → Time
  | .submit now _ _ => now
  | .compare now _ => now

structure LoginState where
  backoff : GlobalBackoff
  clock : Time
  /-- The passwords of the admitted requests, `none` once they are answered. -/
  requests : List (Option String)
  failed : List Time
  succeeded : List Time

def LoginState.new (clock : Time) : LoginState := ⟨{}, clock, [], [], []⟩

section Model

variable (password : String)

/-- `handleLoginSubmit`, where `password` is the one of the configuration. -/
def loginStep (s : LoginState) (a : LoginAction) : Option LoginState :=
  if a.now < s.clock then none
  else
    match a with
    | .submit now limiterAllows guess =>
        if limiterAllows && s.backoff.allow now then
          some { s with clock := now, requests := s.requests ++ [some guess] }
        else some { s with clock := now }
    | .compare now n =>
        match s.requests[n]? with
        | some (some guess) =>
            if guess ≠ password then
              some
                { s with
                  clock := now
                  backoff := s.backoff.recordFailure now
                  requests := s.requests.set n none
                  failed := s.failed ++ [now] }
            else
              some
                { s with
                  clock := now
                  backoff := s.backoff.recordSuccess
                  requests := s.requests.set n none
                  succeeded := s.succeeded ++ [now] }
        | _ => none

/-- The request is in flight with a wrong password. -/
def isGuess (r : Option String) : Bool := r.any fun guess => guess ≠ password

/-- How many requests are between their admission and their failure. -/
def LoginState.guessing (s : LoginState) : ℕ := s.requests.countP (isGuess password)

/-! ### The account of a window -/

/-- The failures of a window that began at `start`, of which there are `n` so far,
against the streak or against the time that has passed. -/
structure Account (k : ℕ) (start : Time) (g : GlobalBackoff) (clock : Time) (inFlight n : ℕ) :
    Prop where
  began : start ≤ g.lastFailure
  past : g.lastFailure ≤ clock
  streak : g.failures < globalBackoffThreshold →
    n * globalBackoffDelay ≤ g.failures * globalBackoffDelay + k * (g.lastFailure - start)
  blocked : globalBackoffThreshold ≤ g.failures →
    g.blockedUntil = g.lastFailure + globalBackoffDelay
  paid : globalBackoffThreshold ≤ g.failures →
    n * globalBackoffDelay ≤
      19 * globalBackoffDelay + k * (globalBackoffDelay + (g.lastFailure - start))
  /-- While the block lasts, the requests in flight are paid for in advance. -/
  advance : globalBackoffThreshold ≤ g.failures → clock < g.blockedUntil →
    (n + inFlight) * globalBackoffDelay ≤
      19 * globalBackoffDelay + k * (globalBackoffDelay + (g.lastFailure - start))

variable {password} {k n inFlight : ℕ} {start clock now : Time} {g : GlobalBackoff}

theorem delay_nonneg : (0 : ℤ) ≤ globalBackoffDelay := by decide

/-- What time pays for grows with time. -/
theorem credit_mono (k : ℕ) (start : Time) {t t' : Time} (h : t ≤ t') :
    (k : ℤ) * (t - start) ≤ k * (t' - start) :=
  mul_le_mul_of_nonneg_left (Int.sub_le_sub_right h start) (Int.natCast_nonneg k)

/-- The time up to the last failure, the streak and one block pay for everything. -/
theorem Account.settled (h : Account k start g clock inFlight n) :
    n * globalBackoffDelay ≤
      19 * globalBackoffDelay + k * (globalBackoffDelay + (g.lastFailure - start)) := by
  by_cases hfew : g.failures < globalBackoffThreshold
  · have hnineteen : (g.failures : ℤ) * globalBackoffDelay ≤ 19 * globalBackoffDelay := by
      refine mul_le_mul_of_nonneg_right ?_ delay_nonneg
      unfold globalBackoffThreshold at hfew
      omega
    have hblock : (0 : ℤ) ≤ k * globalBackoffDelay :=
      mul_nonneg (Int.natCast_nonneg k) delay_nonneg
    have hstreak := h.streak hfew
    linarith
  · exact h.paid (not_lt.mp hfew)

theorem Account.bound (h : Account k start g clock inFlight n) {stop : Time}
    (hstop : clock ≤ stop) :
    n * globalBackoffDelay ≤
      19 * globalBackoffDelay + k * (globalBackoffDelay + (stop - start)) := by
  have hmono := credit_mono k start (h.past.trans hstop)
  have hsettled := h.settled
  linarith

/-- Time passes and nobody is admitted. -/
theorem Account.tick (h : Account k start g clock inFlight n) (hnow : clock ≤ now) :
    Account k start g now inFlight n :=
  { h with
    past := h.past.trans hnow
    advance := fun hmany hlt => h.advance hmany (lt_of_le_of_lt hnow hlt) }

/-- Somebody is admitted, so the block is over. -/
theorem Account.enter (h : Account k start g clock inFlight n) (hnow : clock ≤ now)
    (hallow : g.allow now = true) (inFlight' : ℕ) : Account k start g now inFlight' n :=
  { h with
    past := h.past.trans hnow
    advance := fun _ hlt => by simp [GlobalBackoff.allow, hlt] at hallow }

/-- The account after a failure at `now`. If the streak stays short, `short` is what
the failure was paid with. Otherwise the time up to `now` has paid for all earlier
failures, and the new block pays for the requests in flight. -/
theorem Account.of_recordFailure (hstart : start ≤ now)
    (short : g.streak now + 1 < globalBackoffThreshold →
      (n + 1) * globalBackoffDelay ≤
        (g.streak now + 1) * globalBackoffDelay + k * (now - start))
    (long : globalBackoffThreshold ≤ g.streak now + 1 →
      (n + 1 + inFlight) * globalBackoffDelay ≤
        19 * globalBackoffDelay + k * (globalBackoffDelay + (now - start))) :
    Account k start (g.recordFailure now) now inFlight (n + 1) where
  began := hstart
  past := le_rfl
  streak := fun hfew => by
    have hshort := short hfew
    simpa [GlobalBackoff.recordFailure] using hshort
  blocked := fun hmany => if_pos hmany
  paid := fun hmany => by
    have hlong := long hmany
    have hflight : (0 : ℤ) ≤ inFlight * globalBackoffDelay :=
      mul_nonneg (Int.natCast_nonneg _) delay_nonneg
    push_cast
    change _ ≤ 19 * globalBackoffDelay + k * (globalBackoffDelay + (now - start))
    linarith
  advance := fun hmany _ => by
    push_cast
    exact long hmany

/-- The first failure of the window. -/
theorem Account.first (g : GlobalBackoff) (hstart : start ≤ now) (hflight : inFlight + 1 ≤ k) :
    Account k start (g.recordFailure now) now inFlight 1 := by
  have hcredit : (0 : ℤ) ≤ k * (now - start) :=
    mul_nonneg (Int.natCast_nonneg k) (by linarith)
  refine Account.of_recordFailure (n := 0) hstart (fun _ => ?_) fun _ => ?_
  · have hstreak : (0 : ℤ) ≤ g.streak now * globalBackoffDelay :=
      mul_nonneg (Int.natCast_nonneg _) delay_nonneg
    push_cast
    linarith
  · have hk : ((inFlight : ℤ) + 1) * globalBackoffDelay ≤ k * globalBackoffDelay :=
      mul_le_mul_of_nonneg_right (by exact_mod_cast hflight) delay_nonneg
    have hnineteen : (0 : ℤ) ≤ 19 * globalBackoffDelay := by decide
    push_cast
    linarith

/-- Ten quiet minutes pay for a block and for a whole new streak. -/
theorem Account.decayed (h : Account k start g clock inFlight n) (hk : 1 ≤ k)
    (hdecay : globalBackoffDecay ≤ now - g.lastFailure) :
    (n + 1) * globalBackoffDelay ≤ globalBackoffDelay + k * (now - start) := by
  have hten : (k : ℤ) * (g.lastFailure - start) + k * (20 * globalBackoffDelay) ≤
      k * (now - start) := by
    rw [← mul_add]
    refine mul_le_mul_of_nonneg_left ?_ (Int.natCast_nonneg k)
    have htwenty : 20 * globalBackoffDelay = globalBackoffDecay := by decide
    linarith
  have hone : globalBackoffDelay ≤ k * globalBackoffDelay :=
    le_mul_of_one_le_left delay_nonneg (by exact_mod_cast hk)
  have hsettled := h.settled
  linarith

/-- A failure that starts or prolongs a block: either the request was in flight when
the last block started, and then it is paid for, or that block is over. -/
theorem Account.blocking (h : Account k start g clock (inFlight + 1) n) (hnow : clock ≤ now)
    (hflight : inFlight + 1 ≤ k) (hmany : globalBackoffThreshold ≤ g.failures + 1) :
    (n + 1 + inFlight) * globalBackoffDelay ≤
      19 * globalBackoffDelay + k * (globalBackoffDelay + (now - start)) := by
  have hmono := credit_mono k start (h.past.trans hnow)
  have hk : ((inFlight : ℤ) + 1) * globalBackoffDelay ≤ k * globalBackoffDelay :=
    mul_le_mul_of_nonneg_right (by exact_mod_cast hflight) delay_nonneg
  by_cases hfew : g.failures < globalBackoffThreshold
  · have hnineteen : g.failures = 19 := by
      unfold globalBackoffThreshold at hfew hmany
      omega
    have hstreak := h.streak hfew
    rw [hnineteen] at hstreak
    push_cast at hstreak
    linarith
  · rw [not_lt] at hfew
    by_cases hblocked : clock < g.blockedUntil
    · have hadvance := h.advance hfew hblocked
      push_cast at hadvance
      linarith
    · have hover : g.lastFailure + globalBackoffDelay ≤ now := by
        rw [← h.blocked hfew]
        exact (not_lt.mp hblocked).trans hnow
      have hpaid := h.paid hfew
      have hnext := credit_mono k start hover
      linarith

/-- A later one. -/
theorem Account.failure (h : Account k start g clock (inFlight + 1) n) (hnow : clock ≤ now)
    (hflight : inFlight + 1 ≤ k) :
    Account k start (g.recordFailure now) now inFlight (n + 1) := by
  have hlast : g.lastFailure ≤ now := h.past.trans hnow
  by_cases hdecay : g.lastFailure ≠ 0 ∧ globalBackoffDecay ≤ now - g.lastFailure
  · have hstreak : g.streak now = 0 := if_pos hdecay
    refine Account.of_recordFailure (h.began.trans hlast) (fun _ => ?_) fun hlong => ?_
    · have hpaid := h.decayed (by omega) hdecay.2
      rw [hstreak]
      push_cast
      linarith
    · rw [hstreak] at hlong
      exact absurd hlong (by decide)
  · have hstreak : g.streak now = g.failures := if_neg hdecay
    refine Account.of_recordFailure (h.began.trans hlast) (fun hshort => ?_) fun hlong => ?_
    · rw [hstreak] at hshort ⊢
      have hpaid := h.streak (by omega)
      have hmono := credit_mono k start hlast
      linarith
    · rw [hstreak] at hlong
      exact h.blocking hnow hflight hlong

end Model

/-! ### Runs -/

section Runs

variable {password : String} {k : ℕ} {start stop : Time} {s s' : LoginState}

/-- What a step does, up to the passwords of the requests in flight. -/
inductive LoginEffect (password : String) (s s' : LoginState) : Prop
  | refuse (hbackoff : s'.backoff = s.backoff)
      (hguessing : s'.guessing password = s.guessing password)
      (hfailed : s'.failed = s.failed) (hsucceeded : s'.succeeded = s.succeeded)
  | enter (hallow : s.backoff.allow s'.clock = true) (hbackoff : s'.backoff = s.backoff)
      (hfailed : s'.failed = s.failed) (hsucceeded : s'.succeeded = s.succeeded)
  | fail (hbackoff : s'.backoff = s.backoff.recordFailure s'.clock)
      (hguessing : s.guessing password = s'.guessing password + 1)
      (hfailed : s'.failed = s.failed ++ [s'.clock]) (hsucceeded : s'.succeeded = s.succeeded)
  | succeed (hfailed : s'.failed = s.failed) (hsucceeded : s'.succeeded = s.succeeded ++ [s'.clock])

theorem guessing_set {n : ℕ} {guess : String} (h : s.requests[n]? = some (some guess))
    (hwrong : guess ≠ password) :
    s.guessing password = (s.requests.set n none).countP (isGuess password) + 1 := by
  obtain ⟨hn, heq⟩ := List.getElem?_eq_some_iff.mp h
  have hguess : isGuess password s.requests[n] = true := by simp [heq, isGuess, hwrong]
  have hle := List.boole_getElem_le_countP hn (p := isGuess password)
  have hanswered : isGuess password none = false := rfl
  rw [List.countP_set hn]
  simp only [hguess, if_true, hanswered, Bool.false_eq_true, if_false] at hle ⊢
  unfold LoginState.guessing
  omega

theorem loginStep_effect {a : LoginAction} (h : loginStep password s a = some s') :
    s.clock ≤ s'.clock ∧ LoginEffect password s s' := by
  unfold loginStep at h
  split at h
  · cases h
  next hclock =>
  rw [not_lt] at hclock
  cases a with
  | submit now limiterAllows guess =>
      dsimp only at h
      split at h
      · next hadmitted =>
          cases h
          rw [Bool.and_eq_true] at hadmitted
          exact ⟨hclock, .enter hadmitted.2 rfl rfl rfl⟩
      · cases h
        exact ⟨hclock, .refuse rfl rfl rfl rfl⟩
  | compare now n =>
      dsimp only at h
      split at h
      · next guess hrequest =>
          split at h
          · next hwrong =>
              cases h
              exact ⟨hclock, .fail rfl (guessing_set hrequest hwrong) rfl rfl⟩
          · cases h
            exact ⟨hclock, .succeed rfl rfl⟩
      · cases h

def failedIn (start stop : Time) (s : LoginState) : ℕ :=
  s.failed.countP fun t => decide (start ≤ t ∧ t ≤ stop)

theorem failedIn_congr (h : s'.failed = s.failed) :
    failedIn start stop s' = failedIn start stop s := by
  rw [failedIn, h, failedIn]

theorem failedIn_append {t : Time} (h : s'.failed = s.failed ++ [t]) :
    failedIn start stop s' =
      failedIn start stop s + if start ≤ t ∧ t ≤ stop then 1 else 0 := by
  rw [failedIn, h, List.countP_append, failedIn]
  simp [List.countP_singleton]

/-- A window with failures has an account, and when it is over the bound. -/
def WindowInv (password : String) (k : ℕ) (start stop : Time) (s : LoginState) : Prop :=
  (∀ t ∈ s.succeeded, ¬(start ≤ t ∧ t ≤ stop)) →
    failedIn start stop s = 0 ∨
      if stop < s.clock then
        failedIn start stop s * globalBackoffDelay ≤
          19 * globalBackoffDelay + k * (globalBackoffDelay + (stop - start))
      else Account k start s.backoff s.clock (s.guessing password) (failedIn start stop s)

theorem WindowInv.bound (hs : WindowInv password k start stop s) (hle : start ≤ stop)
    (hsucceeded : ∀ t ∈ s.succeeded, ¬(start ≤ t ∧ t ≤ stop)) :
    failedIn start stop s * globalBackoffDelay ≤
      19 * globalBackoffDelay + k * (globalBackoffDelay + (stop - start)) := by
  obtain hzero | hwindow := hs hsucceeded
  · have hnineteen : (0 : ℤ) ≤ 19 * globalBackoffDelay := by decide
    have hcredit : (0 : ℤ) ≤ k * (globalBackoffDelay + (stop - start)) :=
      mul_nonneg (Int.natCast_nonneg k) (add_nonneg delay_nonneg (sub_nonneg.mpr hle))
    rw [hzero]
    push_cast
    linarith
  · split at hwindow
    · exact hwindow
    · next hclock => exact hwindow.bound (not_lt.mp hclock)

/-- **One step**, taken where at most `k` guesses are in flight. -/
theorem windowInv_step {a : LoginAction} (hle : start ≤ stop)
    (hs : WindowInv password k start stop s) (hk : s.guessing password ≤ k)
    (h : loginStep password s a = some s') : WindowInv password k start stop s' := by
  obtain ⟨hclock, heffect⟩ := loginStep_effect h
  intro hsucceeded'
  have hsucceeded : ∀ t ∈ s.succeeded, ¬(start ≤ t ∧ t ≤ stop) := by
    intro t ht
    refine hsucceeded' t ?_
    cases heffect with
    | refuse _ _ _ heq | enter _ _ _ heq | fail _ _ _ heq => exact heq ▸ ht
    | succeed _ heq => exact heq ▸ List.mem_append_left _ ht
  by_cases hover : stop < s'.clock
  · -- the window is over, and a failure now is not one of its failures
    have hsame : failedIn start stop s' = failedIn start stop s := by
      cases heffect with
      | refuse _ _ heq _ | enter _ _ heq _ | succeed heq _ => exact failedIn_congr heq
      | fail _ _ heq _ =>
          rw [failedIn_append heq, if_neg fun hin => absurd hin.2 (not_le.mpr hover)]
          rfl
    rw [if_pos hover, hsame]
    exact .inr (hs.bound hle hsucceeded)
  · have hduring : s'.clock ≤ stop := not_lt.mp hover
    have hwindow := hs hsucceeded
    rw [if_neg (not_lt.mpr (hclock.trans hduring))] at hwindow
    rw [if_neg hover]
    cases heffect with
    | refuse hbackoff hguessing hfailed _ =>
        rw [failedIn_congr hfailed, hbackoff, hguessing]
        exact hwindow.imp id fun haccount => haccount.tick hclock
    | enter hallow hbackoff hfailed _ =>
        rw [failedIn_congr hfailed, hbackoff]
        exact hwindow.imp id fun haccount => haccount.enter hclock hallow _
    | fail hbackoff hguessing hfailed _ =>
        rw [failedIn_append hfailed, hbackoff]
        obtain hzero | haccount := hwindow
        · by_cases hbegun : start ≤ s'.clock
          · rw [hzero, if_pos ⟨hbegun, hduring⟩]
            exact .inr (Account.first _ hbegun (by omega))
          · rw [hzero, if_neg fun hin => hbegun hin.1]
            exact .inl rfl
        · have hbegun : start ≤ s'.clock := haccount.began.trans (haccount.past.trans hclock)
          rw [if_pos ⟨hbegun, hduring⟩]
          rw [hguessing] at haccount
          exact .inr (haccount.failure hclock (by omega))
    | succeed hfailed heq =>
        -- a success is not in the window, so the window has not begun
        have hbefore : ¬start ≤ s'.clock := fun hbegun =>
          hsucceeded' s'.clock (by simp [heq]) ⟨hbegun, hduring⟩
        rw [failedIn_congr hfailed]
        obtain hzero | haccount := hwindow
        · exact .inl hzero
        · exact absurd (haccount.began.trans (haccount.past.trans hclock)) hbefore

end Runs

/-- **The guessing bound.** If at most `k` wrong guesses are ever in flight at once,
then in every window without a successful login at most `19 + k * (1 + T / 30)`
comparisons fail, where `T` is the length of the window in seconds. -/
theorem failedLogins_le (password : String) (clock : Time) {k : ℕ} {s : LoginState}
    {actions : List LoginAction}
    (hguard : Guarded (loginStep password) (fun s _ => s.guessing password ≤ k)
      (LoginState.new clock) actions)
    (hrun : run (loginStep password) (LoginState.new clock) actions = some s)
    {start stop : Time} (hle : start ≤ stop)
    (hsucceeded : ∀ t ∈ s.succeeded, ¬(start ≤ t ∧ t ≤ stop)) :
    (failedIn start stop s : ℚ) ≤ 19 + k * (1 + (seconds stop - seconds start) / 30) := by
  have hinit : WindowInv password k start stop (LoginState.new clock) := fun _ => .inl rfl
  have hinv : WindowInv password k start stop s :=
    run_invariant_of_guarded (fun _ _ _ hs hC h => windowInv_step hle hs hC h) hinit hguard hrun
  have hbound := hinv.bound hle hsucceeded
  have hdelay : (0 : ℚ) < globalBackoffDelay := by norm_num [globalBackoffDelay, second]
  have hcast : (failedIn start stop s : ℚ) * globalBackoffDelay ≤
      19 * globalBackoffDelay + k * (globalBackoffDelay + (stop - start)) := by
    exact_mod_cast hbound
  refine le_of_mul_le_mul_right (hcast.trans_eq ?_) hdelay
  have hsecond : (second : ℚ) ≠ 0 := by norm_num [second]
  simp only [seconds, globalBackoffDelay, Int.cast_mul, Int.cast_ofNat]
  field_simp

/-- A burst of guesses at `now`, one after the other, of which `n` come before. -/
def burst (now : Time) (n count : ℕ) : List LoginAction :=
  (List.range count).flatMap fun i => [.submit now true "guess", .compare now (n + i)]

/-- Twenty guesses, ten minutes of quiet and twenty more: the bound is reached. -/
theorem twoBursts_failedLogins :
    ∃ s, run (loginStep "secret") (LoginState.new 0)
        (burst second 0 20 ++ burst (601 * second) 20 20) = some s ∧
      failedIn second (601 * second) s = 40 ∧
      (failedIn second (601 * second) s : ℚ) ≤
        19 + (1 : ℕ) * (1 + (seconds (601 * second) - seconds second) / 30) := by
  have hfinal : (run (loginStep "secret") (LoginState.new 0)
      (burst second 0 20 ++ burst (601 * second) 20 20)).map
        (fun s => (s.succeeded, failedIn second (601 * second) s)) = some ([], 40) := by
    decide +kernel
  obtain ⟨s, hrun, heq⟩ := Option.map_eq_some_iff.mp hfinal
  obtain ⟨hnone, hforty⟩ := Prod.mk.inj heq
  have hguard : Guarded (loginStep "secret") (fun s _ => s.guessing "secret" ≤ 1)
      (LoginState.new 0) (burst second 0 20 ++ burst (601 * second) 20 20) := by
    decide +kernel
  exact ⟨s, hrun, hforty, failedLogins_le "secret" 0 hguard hrun (by decide) (by simp [hnone])⟩

end TelegramServer.Adminui

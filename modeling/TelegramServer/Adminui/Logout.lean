import TelegramServer.Adminui.Session
import TelegramServer.Lib.Runs

/-!
Logging out (`Revoke` of `internal/adminui/session.go`). A cookie cannot be taken
back, so `Revoke` keeps the nonce of the session until its cookie has expired by
itself, and sweeps the entries of earlier sessions on the way.

The two clocks do not agree. `verify` lets a cookie live to the end of the second its
expiry falls in, the sweep drops an entry a nanosecond after twelve hours. A session
that is logged out in the second it was issued in therefore comes back if some other
session is logged out in the last second of its life. In every run that sweeps no
entry this early a session that was logged out stays out.
-/

namespace TelegramServer.Adminui

open Go Lib

namespace SessionManager

variable (sm : SessionManager)

/-- Drop the entries whose sweep time has passed. -/
def sweep (now : Time) : SessionManager :=
  { sm with revoked := sm.revoked.filter fun p => !decide (p.2 < now) }

def revoke (now : Time) (nonce : String) : SessionManager :=
  if nonce = "" then sm
  else
    { sm with
      revoked := (nonce, now + sessionTTL) :: (sm.sweep now).revoked.filter fun p => p.1 ≠ nonce }

end SessionManager

/-! ### Runs -/

/-- A call of the session manager, with the clock reading it makes. -/
inductive SessionCall
  | issue (i : SessionIssue)
  | revoke (now : Time) (nonce : String)
  | verify (now : Time) (value : String)

def SessionCall.now : SessionCall → Time
  | .issue i => i.now
  | .revoke now _ => now
  | .verify now _ => now

structure SessionState where
  manager : SessionManager
  clock : Time
  issued : List SessionIssue
  /-- The sessions that were logged out, with the time of their last `Revoke`. -/
  loggedOut : List (SessionIssue × Time)

/-- `NewSessionManager`, with an arbitrary secret. -/
def SessionState.new (mac : String → String) (clock : Time) : SessionState :=
  ⟨⟨mac, []⟩, clock, [], []⟩

/-- The clock never goes back. -/
def sessionStep (s : SessionState) (c : SessionCall) : Option SessionState :=
  if c.now < s.clock then none
  else
    match c with
    | .issue i => some { s with clock := i.now, issued := s.issued ++ [i] }
    | .revoke now nonce =>
        some
          { manager := s.manager.revoke now nonce
            clock := now
            issued := s.issued
            loggedOut := (s.issued.filter fun i => i.nonce = nonce).map (fun i => (i, now)) ++
              s.loggedOut.filter fun p => p.1.nonce ≠ nonce }
    | .verify now _ => some { s with clock := now }

/-- The session is out for good: no later check of its cookie succeeds. -/
def LogoutsHold (s : SessionState) : Prop :=
  ∀ p ∈ s.loggedOut, ∀ now, s.clock ≤ now → s.manager.verify now (p.1.cookie s.manager) = none

/-- Where a logged-out session is due for the sweep, its cookie has expired. -/
def SweepsExpired (s : SessionState) : SessionCall → Prop
  | .revoke now nonce => nonce ≠ "" → ∀ p ∈ s.loggedOut, p.1.nonce ≠ nonce →
      p.2 + sessionTTL < now → p.1.expiry < unix now
  | _ => True

instance (s : SessionState) (c : SessionCall) : Decidable (SweepsExpired s c) := by
  cases c <;> unfold SweepsExpired <;> infer_instance

/-! ### Cookies and entries -/

theorem SessionIssue.splitBars_cookie (sm : SessionManager) (i : SessionIssue) :
    splitBars (i.cookie sm) = some (formatInt i.expiry, i.nonce,
      sm.mac (formatInt i.expiry ++ "|" ++ i.nonce)) := by
  let tag := sm.mac (formatInt i.expiry ++ "|" ++ i.nonce)
  have hfirst : cut (i.cookie sm) '|' = some (formatInt i.expiry, i.nonce ++ "|" ++ tag) :=
    cut_eq_some.mpr ⟨by simp [cookie, SessionManager.sign, tag], bar_notMem_formatInt _⟩
  have hsecond : cut (i.nonce ++ "|" ++ tag) '|' = some (i.nonce, tag) :=
    cut_eq_some.mpr ⟨by simp, bar_notMem_hexEncode _⟩
  simp [splitBars, hfirst, hsecond, tag]

/-- A cookie that verifies has neither expired nor been revoked. -/
theorem SessionIssue.of_verify_cookie {sm : SessionManager} {i : SessionIssue} {now : Time}
    {r : String × Time} (h : sm.verify now (i.cookie sm) = some r) :
    unix now ≤ i.expiry ∧ sm.isRevoked i.nonce = false := by
  unfold SessionManager.verify at h
  rw [i.splitBars_cookie sm] at h
  dsimp only at h
  split at h
  · cases h
  next n hparse =>
  obtain rfl := parseInt_formatInt hparse
  rw [if_neg (by simp)] at h
  split at h
  · cases h
  next hexpired =>
  split at h
  · cases h
  next hrevoked => exact ⟨not_lt.mp hexpired, by simpa using hrevoked⟩

theorem SessionManager.isRevoked_of_mem {sm : SessionManager} {p : String × Time}
    (h : p ∈ sm.revoked) : sm.isRevoked p.1 = true :=
  List.any_eq_true.mpr ⟨p, h, by simp⟩

theorem SessionManager.mem_revoke_self (sm : SessionManager) (now : Time) {nonce : String}
    (h : nonce ≠ "") : (nonce, now + sessionTTL) ∈ (sm.revoke now nonce).revoked := by
  simp [revoke, h]

/-- The entry of another session stays until it is due. -/
theorem SessionManager.mem_revoke_of_mem {sm : SessionManager} {now : Time} {nonce : String}
    {p : String × Time} (hp : p ∈ sm.revoked) (hne : p.1 ≠ nonce)
    (hdue : nonce ≠ "" → ¬p.2 < now) : p ∈ (sm.revoke now nonce).revoked := by
  unfold revoke
  split
  · exact hp
  next hnonce =>
    refine List.mem_cons_of_mem _ (List.mem_filter.mpr ⟨List.mem_filter.mpr ⟨hp, ?_⟩, ?_⟩)
    · simpa using hdue hnonce
    · simpa using hne

theorem unix_mono {t t' : Time} (h : t ≤ t') : unix t ≤ unix t' :=
  Int.sub_le_sub_right (Int.ediv_le_ediv (by decide) h) _

/-! ### The invariant -/

/-- A session that was logged out has expired or has its entry. -/
def LogoutInv (s : SessionState) : Prop :=
  ∀ p ∈ s.loggedOut,
    p.1.expiry < unix s.clock ∨ (p.1.nonce, p.2 + sessionTTL) ∈ s.manager.revoked

theorem LogoutInv.holds {s : SessionState} (hs : LogoutInv s) : LogoutsHold s := by
  intro p hp now hnow
  by_contra hsome
  obtain ⟨r, hr⟩ := Option.ne_none_iff_exists'.mp hsome
  obtain ⟨hlive, hrevoked⟩ := SessionIssue.of_verify_cookie hr
  obtain hexpired | hentry := hs p hp
  · have hclock := unix_mono hnow
    omega
  · have htrue := SessionManager.isRevoked_of_mem hentry
    simp [hrevoked] at htrue

/-- Time passing takes no entry away. -/
theorem LogoutInv.tick {s s' : SessionState} (hs : LogoutInv s) (hclock : s.clock ≤ s'.clock)
    (hmanager : s'.manager = s.manager) (hout : s'.loggedOut = s.loggedOut) : LogoutInv s' := by
  intro p hp
  rw [hmanager]
  obtain hexpired | hentry := hs p (hout ▸ hp)
  · have hmono := unix_mono hclock
    exact .inl (by omega)
  · exact .inr hentry

theorem logoutInv_step {s s' : SessionState} {c : SessionCall} (hs : LogoutInv s)
    (hsweep : SweepsExpired s c) (h : sessionStep s c = some s') : LogoutInv s' := by
  unfold sessionStep at h
  split at h
  · cases h
  next hclock =>
  rw [not_lt] at hclock
  cases c with
  | issue i =>
      cases h
      exact hs.tick hclock rfl rfl
  | verify now value =>
      cases h
      exact hs.tick hclock rfl rfl
  | revoke now nonce =>
      cases h
      intro p hp
      obtain hnew | hold := List.mem_append.mp hp
      · -- the session that is logged out now
        obtain ⟨i, hi, rfl⟩ := List.mem_map.mp hnew
        obtain rfl : i.nonce = nonce := by simpa using (List.mem_filter.mp hi).2
        exact .inr (s.manager.mem_revoke_self now i.nonce_ne_empty)
      · obtain ⟨hold, hne⟩ := List.mem_filter.mp hold
        have hne : p.1.nonce ≠ nonce := by simpa using hne
        obtain hexpired | hentry := hs p hold
        · have hmono := unix_mono hclock
          exact .inl (lt_of_lt_of_le hexpired hmono)
        · by_cases hdue : nonce ≠ "" ∧ p.2 + sessionTTL < now
          · exact .inl (hsweep hdue.1 p hold hne hdue.2)
          · refine .inr (SessionManager.mem_revoke_of_mem hentry hne fun hnonce hlt => ?_)
            exact hdue ⟨hnonce, hlt⟩

/-- **Logout.** In every run that sweeps a logged-out session only after its cookie
has expired, no check of the cookie succeeds after the logout. -/
theorem logoutsHold_of_sweepsExpired (mac : String → String) (clock : Time) {s' : SessionState}
    {calls : List SessionCall}
    (hguard : Guarded sessionStep SweepsExpired (SessionState.new mac clock) calls)
    (hrun : run sessionStep (SessionState.new mac clock) calls = some s') : LogoutsHold s' := by
  have hinit : LogoutInv (SessionState.new mac clock) := by
    intro p hp
    simp [SessionState.new] at hp
  have hinv : LogoutInv s' :=
    run_invariant_of_guarded (fun _ _ _ hs hC h => logoutInv_step hs hC h) hinit hguard hrun
  exact hinv.holds

/-- Another session than `epochIssue`, issued as that one expires. -/
def secondIssue : SessionIssue := ⟨fromUnix 0 + sessionTTL, List.replicate 16 1, by decide⟩

/-- The first session is logged out `delay` after it was issued, the second at
`later` after the first was issued. -/
def twoLogouts (delay later : ℤ) : List SessionCall :=
  [.issue epochIssue, .revoke (fromUnix 0 + delay) epochIssue.nonce,
    .issue secondIssue, .revoke (fromUnix 0 + later) secondIssue.nonce]

def halfSecond : ℤ := 500000000

theorem lateLogout_holds :
    ∃ s', run sessionStep (SessionState.new epochManager.mac 0)
        (twoLogouts second (sessionTTL + 2 * second)) = some s' ∧
      s'.loggedOut.map (fun p => p.1.nonce) = [secondIssue.nonce, epochIssue.nonce] ∧
      LogoutsHold s' := by
  have hout : (run sessionStep (SessionState.new epochManager.mac 0)
      (twoLogouts second (sessionTTL + 2 * second))).map
        (fun s => s.loggedOut.map fun p => p.1.nonce) =
          some [secondIssue.nonce, epochIssue.nonce] := by
    decide +kernel
  obtain ⟨s', hrun, hnonces⟩ := Option.map_eq_some_iff.mp hout
  have hguard : Guarded sessionStep SweepsExpired (SessionState.new epochManager.mac 0)
      (twoLogouts second (sessionTTL + 2 * second)) := by
    decide +kernel
  exact ⟨s', hrun, hnonces, logoutsHold_of_sweepsExpired _ _ hguard hrun⟩

/-- Both sessions are logged out half a second into a second: the sweep comes with
the second one, just over twelve hours after the first was issued and still within
the second in which its cookie expires. -/
theorem earlyLogout_undone :
    ∃ s', run sessionStep (SessionState.new epochManager.mac 0)
        (twoLogouts halfSecond (sessionTTL + halfSecond + 1)) = some s' ∧ ¬LogoutsHold s' := by
  have hout : (run sessionStep (SessionState.new epochManager.mac 0)
      (twoLogouts halfSecond (sessionTTL + halfSecond + 1))).map
        (fun s => (s.clock, s.loggedOut.map (fun p => p.1.cookie s.manager),
          (s.manager.verify s.clock (epochIssue.cookie epochManager)).isSome)) =
          some (fromUnix 0 + sessionTTL + halfSecond + 1,
            [secondIssue.cookie epochManager, epochIssue.cookie epochManager], true) := by
    decide +kernel
  obtain ⟨s', hrun, heq⟩ := Option.map_eq_some_iff.mp hout
  simp only [Prod.mk.injEq] at heq
  obtain ⟨-, hcookies, hverify⟩ := heq
  refine ⟨s', hrun, fun hhold => ?_⟩
  obtain ⟨p, hp, hcookie⟩ := List.mem_map.mp
    (show epochIssue.cookie epochManager ∈ s'.loggedOut.map fun p => p.1.cookie s'.manager by
      simp [hcookies])
  have hnone := hhold p hp s'.clock le_rfl
  rw [hcookie] at hnone
  simp [hnone] at hverify

end TelegramServer.Adminui

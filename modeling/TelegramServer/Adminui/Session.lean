import TelegramServer.Go.Strconv
import TelegramServer.Go.Strings
import Mathlib.Data.Set.Basic

/-!
The sessions of the admin UI (`internal/adminui/session.go`) and its CSRF tokens
(`csrf.go`). Both are tags under one secret: a session cookie carries the tag of
`<expiry>|<nonce>`, a CSRF token is the tag of `csrf|<nonce>`, and nothing but the
text before the first bar tells the two apart. That is enough, because no number is
written `csrf`.
-/

namespace TelegramServer.Adminui

open Go

structure SessionManager where
  /-- The hex HMAC-SHA256 tag under the secret of the process. -/
  mac : String → String
  /-- The nonces that were logged out, with the time they may be swept. -/
  revoked : List (String × Time)

namespace SessionManager

variable (sm : SessionManager)

def isRevoked (nonce : String) : Bool := sm.revoked.any fun p => p.1 == nonce

def sign (expiry : ℤ) (nonce : String) : String :=
  let payload := formatInt expiry ++ "|" ++ nonce
  payload ++ "|" ++ sm.mac payload

end SessionManager

/-- `strings.SplitN(value, "|", 3)` where it has three parts. -/
def splitBars (value : String) : Option (String × String × String) :=
  (cut value '|').bind fun p => (cut p.2 '|').map fun q => (p.1, q.1, q.2)

namespace SessionManager

variable (sm : SessionManager)

/-- `verify` at the time `now`; the result is the nonce and the expiry. -/
def verify (now : Time) (value : String) : Option (String × Time) :=
  match splitBars value with
  | none => none
  | some (expiryStr, nonce, sig) =>
      match parseInt expiryStr with
      | none => none
      | some expiryUnix =>
          if sig ≠ sm.mac (expiryStr ++ "|" ++ nonce) then none
          else if unix now > expiryUnix then none
          else if sm.isRevoked nonce then none
          else some (nonce, fromUnix expiryUnix)

def csrfToken (nonce : String) : String := sm.mac ("csrf|" ++ nonce)

end SessionManager

/-! ### `Issue` -/

def sessionTTL : ℤ := 12 * 60 * 60 * second

/-- One call of `Issue`: when, and the 16 random bytes it drew. -/
structure SessionIssue where
  now : Time
  random : Bytes
  length_random : random.length = 16

namespace SessionIssue

def nonce (i : SessionIssue) : String := hexEncode i.random

def expiry (i : SessionIssue) : ℤ := unix (i.now + sessionTTL)

def cookie (sm : SessionManager) (i : SessionIssue) : String := sm.sign i.expiry i.nonce

end SessionIssue

/-! ### `VerifyCSRF` -/

/-- What the check reads of a request: the nonce `Middleware` put into its context,
the pre-session cookie and the form field. -/
structure CSRFRequest where
  session : Option String
  csrfCookie : Option String
  token : String

def csrfNonce (r : CSRFRequest) : String :=
  let nonce := r.session.getD ""
  if nonce ≠ "" then nonce else r.csrfCookie.getD ""

def SessionManager.verifyCSRF (sm : SessionManager) (r : CSRFRequest) : Bool :=
  let nonce := csrfNonce r
  if nonce = "" ∨ r.token = "" then false else r.token == sm.csrfToken nonce

/-! ### Unforgeability -/

/-- The messages whose tags the server gave away: the payloads of the cookies it
issued and the CSRF messages of the nonces it was asked for. -/
def Released (issued : List SessionIssue) (csrfNonces : Set String) (message : String) : Prop :=
  (∃ i ∈ issued, message = formatInt i.expiry ++ "|" ++ i.nonce) ∨
    ∃ n ∈ csrfNonces, message = "csrf|" ++ n

/-- An ideal MAC: who presents a text that ends in the tag of a message was given
that tag. -/
def IdealMAC (mac : String → String) (released : String → Prop) (presented : Set String) : Prop :=
  ∀ value ∈ presented, ∀ message, (mac message).toList <:+ value.toList → released message

theorem splitBars_eq_some {value a b c : String} (h : splitBars value = some (a, b, c)) :
    value = a ++ "|" ++ b ++ "|" ++ c ∧ '|' ∉ a.toList := by
  obtain ⟨⟨a', rest⟩, hfirst, hsecond⟩ := Option.bind_eq_some_iff.mp h
  obtain ⟨⟨b', c'⟩, hcut, heq⟩ := Option.map_eq_some_iff.mp hsecond
  simp only [Prod.mk.injEq] at heq
  obtain ⟨rfl, rfl, rfl⟩ := heq
  obtain ⟨hvalue, ha⟩ := cut_eq_some.mp hfirst
  obtain ⟨hrest, -⟩ := cut_eq_some.mp hcut
  refine ⟨String.toList_inj.mp ?_, ha⟩
  rw [hvalue, hrest]
  simp

/-- A text is cut at its first bar in one way only. -/
theorem append_bar_inj {a b a' b' : String} (ha : '|' ∉ a.toList) (ha' : '|' ∉ a'.toList)
    (h : a ++ "|" ++ b = a' ++ "|" ++ b') : a = a' ∧ b = b' := by
  have hcut : cut (a ++ "|" ++ b) '|' = some (a, b) := cut_eq_some.mpr ⟨by simp, ha⟩
  have hcut' : cut (a ++ "|" ++ b) '|' = some (a', b') := cut_eq_some.mpr ⟨by simp [h], ha'⟩
  exact Prod.mk.inj (Option.some.inj (hcut.symm.trans hcut'))

/-- A released message that starts like a cookie is the payload of a cookie. -/
theorem Released.payload {issued : List SessionIssue} {csrfNonces : Set String}
    {expiryStr nonce : String} {n : ℤ}
    (h : Released issued csrfNonces (expiryStr ++ "|" ++ nonce)) (hbar : '|' ∉ expiryStr.toList)
    (hparse : parseInt expiryStr = some n) :
    ∃ i ∈ issued, expiryStr = formatInt i.expiry ∧ nonce = i.nonce := by
  obtain ⟨i, hi, heq⟩ | ⟨m, -, heq⟩ := h
  · exact ⟨i, hi, append_bar_inj hbar (bar_notMem_formatInt _) heq⟩
  · have hcsrf : "csrf|" ++ m = "csrf" ++ "|" ++ m := rfl
    obtain ⟨rfl, -⟩ := append_bar_inj hbar (by decide) (heq.trans hcsrf)
    have hnone : parseInt "csrf" = none := by decide
    rw [hnone] at hparse
    cases hparse

theorem SessionManager.verify_eq_some {sm : SessionManager} {now expiry : Time}
    {value nonce : String} (h : sm.verify now value = some (nonce, expiry)) :
    ∃ expiryStr n, '|' ∉ expiryStr.toList ∧ parseInt expiryStr = some n ∧
      value = expiryStr ++ "|" ++ nonce ++ "|" ++ sm.mac (expiryStr ++ "|" ++ nonce) ∧
      unix now ≤ n ∧ sm.isRevoked nonce = false ∧ expiry = fromUnix n := by
  unfold verify at h
  split at h
  · cases h
  next expiryStr nonce' sig hsplit =>
  split at h
  · cases h
  next n hparse =>
  split at h
  · cases h
  next hsig =>
  split at h
  · cases h
  next hexpired =>
  split at h
  · cases h
  next hrevoked =>
  obtain ⟨rfl, rfl⟩ := Prod.mk.inj (Option.some.inj h)
  obtain ⟨hvalue, hbar⟩ := splitBars_eq_some hsplit
  rw [not_not.mp hsig] at hvalue
  exact ⟨expiryStr, n, hbar, hparse, hvalue, not_lt.mp hexpired, by simpa using hrevoked, rfl⟩

theorem SessionIssue.nonce_ne_empty (i : SessionIssue) : i.nonce ≠ "" := by
  refine hexEncode_ne_empty fun hnil => ?_
  have hlen := i.length_random
  simp [hnil] at hlen

section Unforgeable

variable {sm : SessionManager} {issued : List SessionIssue} {csrfNonces presented : Set String}
  (hideal : IdealMAC sm.mac (Released issued csrfNonces) presented)

include hideal

/-- A presented cookie that verifies is one the server issued. -/
theorem cookie_of_verify {value nonce : String} {now expiry : Time} (hvalue : value ∈ presented)
    (h : sm.verify now value = some (nonce, expiry)) :
    ∃ i ∈ issued, value = i.cookie sm ∧ nonce = i.nonce ∧ expiry = fromUnix i.expiry ∧
      sm.isRevoked nonce = false ∧ unix now ≤ i.expiry := by
  obtain ⟨expiryStr, n, hbar, hparse, heq, hnow, hrevoked, rfl⟩ := SessionManager.verify_eq_some h
  have hreleased : Released issued csrfNonces (expiryStr ++ "|" ++ nonce) := by
    refine hideal value hvalue _ ?_
    rw [heq, String.toList_append]
    exact List.suffix_append _ _
  obtain ⟨i, hi, rfl, rfl⟩ := hreleased.payload hbar hparse
  obtain rfl := parseInt_formatInt hparse
  exact ⟨i, hi, heq, rfl, rfl, hrevoked, hnow⟩

/-- The nonce a request's token is checked against, when its session came from a
cookie that was presented. -/
theorem own_nonce_of_verifyCSRF {r : CSRFRequest}
    (hsession : ∀ n ∈ r.session, ∃ value ∈ presented, ∃ now expiry,
      sm.verify now value = some (n, expiry)) (h : sm.verifyCSRF r = true) :
    ∃ n, (r.session = some n ∨ r.session = none ∧ r.csrfCookie = some n) ∧
      r.token = sm.csrfToken n := by
  have htoken : csrfNonce r ≠ "" ∧ r.token = sm.csrfToken (csrfNonce r) := by
    simp only [SessionManager.verifyCSRF] at h
    split at h
    · cases h
    · next hne => exact ⟨(not_or.mp hne).1, eq_of_beq h⟩
  refine ⟨csrfNonce r, ?_, htoken.2⟩
  cases hs : r.session with
  | none =>
      have hnonce : csrfNonce r = r.csrfCookie.getD "" := by simp [csrfNonce, hs]
      cases hcookie : r.csrfCookie with
      | none => exact absurd (by simp [hnonce, hcookie]) htoken.1
      | some n => exact .inr ⟨rfl, by simp [hnonce, hcookie]⟩
  | some n =>
      -- a session nonce is never empty, so the pre-session cookie is not consulted
      obtain ⟨value, hvalue, now, expiry, hverify⟩ := hsession n hs
      obtain ⟨i, -, -, rfl, -⟩ := cookie_of_verify hideal hvalue hverify
      exact .inl (by simp [csrfNonce, hs, i.nonce_ne_empty])

end Unforgeable

/-- **Unforgeability.** Whatever cookies and CSRF tokens were given away, a cookie
that verifies is one that was issued, unrevoked, unexpired and read back as it was
issued, and a CSRF token is accepted only as the token of the request's own nonce. -/
theorem session_unforgeable (sm : SessionManager) (issued : List SessionIssue)
    (csrfNonces presented : Set String)
    (hideal : IdealMAC sm.mac (Released issued csrfNonces) presented) :
    (∀ value ∈ presented, ∀ now nonce expiry, sm.verify now value = some (nonce, expiry) →
      ∃ i ∈ issued, value = i.cookie sm ∧ nonce = i.nonce ∧ expiry = fromUnix i.expiry ∧
        sm.isRevoked nonce = false ∧ unix now ≤ i.expiry) ∧
    ∀ r : CSRFRequest, (∀ n ∈ r.session, ∃ value ∈ presented, ∃ now expiry,
        sm.verify now value = some (n, expiry)) → sm.verifyCSRF r = true →
      ∃ n, (r.session = some n ∨ r.session = none ∧ r.csrfCookie = some n) ∧
        r.token = sm.csrfToken n :=
  ⟨fun _ hvalue _ _ _ h => cookie_of_verify hideal hvalue h,
    fun _ hsession h => own_nonce_of_verifyCSRF hideal hsession h⟩

/-- A session of the first second of the Unix epoch. -/
def epochIssue : SessionIssue := ⟨fromUnix 0, List.replicate 16 0, by decide⟩

/-- Tags of the length of an HMAC-SHA256; the payload of the cookie has its own. -/
def epochManager : SessionManager where
  mac message := hexEncode (List.replicate 32
    (if message = "43200|00000000000000000000000000000000" then 0xaa else 0xbb))
  revoked := []

theorem epochIssue_verifies :
    ∃ nonce expiry, epochManager.verify (fromUnix 0) (epochIssue.cookie epochManager) =
        some (nonce, expiry) ∧ nonce = epochIssue.nonce ∧ expiry = fromUnix epochIssue.expiry := by
  have hverify : epochManager.verify (fromUnix 0) (epochIssue.cookie epochManager) =
      some ("00000000000000000000000000000000", fromUnix 43200) := by
    decide +kernel
  have hideal : IdealMAC epochManager.mac (Released [epochIssue] ∅)
      {epochIssue.cookie epochManager} := by
    rintro _ rfl message hsuffix
    by_cases hmessage : message = "43200|00000000000000000000000000000000"
    · have hpayload : formatInt epochIssue.expiry ++ "|" ++ epochIssue.nonce =
          "43200|00000000000000000000000000000000" := by
        decide +kernel
      exact .inl ⟨epochIssue, List.mem_singleton.mpr rfl, hmessage.trans hpayload.symm⟩
    · -- the tag of any other message ends in another digit than the cookie
      have hmac : epochManager.mac message = hexEncode (List.replicate 32 0xbb) := by
        simp [epochManager, hmessage]
      rw [hmac] at hsuffix
      have hother : ¬(hexEncode (List.replicate 32 0xbb)).toList <:+
          (epochIssue.cookie epochManager).toList := by
        decide +kernel
      exact absurd hsuffix hother
  obtain ⟨i, hi, -, hnonce, hexpiry, -⟩ := (session_unforgeable epochManager [epochIssue] ∅ _
    hideal).1 _ rfl _ _ _ hverify
  obtain rfl := List.mem_singleton.mp hi
  exact ⟨_, _, hverify, hnonce, hexpiry⟩

end TelegramServer.Adminui

import TelegramServer.Adminui.LoginBackoff
import TelegramServer.Adminui.LoginLimiter
import TelegramServer.Adminui.Logout

/-!
Who may act in the admin UI (`NewServer` of `internal/adminui/server.go`). Everything but the
login is behind the session cookie, and every form is behind the CSRF token of its session. The
server gives cookies away when somebody logs in, and tokens with every page it renders. What it
gave away so far is the history of the run, and nobody can present a tag it did not give away.

Requests are served at the same time. One is checked when it comes in; what its handler does comes
later, and in between other requests may come in, act, and log out.

Over every run, a form that takes effect came in with the cookie of a session that had begun with
the password, and with the token of that session, which had been rendered on a page that was asked
for with the same cookie: another site cannot have made it up. When it came in, the session had not
been logged out in the last twelve hours, for which its cookie could live.
-/

namespace TelegramServer.Adminui

open Go Lib Ratelimit

/-! ### Requests -/

/-- The routes that render a page of a session. -/
inductive UIPage
  | dashboard | delivery | apps | appNew | appDetail | keys | audit | testSend | users

/-- The forms behind a session. -/
inductive UIAction
  | appCreate | appPatch | appDeactivate | appDelete | keyIssue | keyRevoke | keyLabel | auditVerify
  | testSend | userGrade | userSubscribe | userUnsubscribe

inductive UIRoute
  | loginPage | loginSubmit
  | page (p : UIPage)
  /-- `/apps/{id}/keys`, which only redirects. -/
  | keysLegacy
  | action (a : UIAction)
  | logout
  | notFound

/-- The routes behind the CSRF token of a session. -/
def UIRoute.IsForm : UIRoute → Prop
  | .action _ | .logout => True
  | .loginPage | .loginSubmit | .page _ | .keysLegacy | .notFound => False

structure UIRequest where
  route : UIRoute
  clientIP : String := ""
  /-- The two cookies. -/
  session : Option String := none
  csrfCookie : Option String := none
  /-- The clock as `verify` reads it. -/
  reading : Time
  /-- `ParseForm` fails. -/
  badForm : Bool := false
  /-- The form fields `csrf_token` and `password`. -/
  token : String := ""
  password : String := ""

inductive UIResponse
  | redirect (location : String) (cookie : Option String)
  | error (code : String) (status : ℕ)
  /-- A page with the CSRF token in its forms. -/
  | page (token : String)
  | notFound

/-- What the server has done with its secret. -/
inductive UIEvent
  | prepared (nonce : String)
  | loggedIn (r : UIRequest) (i : SessionIssue)
  | viewed (nonce : String)
  | acted (nonce : String)
  | loggedOut (time : Time) (nonce : String)

/-- What is next for a request. -/
inductive UIPhase
  /-- The login page: its nonce. -/
  | prepare
  /-- A login: the limiter, the back-off, the password and the session. -/
  | limiter | backoff | password | issue
  /-- Behind the session with this nonce, and a form behind its token too: the handler. -/
  | within (nonce : String)
  | done (resp : UIResponse)

/-- A request under way. -/
structure Flight where
  request : UIRequest
  phase : UIPhase

structure UIState (ω : Type) where
  sessions : SessionManager
  limiter : LoginLimiter := newLoginLimiter
  backoff : GlobalBackoff := {}
  clock : Time
  /-- What the forms act on. -/
  app : ω
  flights : List Flight := []
  history : List UIEvent := []

variable {ω : Type}

def UIState.record (s : UIState ω) (e : UIEvent) : UIState ω :=
  { s with history := s.history ++ [e] }

/-! ### Middleware -/

/-- `Middleware`: the nonce of the session. -/
def checkSession (sm : SessionManager) (r : UIRequest) : Except UIResponse String :=
  match r.session with
  | none => .error (.redirect "/login" none)
  | some cookie =>
      match sm.verify r.reading cookie with
      | none => .error (.redirect "/login" none)
      | some (nonce, _) => .ok nonce

/-- `RequireCSRF`; `session` is the nonce in the context, if there is one. -/
def requireCSRF (sm : SessionManager) (session : Option String) (r : UIRequest) :
    Except UIResponse Unit :=
  if r.badForm then .error (.error "bad_form" 400)
  else if !sm.verifyCSRF ⟨session, r.csrfCookie, r.token⟩ then .error (.error "csrf_invalid" 403)
  else .ok ()

/-- What stands before the handlers in the router of `NewServer`. -/
def passChecks (sm : SessionManager) (r : UIRequest) : Except UIResponse UIPhase :=
  match r.route with
  | .loginPage => .ok .prepare
  | .loginSubmit => do
      requireCSRF sm none r
      return .limiter
  | .page _ | .keysLegacy => do
      let nonce ← checkSession sm r
      return .within nonce
  | .action _ | .logout => do
      let nonce ← checkSession sm r
      requireCSRF sm (some nonce) r
      return .within nonce
  | .notFound => .error .notFound

def entryPhase (sm : SessionManager) (r : UIRequest) : UIPhase :=
  match passChecks sm r with
  | .ok phase => phase
  | .error resp => .done resp

/-! ### Handlers -/

/-- When something happens, and what `randomHex` draws there. -/
structure Moment where
  now : Time
  random : Bytes
  length_random : random.length = 16

def Moment.nonce (m : Moment) : String := hexEncode m.random

def Moment.issue (m : Moment) : SessionIssue := ⟨m.now, m.random, m.length_random⟩

inductive UIMove (ω : Type)
  | arrive (r : UIRequest)
  /-- What is next for the `k`-th request. -/
  | go (k : ℕ)
  /-- A statement of the handler of the `k`-th request, a form. -/
  | act (k : ℕ) (x : ω)

def UIState.setPhase (s : UIState ω) (k : ℕ) (f : Flight) (phase : UIPhase) : UIState ω :=
  { s with flights := s.flights.set k { f with phase := phase } }

/-- `handleLoginPage` with `IssueCSRFCookie`, `handleLoginSubmit` from one lock to the next, the
end of the handlers of pages and forms, which render a page with the token of `basePageData`, and
`handleLogout`. -/
def UIState.go (password : String) (s : UIState ω) (m : Moment) (k : ℕ) (f : Flight) :
    Option (UIState ω) :=
  let r := f.request
  match f.phase with
  | .prepare =>
      some ((s.record (.prepared m.nonce)).setPhase k f
        (.done (.page (s.sessions.csrfToken m.nonce))))
  | .limiter =>
      let (ok, limiter) := s.limiter.allow ⟨m.now, r.clientIP⟩
      some (UIState.setPhase { s with limiter := limiter } k f
        (if ok then .backoff else .done (.error "rate_limited" 429)))
  | .backoff =>
      some (s.setPhase k f
        (if s.backoff.allow m.now then .password else .done (.error "rate_limited" 429)))
  | .password =>
      if r.password ≠ password then
        some (UIState.setPhase { s with backoff := s.backoff.recordFailure m.now } k f
          (.done (.redirect "/login?error=1" none)))
      else some (UIState.setPhase { s with backoff := s.backoff.recordSuccess } k f .issue)
  | .issue =>
      some ((s.record (.loggedIn r m.issue)).setPhase k f
        (.done (.redirect "/" (some (m.issue.cookie s.sessions)))))
  | .within nonce =>
      match r.route with
      | .page _ =>
          some ((s.record (.viewed nonce)).setPhase k f
            (.done (.page (s.sessions.csrfToken nonce))))
      | .keysLegacy => some (s.setPhase k f (.done (.redirect "/keys" none)))
      | .action _ =>
          some ((s.record (.acted nonce)).setPhase k f (.done (.page (s.sessions.csrfToken nonce))))
      | .logout =>
          let s := { s with sessions := s.sessions.revoke m.now nonce }
          some ((s.record (.loggedOut m.now nonce)).setPhase k f
            (.done (.redirect "/login" (some ""))))
      | .loginPage | .loginSubmit | .notFound => none
  | .done _ => none

/-- A form may act as often as it likes until it is over. -/
def UIState.act (s : UIState ω) (f : Flight) (x : ω) : Option (UIState ω) :=
  match f.phase, f.request.route with
  | .within _, .action _ => some { s with app := x }
  | _, _ => none

def UIState.move (password : String) (s : UIState ω) (m : Moment) : UIMove ω → Option (UIState ω)
  | .arrive r => some { s with flights := s.flights ++ [⟨r, entryPhase s.sessions r⟩] }
  | .go k => s.flights[k]?.bind fun f => s.go password m k f
  | .act k x => s.flights[k]?.bind fun f => s.act f x

/-- The clock never goes back. -/
def uiStep (password : String) (s : UIState ω) (a : Moment × UIMove ω) : Option (UIState ω) :=
  if a.1.now < s.clock then none
  else (s.move password a.1 a.2).map fun s' => { s' with clock := a.1.now }

/-! ### What was given away -/

/-- The sessions of a history. -/
def sessionsOf (history : List UIEvent) : List SessionIssue :=
  history.filterMap fun
    | .loggedIn _ i => some i
    | _ => none

/-- The nonces whose CSRF tokens were rendered. -/
def rendered (history : List UIEvent) : Set String :=
  {n | .prepared n ∈ history ∨ .viewed n ∈ history ∨ .acted n ∈ history}

/-- Nobody presents a tag that was not given away, and what is drawn is new. -/
structure Unforged (s : UIState ω) (a : Moment × UIMove ω) : Prop where
  ideal : ∀ r, a.2 = .arrive r →
    IdealMAC s.sessions.mac (Released (sessionsOf s.history) (rendered s.history))
      ({r.token} ∪ {v | r.session = some v})
  unprepared : .prepared a.1.nonce ∉ s.history
  unissued : ∀ i ∈ sessionsOf s.history, i.nonce ≠ a.1.nonce

/-! ### One step -/

/-- What a phase says about a request. -/
def UIPhase.Fits (password : String) (r : UIRequest) : UIPhase → Prop
  | .limiter | .backoff | .password => r.route = .loginSubmit
  | .issue => r.route = .loginSubmit ∧ r.password = password
  | .prepare | .within _ | .done _ => True

/-- The request causes the event. -/
def Flight.Causes (f : Flight) (m : Moment) : UIEvent → Prop
  | .prepared n => n = m.nonce
  | .loggedIn login i => f.phase = .issue ∧ login = f.request ∧ i = m.issue
  | .viewed n => f.phase = .within n ∧ ∃ p, f.request.route = .page p
  | .acted n => f.phase = .within n ∧ f.request.route.IsForm
  | .loggedOut time n => f.phase = .within n ∧ f.request.route.IsForm ∧ time = m.now

/-- What a step does. -/
inductive UIEffect (password : String) (m : Moment) (mv : UIMove ω) (s s' : UIState ω) : Prop
  | arrived (r : UIRequest) (hmv : mv = .arrive r)
      (hs : s' = { s with flights := s.flights ++ [⟨r, entryPhase s.sessions r⟩] })
  | went (k : ℕ) (f : Flight) (phase : UIPhase) (hmv : mv = .go k) (hk : s.flights[k]? = some f)
      (hfits : f.phase.Fits password f.request → phase.Fits password f.request)
      (hphase : ∀ nonce, phase ≠ .within nonce)
      (hflights : s'.flights = s.flights.set k { f with phase := phase })
      (hsessions : s'.sessions = s.sessions) (happ : s'.app = s.app)
      (hhistory : s'.history = s.history)
  | recorded (k : ℕ) (f : Flight) (e : UIEvent) (resp : UIResponse) (hmv : mv = .go k)
      (hk : s.flights[k]? = some f) (he : f.Causes m e)
      (hflights : s'.flights = s.flights.set k { f with phase := .done resp })
      (hsessions : s'.sessions = s.sessions ∧ (∀ time n, e ≠ .loggedOut time n) ∨
        ∃ n, e = .loggedOut m.now n ∧ s'.sessions = s.sessions.revoke m.now n)
      (happ : s'.app = s.app) (hhistory : s'.history = s.history ++ [e])
  | acted (k : ℕ) (f : Flight) (nonce : String) (x : ω) (hmv : mv = .act k x)
      (hk : s.flights[k]? = some f) (hphase : f.phase = .within nonce)
      (hform : f.request.route.IsForm) (hs : s' = { s with app := x })

section Step

variable {password : String} {m : Moment} {mv : UIMove ω} {s s' : UIState ω}

/-- The secret stays. -/
theorem UIEffect.mac (h : UIEffect password m mv s s') : s'.sessions.mac = s.sessions.mac := by
  cases h with
  | arrived r _ hs => rw [hs]
  | went _ _ _ _ _ _ _ _ hsessions => rw [hsessions]
  | recorded _ _ _ _ _ _ _ _ hsessions =>
      rcases hsessions with ⟨hsessions, -⟩ | ⟨n, -, hsessions⟩
      · rw [hsessions]
      · rw [hsessions, SessionManager.revoke]
        split <;> rfl
  | acted _ _ _ _ _ _ _ _ hs => rw [hs]

theorem checkSession_eq_ok {sm : SessionManager} {r : UIRequest} {nonce : String}
    (h : checkSession sm r = .ok nonce) :
    ∃ cookie expiry, r.session = some cookie ∧
      sm.verify r.reading cookie = some (nonce, expiry) := by
  unfold checkSession at h
  split at h
  · cases h
  · next cookie hcookie =>
      split at h
      · cases h
      · next nonce' expiry hverify =>
          cases h
          exact ⟨cookie, expiry, hcookie, hverify⟩

theorem requireCSRF_eq_ok {sm : SessionManager} {session : Option String} {r : UIRequest}
    {u : Unit} (h : requireCSRF sm session r = .ok u) :
    sm.verifyCSRF ⟨session, r.csrfCookie, r.token⟩ = true := by
  unfold requireCSRF at h
  split at h
  · cases h
  · split at h
    · cases h
    · next hcsrf => simpa using hcsrf

theorem bind_eq_ok {ε α β : Type} {x : Except ε α} {f : α → Except ε β} {b : β} :
    x >>= f = .ok b ↔ ∃ a, x = .ok a ∧ f a = .ok b := by
  cases x <;> simp [bind, Except.bind]

/-- Behind the session, and for a form behind its token. -/
theorem passChecks_eq_within {sm : SessionManager} {r : UIRequest} {nonce : String}
    (h : passChecks sm r = .ok (.within nonce)) :
    (∃ cookie expiry, r.session = some cookie ∧ sm.verify r.reading cookie = some (nonce, expiry)) ∧
      (r.route.IsForm → sm.verifyCSRF ⟨some nonce, r.csrfCookie, r.token⟩ = true) := by
  -- the two kinds of routes behind the session
  have hpage (h : (checkSession sm r >>= fun nonce => .ok (.within nonce)) =
      Except.ok (UIPhase.within nonce)) (hroute : ¬r.route.IsForm) :
      (∃ cookie expiry, r.session = some cookie ∧
        sm.verify r.reading cookie = some (nonce, expiry)) ∧
        (r.route.IsForm → sm.verifyCSRF ⟨some nonce, r.csrfCookie, r.token⟩ = true) := by
    obtain ⟨nonce', hcheck, h⟩ := bind_eq_ok.mp h
    cases h
    exact ⟨checkSession_eq_ok hcheck, fun hform => absurd hform hroute⟩
  have hform (h : (checkSession sm r >>= fun nonce => requireCSRF sm (some nonce) r >>= fun _ =>
      .ok (.within nonce)) = Except.ok (UIPhase.within nonce)) :
      (∃ cookie expiry, r.session = some cookie ∧
        sm.verify r.reading cookie = some (nonce, expiry)) ∧
        (r.route.IsForm → sm.verifyCSRF ⟨some nonce, r.csrfCookie, r.token⟩ = true) := by
    obtain ⟨nonce', hcheck, h⟩ := bind_eq_ok.mp h
    obtain ⟨u, hcsrf, h⟩ := bind_eq_ok.mp h
    cases h
    exact ⟨checkSession_eq_ok hcheck, fun _ => requireCSRF_eq_ok hcsrf⟩
  unfold passChecks at h
  cases hroute : r.route <;> rw [hroute] at h
  case page => exact hroute ▸ hpage h (hroute ▸ id)
  case keysLegacy => exact hroute ▸ hpage h (hroute ▸ id)
  case action => exact hroute ▸ hform h
  case logout => exact hroute ▸ hform h
  case loginSubmit =>
    obtain ⟨u, -, h⟩ := bind_eq_ok.mp h
    cases h
  all_goals cases h

theorem entryPhase_eq_within {sm : SessionManager} {r : UIRequest} {nonce : String}
    (h : entryPhase sm r = .within nonce) : passChecks sm r = .ok (.within nonce) := by
  unfold entryPhase at h
  split at h
  · next phase hpass => rw [hpass, h]
  · cases h

/-- A request that comes in fits its phase. -/
theorem fits_entryPhase (sm : SessionManager) (r : UIRequest) :
    (entryPhase sm r).Fits password r := by
  unfold entryPhase
  split
  · next phase hpass =>
      unfold passChecks at hpass
      cases hroute : r.route <;> rw [hroute] at hpass
      case loginPage =>
        cases hpass
        trivial
      case loginSubmit =>
        obtain ⟨u, -, h⟩ := bind_eq_ok.mp hpass
        cases h
        exact hroute
      case page =>
        obtain ⟨nonce, -, h⟩ := bind_eq_ok.mp hpass
        cases h
        trivial
      case keysLegacy =>
        obtain ⟨nonce, -, h⟩ := bind_eq_ok.mp hpass
        cases h
        trivial
      case action =>
        obtain ⟨nonce, -, h⟩ := bind_eq_ok.mp hpass
        obtain ⟨u, -, h⟩ := bind_eq_ok.mp h
        cases h
        trivial
      case logout =>
        obtain ⟨nonce, -, h⟩ := bind_eq_ok.mp hpass
        obtain ⟨u, -, h⟩ := bind_eq_ok.mp h
        cases h
        trivial
      case notFound => cases hpass
  · trivial

end Step

/-! ### The history of a run -/

/-- A session that was logged out is revoked until its entry is swept. -/
def StaysOut (sm : SessionManager) (clock time : Time) (nonce : String) : Prop :=
  time ≤ clock ∧
    ((∃ u, (nonce, u) ∈ sm.revoked ∧ time + sessionTTL ≤ u) ∨ time + sessionTTL < clock)

/-- The requests of a run. -/
def arrivals (as : List (Moment × UIMove ω)) : List UIRequest :=
  as.filterMap fun
    | (_, .arrive r) => some r
    | _ => none

/-- The right to act, of a form that comes in after the run `before`, in the state `s`. -/
structure Authorized (password : String) (before : List (Moment × UIMove ω)) (s : UIState ω)
    (now : Time) (r login : UIRequest) (i : SessionIssue) : Prop where
  login_mem : login ∈ arrivals before
  login_route : login.route = .loginSubmit
  login_password : login.password = password
  began : .loggedIn login i ∈ s.history
  cookie : r.session = some (i.cookie s.sessions)
  live : unix r.reading ≤ i.expiry
  token : r.token = s.sessions.csrfToken i.nonce
  seen : ∃ view ∈ arrivals before, (∃ p, view.route = .page p) ∧ view.session = r.session
  notLoggedOut : ∀ time, .loggedOut time i.nonce ∈ s.history → time + sessionTTL < now

section Run

variable (password : String) (s₀ : UIState ω)

/-- What is known of a request under way. -/
structure FlightInv (as : List (Moment × UIMove ω)) (s : UIState ω) (f : Flight) : Prop where
  arrived : f.request ∈ arrivals as
  fits : f.phase.Fits password f.request
  session : ∀ nonce, f.phase = .within nonce → ∃ i ∈ sessionsOf s.history, i.nonce = nonce ∧
    f.request.session = some (i.cookie s.sessions)
  viewed : ∀ nonce, f.phase = .within nonce → f.request.route.IsForm → .viewed nonce ∈ s.history
  checked : ∀ nonce, f.phase = .within nonce → f.request.route.IsForm →
    ∃ before m after s₁, as = before ++ (m, .arrive f.request) :: after ∧
      run (uiStep password) s₀ before = some s₁ ∧
      ∃ login i, i.nonce = nonce ∧ Authorized password before s₁ m.now f.request login i

/-- What the history says about the requests of a run. -/
structure UIInv (as : List (Moment × UIMove ω)) (s : UIState ω) : Prop where
  logins : ∀ login i, .loggedIn login i ∈ s.history →
    login ∈ arrivals as ∧ login.route = .loginSubmit ∧ login.password = password
  /-- The nonces are distinct. -/
  distinct : ∀ i ∈ sessionsOf s.history, ∀ j ∈ sessionsOf s.history, i.nonce = j.nonce → i = j
  unprepared : ∀ i ∈ sessionsOf s.history, .prepared i.nonce ∉ s.history
  views : ∀ n, .viewed n ∈ s.history → ∃ view ∈ arrivals as, (∃ p, view.route = .page p) ∧
    ∃ i ∈ sessionsOf s.history, i.nonce = n ∧ view.session = some (i.cookie s.sessions)
  actions : ∀ n, .acted n ∈ s.history → .viewed n ∈ s.history
  logouts : ∀ time n, .loggedOut time n ∈ s.history → StaysOut s.sessions s.clock time n
  flights : ∀ f ∈ s.flights, FlightInv password s₀ as s f

variable {password s₀} {as : List (Moment × UIMove ω)} {s s' : UIState ω} {m : Moment}
  {mv : UIMove ω} {r : UIRequest}

theorem mem_arrivals_concat {a : Moment × UIMove ω} :
    r ∈ arrivals (as ++ [a]) ↔ r ∈ arrivals as ∨ a.2 = .arrive r := by
  obtain ⟨m, mv⟩ := a
  unfold arrivals
  rw [List.filterMap_append, List.mem_append]
  cases mv <;> simp [eq_comm]

theorem mem_sessionsOf {history : List UIEvent} {i : SessionIssue} :
    i ∈ sessionsOf history ↔ ∃ login, .loggedIn login i ∈ history := by
  unfold sessionsOf
  rw [List.mem_filterMap]
  constructor
  · rintro ⟨e, he, hi⟩
    cases e with
    | loggedIn login j =>
        obtain rfl := Option.some.inj hi
        exact ⟨login, he⟩
    | prepared n => cases hi
    | viewed n => cases hi
    | acted n => cases hi
    | loggedOut time n => cases hi
  · rintro ⟨login, hlogin⟩
    exact ⟨_, hlogin, rfl⟩

/-- A cookie that verifies is that of a session of the run. -/
theorem Unforged.session (hr : Unforged s (m, .arrive r)) {cookie nonce : String} {expiry : Time}
    (hcookie : r.session = some cookie)
    (hverify : s.sessions.verify r.reading cookie = some (nonce, expiry)) :
    ∃ i ∈ sessionsOf s.history, cookie = i.cookie s.sessions ∧ nonce = i.nonce ∧
      s.sessions.isRevoked nonce = false ∧ unix r.reading ≤ i.expiry := by
  obtain ⟨i, hi, hvalue, hnonce, -, hrevoked, hexpiry⟩ :=
    cookie_of_verify (hr.ideal r rfl) (.inr hcookie) hverify
  exact ⟨i, hi, hvalue, hnonce, hrevoked, hexpiry⟩

theorem formatInt_ne_csrf (n : ℤ) : formatInt n ≠ "csrf" := by
  intro h
  have hnat : 'c' ∉ formatNat n.natAbs := fun h => absurd (isDigit_of_mem_formatNat h) (by decide)
  have hc : 'c' ∉ (formatInt n).toList := by
    unfold formatInt
    split <;> simp [hnat]
  rw [h] at hc
  exact hc (by decide)

/-- A token that is accepted in a session was rendered. -/
theorem Unforged.token (hr : Unforged s (m, .arrive r)) {cookie nonce : String} {expiry : Time}
    (hcookie : r.session = some cookie)
    (hverify : s.sessions.verify r.reading cookie = some (nonce, expiry))
    (hcsrf : s.sessions.verifyCSRF ⟨some nonce, r.csrfCookie, r.token⟩ = true) :
    r.token = s.sessions.csrfToken nonce ∧ nonce ∈ rendered s.history := by
  have hsession : ∀ n ∈ (⟨some nonce, r.csrfCookie, r.token⟩ : CSRFRequest).session,
      ∃ value ∈ {r.token} ∪ {v | r.session = some v}, ∃ now expiry,
        s.sessions.verify now value = some (n, expiry) := by
    rintro n ⟨⟩
    exact ⟨cookie, .inr hcookie, r.reading, expiry, hverify⟩
  obtain ⟨n, hn, htoken⟩ := own_nonce_of_verifyCSRF (hr.ideal r rfl) hsession hcsrf
  obtain rfl : nonce = n := by simpa using hn
  replace htoken : r.token = s.sessions.csrfToken nonce := htoken
  refine ⟨htoken, ?_⟩
  -- the token is a tag that somebody presents, so its message was released
  have hreleased := hr.ideal r rfl r.token (.inl rfl) ("csrf|" ++ nonce)
    (by rw [htoken]; exact List.suffix_refl _)
  rcases hreleased with ⟨i, -, hpayload⟩ | ⟨m, hm, hmessage⟩
  · have hcut : "csrf" ++ "|" ++ nonce = formatInt i.expiry ++ "|" ++ i.nonce := hpayload
    obtain ⟨hcsrf', -⟩ := append_bar_inj (by decide) (bar_notMem_formatInt _) hcut
    exact absurd hcsrf'.symm (formatInt_ne_csrf _)
  · rwa [(String.append_right_inj _).mp hmessage]

/-- A session that is not revoked has not been logged out in the last twelve hours. -/
theorem UIInv.notLoggedOut (h : UIInv password s₀ as s) {nonce : String}
    (hrevoked : s.sessions.isRevoked nonce = false) {time : Time}
    (hout : .loggedOut time nonce ∈ s.history) : time + sessionTTL < s.clock := by
  rcases (h.logouts time nonce hout).2 with ⟨u, hu, -⟩ | hswept
  · have htrue := SessionManager.isRevoked_of_mem hu
    rw [hrevoked] at htrue
    cases htrue
  · exact hswept

theorem UIInv.viewed_of_rendered (h : UIInv password s₀ as s) {i : SessionIssue}
    (hi : i ∈ sessionsOf s.history) (hrendered : i.nonce ∈ rendered s.history) :
    .viewed i.nonce ∈ s.history := by
  rcases hrendered with hprepared | hviewed | hacted
  · exact absurd hprepared (h.unprepared i hi)
  · exact hviewed
  · exact h.actions _ hacted

/-- The cookies depend on the secret only. -/
theorem cookie_congr {sm sm' : SessionManager} (h : sm.mac = sm'.mac) (i : SessionIssue) :
    i.cookie sm = i.cookie sm' := by
  rw [SessionIssue.cookie, SessionIssue.cookie, SessionManager.sign, SessionManager.sign, h]

/-- A form that comes in and passes the checks has the right to act. -/
theorem UIInv.authorized (h : UIInv password s₀ as s) (hr : Unforged s (m, .arrive r))
    (hnow : s.clock ≤ m.now) (hform : r.route.IsForm) {nonce : String}
    (hpass : passChecks s.sessions r = .ok (.within nonce)) :
    .viewed nonce ∈ s.history ∧
      ∃ login i, i.nonce = nonce ∧ Authorized password as s m.now r login i := by
  obtain ⟨⟨cookie, expiry, hcookie, hverify⟩, hcsrf⟩ := passChecks_eq_within hpass
  obtain ⟨i, hi, rfl, rfl, hrevoked, hexpiry⟩ := hr.session hcookie hverify
  obtain ⟨htoken, hrendered⟩ := hr.token hcookie hverify (hcsrf hform)
  have hviewed := h.viewed_of_rendered hi hrendered
  obtain ⟨view, hview, hpage, j, hj, hnonce, hsession⟩ := h.views _ hviewed
  obtain rfl := h.distinct j hj i hi hnonce
  obtain ⟨login, hlogin⟩ := mem_sessionsOf.mp hi
  obtain ⟨harrived, hroute, hpassword⟩ := h.logins login j hlogin
  exact ⟨hviewed, login, j, rfl, harrived, hroute, hpassword, hlogin, hcookie, hexpiry, htoken,
    ⟨view, hview, hpage, hsession.trans hcookie.symm⟩,
    fun time hout => (h.notLoggedOut hrevoked hout).trans_le hnow⟩

/-- A request under way stays what it was while the history grows. -/
theorem FlightInv.mono {f : Flight} (h : FlightInv password s₀ as s f) (a : Moment × UIMove ω)
    (hmac : s'.sessions.mac = s.sessions.mac) (hhistory : s.history ⊆ s'.history) :
    FlightInv password s₀ (as ++ [a]) s' f where
  arrived := mem_arrivals_concat.mpr (.inl h.arrived)
  fits := h.fits
  session nonce hphase := by
    obtain ⟨i, hi, hnonce, hsession⟩ := h.session nonce hphase
    obtain ⟨login, hlogin⟩ := mem_sessionsOf.mp hi
    exact ⟨i, mem_sessionsOf.mpr ⟨login, hhistory hlogin⟩, hnonce, cookie_congr hmac i ▸ hsession⟩
  viewed nonce hphase hform := hhistory (h.viewed nonce hphase hform)
  checked nonce hphase hform := by
    obtain ⟨before, m, after, s₁, rfl, hrest⟩ := h.checked nonce hphase hform
    exact ⟨before, m, after ++ [a], s₁, by simp, hrest⟩

/-- A request in another phase than behind the session. -/
theorem FlightInv.setPhase {f : Flight} (h : FlightInv password s₀ as s f) {phase : UIPhase}
    (hfits : phase.Fits password f.request) (hphase : ∀ nonce, phase ≠ .within nonce) :
    FlightInv password s₀ as s { f with phase := phase } where
  arrived := h.arrived
  fits := hfits
  session nonce heq := absurd heq (hphase nonce)
  viewed nonce heq := absurd heq (hphase nonce)
  checked nonce heq := absurd heq (hphase nonce)

/-- A request that comes in. -/
theorem UIInv.arrived (h : UIInv password s₀ as s) (hrun : run (uiStep password) s₀ as = some s)
    (hr : Unforged s (m, .arrive r)) (hnow : s.clock ≤ m.now) :
    FlightInv password s₀ (as ++ [(m, .arrive r)]) s ⟨r, entryPhase s.sessions r⟩ where
  arrived := mem_arrivals_concat.mpr (.inr rfl)
  fits := fits_entryPhase s.sessions r
  session nonce hphase := by
    obtain ⟨⟨cookie, expiry, hcookie, hverify⟩, -⟩ :=
      passChecks_eq_within (entryPhase_eq_within hphase)
    obtain ⟨i, hi, rfl, rfl, -⟩ := hr.session hcookie hverify
    exact ⟨i, hi, rfl, hcookie⟩
  viewed nonce hphase hform := (h.authorized hr hnow hform (entryPhase_eq_within hphase)).1
  checked nonce hphase hform := by
    obtain ⟨-, hauthorized⟩ := h.authorized hr hnow hform (entryPhase_eq_within hphase)
    exact ⟨as, m, [], s, rfl, hrun, hauthorized⟩

theorem mem_sessionsOf_concat {history : List UIEvent} {e : UIEvent} {i : SessionIssue} :
    i ∈ sessionsOf (history ++ [e]) ↔
      i ∈ sessionsOf history ∨ ∃ login, e = .loggedIn login i := by
  simp only [mem_sessionsOf, List.mem_append, List.mem_singleton]
  constructor
  · rintro ⟨login, hlogin | rfl⟩
    · exact .inl ⟨login, hlogin⟩
    · exact .inr ⟨login, rfl⟩
  · rintro (⟨login, hlogin⟩ | ⟨login, rfl⟩)
    · exact ⟨login, .inl hlogin⟩
    · exact ⟨login, .inr rfl⟩

theorem StaysOut.mono {sm : SessionManager} {clock clock' time : Time} {n : String}
    (h : StaysOut sm clock time n) (hclock : clock ≤ clock') : StaysOut sm clock' time n :=
  ⟨h.1.trans hclock, h.2.imp_right fun hswept => hswept.trans_le hclock⟩

/-- Revoking a session keeps the other entries until they are due. -/
theorem StaysOut.revoke {sm : SessionManager} {now time : Time} {n : String}
    (h : StaysOut sm now time n) (nonce : String) : StaysOut (sm.revoke now nonce) now time n := by
  refine ⟨h.1, ?_⟩
  rcases h.2 with ⟨u, hu, hle⟩ | hswept
  · by_cases hdue : u < now
    · exact .inr (hle.trans_lt hdue)
    · by_cases hn : n = nonce
      · subst hn
        by_cases hempty : n = ""
        · refine .inl ⟨u, ?_, hle⟩
          rw [SessionManager.revoke, if_pos hempty]
          exact hu
        · exact .inl ⟨_, SessionManager.mem_revoke_self sm now hempty, Int.add_le_add_right h.1 _⟩
      · exact .inl ⟨u, SessionManager.mem_revoke_of_mem hu hn fun _ => hdue, hle⟩
  · exact .inr hswept

/-- A step that adds nothing to the history. -/
theorem UIInv.quiet (h : UIInv password s₀ as s) (a : Moment × UIMove ω)
    (hclock : s.clock ≤ s'.clock) (hsessions : s'.sessions = s.sessions)
    (hhistory : s'.history = s.history)
    (hflights : ∀ f ∈ s'.flights, FlightInv password s₀ (as ++ [a]) s' f) :
    UIInv password s₀ (as ++ [a]) s' := by
  refine ⟨fun login i hlogin => ?_, hhistory ▸ h.distinct, hhistory ▸ h.unprepared,
    fun n hn => ?_, hhistory ▸ h.actions, fun time n hout => ?_, hflights⟩
  · obtain ⟨harrived, hrest⟩ := h.logins login i (hhistory ▸ hlogin)
    exact ⟨mem_arrivals_concat.mpr (.inl harrived), hrest⟩
  · obtain ⟨view, hview, hrest⟩ := h.views n (hhistory ▸ hn)
    rw [hsessions, hhistory]
    exact ⟨view, mem_arrivals_concat.mpr (.inl hview), hrest⟩
  · rw [hsessions]
    exact (h.logouts time n (hhistory ▸ hout)).mono hclock

/-- A step that adds an event to the history. -/
theorem UIInv.record (h : UIInv password s₀ as s) (hr : Unforged s (m, mv)) {f : Flight}
    (hf : f ∈ s.flights) {e : UIEvent} (he : f.Causes m e)
    (hhistory : s'.history = s.history ++ [e]) (hmac : s'.sessions.mac = s.sessions.mac)
    (hlogouts : ∀ time n, .loggedOut time n ∈ s'.history → StaysOut s'.sessions s'.clock time n)
    (hflights : ∀ f ∈ s'.flights, FlightInv password s₀ (as ++ [(m, mv)]) s' f) :
    UIInv password s₀ (as ++ [(m, mv)]) s' := by
  have hinv := h.flights f hf
  -- the only new session has the nonce that was drawn
  have hnew {i : SessionIssue} (hi : i ∈ sessionsOf s'.history) :
      i ∈ sessionsOf s.history ∨ i = m.issue ∧ ∃ login, e = .loggedIn login i := by
    rw [hhistory, mem_sessionsOf_concat] at hi
    rcases hi with hi | ⟨login, rfl⟩
    · exact .inl hi
    · exact .inr ⟨he.2.2, login, rfl⟩
  have hold {i : SessionIssue} (hi : i ∈ sessionsOf s.history) : i ∈ sessionsOf s'.history := by
    rw [hhistory, mem_sessionsOf_concat]
    exact .inl hi
  have hmem {e' : UIEvent} : e' ∈ s'.history ↔ e' ∈ s.history ∨ e' = e := by
    rw [hhistory, List.mem_append, List.mem_singleton]
  refine ⟨fun login i hlogin => ?_, fun i hi j hj hnonce => ?_, fun i hi hp => ?_, fun n hn => ?_,
    fun n hn => ?_, hlogouts, hflights⟩
  · rcases hmem.mp hlogin with hlogin | rfl
    · obtain ⟨harrived, hrest⟩ := h.logins login i hlogin
      exact ⟨mem_arrivals_concat.mpr (.inl harrived), hrest⟩
    · obtain ⟨hphase, rfl, -⟩ := he
      have hfits := hinv.fits
      rw [hphase] at hfits
      exact ⟨mem_arrivals_concat.mpr (.inl hinv.arrived), hfits⟩
  · rcases hnew hi with hi | ⟨rfl, -⟩ <;> rcases hnew hj with hj | ⟨rfl, -⟩
    · exact h.distinct i hi j hj hnonce
    · exact absurd hnonce (hr.unissued i hi)
    · exact absurd hnonce.symm (hr.unissued j hj)
    · rfl
  · rcases hnew hi with hi | ⟨rfl, login, rfl⟩ <;> rcases hmem.mp hp with hp | hp
    · exact h.unprepared i hi hp
    · subst hp
      exact hr.unissued i hi he
    · exact hr.unprepared hp
    · cases hp
  · have hcookie (i : SessionIssue) : i.cookie s'.sessions = i.cookie s.sessions :=
      cookie_congr hmac i
    simp only [hcookie]
    rcases hmem.mp hn with hn | hn
    · obtain ⟨view, hview, hpage, i, hi, hrest⟩ := h.views n hn
      exact ⟨view, mem_arrivals_concat.mpr (.inl hview), hpage, i, hold hi, hrest⟩
    · subst hn
      obtain ⟨hphase, hpage⟩ := he
      obtain ⟨i, hi, hnonce, hsession⟩ := hinv.session n hphase
      exact ⟨f.request, mem_arrivals_concat.mpr (.inl hinv.arrived), hpage, i, hold hi, hnonce,
        hsession⟩
  · rcases hmem.mp hn with hn | hn
    · exact hmem.mpr (.inl (h.actions n hn))
    · subst hn
      exact hmem.mpr (.inl (hinv.viewed n he.1 he.2))

/-- The logouts of the history after one more event. -/
theorem UIInv.logouts_record (h : UIInv password s₀ as s) {f : Flight} (hf : f ∈ s.flights)
    {e : UIEvent} (he : f.Causes m e) (hhistory : s'.history = s.history ++ [e])
    (hnow : s.clock ≤ m.now)
    (hsessions : s'.sessions = s.sessions ∧ (∀ time n, e ≠ .loggedOut time n) ∨
      ∃ n, e = .loggedOut m.now n ∧ s'.sessions = s.sessions.revoke m.now n) {time : Time}
    {n : String} (hout : .loggedOut time n ∈ s'.history) : StaysOut s'.sessions m.now time n := by
  rw [hhistory, List.mem_append, List.mem_singleton] at hout
  rcases hsessions with ⟨hsame, hother⟩ | ⟨nonce, rfl, hrevoked⟩
  · rcases hout with hout | hout
    · rw [hsame]
      exact (h.logouts time n hout).mono hnow
    · exact absurd hout.symm (hother time n)
  · rw [hrevoked]
    rcases hout with hout | hout
    · exact ((h.logouts time n hout).mono hnow).revoke nonce
    · obtain ⟨rfl, rfl⟩ := UIEvent.loggedOut.inj hout
      obtain ⟨i, -, rfl, -⟩ := (h.flights f hf).session n he.1
      exact ⟨le_rfl, .inl ⟨_, SessionManager.mem_revoke_self _ _ i.nonce_ne_empty, le_rfl⟩⟩

/-- **One step.** -/
theorem UIInv.step (h : UIInv password s₀ as s) (hrun : run (uiStep password) s₀ as = some s)
    (hr : Unforged s (m, mv)) (hnow : s.clock ≤ m.now) (heffect : UIEffect password m mv s s') :
    UIInv password s₀ (as ++ [(m, mv)]) { s' with clock := m.now } := by
  have hmac := heffect.mac
  cases heffect with
  | arrived r hmv hs =>
      subst hmv hs
      refine h.quiet _ hnow rfl rfl fun f hf => ?_
      rcases List.mem_append.mp hf with hf | hf
      · exact (h.flights f hf).mono _ rfl (List.Subset.refl _)
      · obtain rfl := List.mem_singleton.mp hf
        have hnew := h.arrived hrun hr hnow
        exact ⟨hnew.arrived, hnew.fits, hnew.session, hnew.viewed, hnew.checked⟩
  | went k f phase hmv hk hfits hphase hflights hsessions happ hhistory =>
      have hf := h.flights f (List.mem_of_getElem? hk)
      refine h.quiet _ hnow hsessions hhistory fun f' hf' => ?_
      replace hf' : f' ∈ s'.flights := hf'
      rw [hflights] at hf'
      have hsubset : s.history ⊆ s'.history := by rw [hhistory]; exact List.Subset.refl _
      rcases List.mem_or_eq_of_mem_set hf' with hf' | rfl
      · exact (h.flights f' hf').mono _ hmac hsubset
      · exact (hf.setPhase (hfits hf.fits) hphase).mono _ hmac hsubset
  | recorded k f e resp hmv hk he hflights hsessions happ hhistory =>
      have hmem := List.mem_of_getElem? hk
      refine h.record hr hmem he hhistory hmac
        (fun time n => h.logouts_record hmem he hhistory hnow hsessions) fun f' hf' => ?_
      replace hf' : f' ∈ s'.flights := hf'
      rw [hflights] at hf'
      have hsubset : s.history ⊆ s'.history := by rw [hhistory]; exact List.subset_append_left _ _
      have hdone : FlightInv password s₀ as s { f with phase := .done resp } :=
        (h.flights f hmem).setPhase trivial nofun
      rcases List.mem_or_eq_of_mem_set hf' with hf' | rfl
      · exact (h.flights f' hf').mono _ hmac hsubset
      · exact hdone.mono _ hmac hsubset
  | acted k f nonce x hmv hk hphase hform hs =>
      subst hs
      exact h.quiet _ hnow rfl rfl fun f' hf' =>
        (h.flights f' hf').mono _ rfl (List.Subset.refl _)

end Run

/-- `NewServer` with an arbitrary secret. -/
def UIState.new (mac : String → String) (clock : Time) (app : ω) : UIState ω :=
  { sessions := ⟨mac, []⟩, clock := clock, app := app }

/-- The text before the tag and the message of the tag, for the events that give one away. -/
def UIEvent.tag : UIEvent → String × String
  | .loggedIn _ i =>
      (formatInt i.expiry ++ "|" ++ i.nonce ++ "|", formatInt i.expiry ++ "|" ++ i.nonce)
  | .prepared n | .viewed n | .acted n | .loggedOut _ n => ("", "csrf|" ++ n)

end TelegramServer.Adminui

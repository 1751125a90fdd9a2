import TelegramServer.Api.StrategyDispatch
import TelegramServer.Dispatch.Recipients

/-!
Whom a message request reaches. The client guide says that `recipients` is a list
of Telegram user ids, whatever the endpoint. The four strategies read it in three
ways: `direct-dm` as Telegram ids, `direct` as row ids of `users`, and `topic` and
`broadcast` not at all.
-/

namespace TelegramServer.Api

open Registry Auth Dispatch

inductive Endpoint
  | direct | topic | broadcast | directDM
  deriving DecidableEq

namespace Endpoint

def strategy (db : Database) (planner : Planner) : Endpoint → RouteStrategy
  | .direct => directStrategy db planner
  | .topic => topicStrategy db
  | .broadcast => broadcastAllStrategy db
  | .directDM => directDMStrategy db planner

def capability : Endpoint → Capability
  | .direct => capMessagesDirect
  | .topic => capMessagesTopic
  | .broadcast => capMessagesBroadcast
  | .directDM => capMessagesDirectDM

def opts : Endpoint → DispatchOpts
  | .direct =>
      { requireAppID := true, requireRecipients := true, defaultChannel := Audit.channelSupergroup }
  | .topic =>
      { requireAppID := true, allowMinGrade := true, defaultChannel := Audit.channelSupergroup }
  | .broadcast => { allowMinGrade := true, defaultChannel := Audit.channelGeneral }
  | .directDM => { requireRecipients := true, defaultChannel := Audit.channelDM }

/-- `ServeHTTP` of the endpoint's handler. -/
def serve (e : Endpoint) (db : Database) (planner : Planner) (r : HTTPRequest) (disp : Dispatcher)
    (w : AuditWriter) : HTTPResponse × Trace :=
  dispatchRun r (e.strategy db planner) disp w e.capability e.opts

/-- The endpoint sends a message for `u` to `rh`. -/
def Selects (e : Endpoint) (db : Database) (req : DispatchRequest) (u : UserRow)
    (rh : RecipientHandle) : Prop :=
  match e with
  | .direct => u.id ∈ req.recipients ∧ InTopic db req.appID u rh
  | .topic =>
      gradeRank (maxGrade (appMinGrade db req.appID) (normalizeGrade req.minGrade)) ≤
        gradeRank u.grade ∧ InTopic db req.appID u rh
  | .broadcast => gradeRank (normalizeGrade req.minGrade) ≤ gradeRank u.grade ∧ InGeneral u rh
  | .directDM => u.telegramID ∈ req.recipients ∧ InDM u rh

end Endpoint

/-- The message goes to a user with one of the Telegram ids, in a chat of theirs. -/
def AddressedTo (db : Database) (telegramIDs : List ℤ) (rh : RecipientHandle) : Prop :=
  ∃ u ∈ db.users.rows, u.id = rh.userID ∧ u.telegramID ∈ telegramIDs ∧
    (u.personalSupergroupChatID = some rh.chatID ∨ u.telegramID = rh.chatID)

/-! ### What is sent -/

section Sent

variable {r : HTTPRequest} {strat : RouteStrategy} {disp : Dispatcher} {w : AuditWriter}
  {cap : Capability} {opts : DispatchOpts}

/-- An accepted request sends to the resolved recipients, whatever Telegram answers. -/
theorem handles_of_accepted (hok : (dispatchRun r strat disp w cap opts).1.status = 200) :
    ∃ req resolved, resolvedRequest r strat opts = some (req, resolved) ∧
      ∀ disp' : Dispatcher, (sends (dispatchRun r strat disp' w cap opts).2).map Sent.rh =
        resolved.recipients := by
  obtain ⟨hstop, -⟩ | ⟨req, resolved, hresolved, hreceived, hvalidated, -⟩ :=
    runStrategyDispatch_run r strat disp w cap opts
  · exact absurd hok hstop.status
  refine ⟨req, resolved, hresolved, fun disp' => ?_⟩
  -- both audit writes come before the first `Send`, so no dispatcher can make them fail
  obtain ⟨-, hfail | hfail | ⟨req', resolved', hresolved', hfail⟩⟩ |
    ⟨req', resolved', hresolved', -, -, hout⟩ := runStrategyDispatch_run r strat disp' w cap opts
  · rw [hreceived] at hfail
    cases hfail
  · rw [hresolved] at hfail
    cases hfail
  · obtain ⟨rfl, rfl⟩ := Prod.mk.inj (Option.some.inj (hresolved.symm.trans hresolved'))
    rw [hvalidated] at hfail
    cases hfail
  · obtain ⟨rfl, rfl⟩ := Prod.mk.inj (Option.some.inj (hresolved.symm.trans hresolved'))
    rw [hout]
    have hhandles := (completed_loops disp' w opts (dispatchFlow r strat (some w) cap) req resolved
      r.newMessageID).handles
    simpa [List.map_map, Function.comp_def] using congrArg (List.map Prod.fst) hhandles

/-- The Telegram of a good day. -/
def acceptAll : Dispatcher := fun _ _ _ => ⟨true, .ok ⟨0, 0⟩⟩

theorem accepted_sendEffects {f : AuditFlow} {env : Envelope} (tr : Trace)
    (rhs : List RecipientHandle) :
    ∀ s ∈ sends (sendEffects f w acceptAll env tr rhs), s.out.accepted = true := by
  induction rhs generalizing tr with
  | nil => simp [sendEffects]
  | cons rh rest ih => simpa [sendEffects, roundEffects, acceptAll] using ih _

theorem accepted_acceptAll :
    ∀ s ∈ sends (dispatchRun r strat acceptAll w cap opts).2, s.out.accepted = true := by
  obtain ⟨hstop, -⟩ | ⟨req, resolved, -, -, -, hout⟩ :=
    runStrategyDispatch_run r strat acceptAll w cap opts
  · simp [hstop.sends]
  · rw [hout]
    simpa [sends_skipEffects] using accepted_sendEffects _ resolved.recipients

end Sent

theorem resolvedRequest_eq_some {r : HTTPRequest} {strat : RouteStrategy} {opts : DispatchOpts}
    {req : DispatchRequest} {resolved : ResolveResult}
    (h : resolvedRequest r strat opts = some (req, resolved)) :
    r.body = some req ∧ strat.resolve (strategyRequest opts req) = .ok resolved := by
  obtain ⟨req', hbody, hreq⟩ := Option.bind_eq_some_iff.mp h
  split at hreq
  · next hresolve =>
      obtain ⟨rfl, rfl⟩ := Prod.mk.inj (Option.some.inj hreq)
      exact ⟨hbody, hresolve⟩
  · cases hreq

/-- The recipients each endpoint resolves. -/
theorem Endpoint.mem_recipients {e : Endpoint} {db : Database} {planner : Planner}
    {req : DispatchRequest} {resolved : ResolveResult}
    (h : (e.strategy db planner).resolve (strategyRequest e.opts req) = .ok resolved)
    {rh : RecipientHandle} :
    rh ∈ resolved.recipients ↔ ∃ u ∈ db.users.rows, e.Selects db req u rh := by
  cases e with
  | direct =>
      simp only [strategy, directStrategy, strategyRequest] at h
      split at h
      · cases h
      · split at h
        · cases h
        · exact mem_resolveDirect h
  | topic =>
      simp only [strategy, topicStrategy, strategyRequest] at h
      split at h
      · cases h
      · exact mem_resolveTopic h
  | broadcast =>
      obtain ⟨res, hres, hspec⟩ := resolveBroadcast_spec db (normalizeGrade req.minGrade)
      obtain rfl := Except.ok.inj (h.symm.trans hres)
      exact hspec rh
  | directDM =>
      simp only [strategy, directDMStrategy, strategyRequest] at h
      split at h
      · cases h
      · obtain ⟨res, hres, hspec⟩ := resolveDirectDM_spec db planner req.recipients
        obtain rfl := Except.ok.inj (h.symm.trans hres)
        exact hspec rh

/-- The user and the chat of a selected handle. -/
theorem Endpoint.Selects.handle {e : Endpoint} {db : Database} {req : DispatchRequest}
    {u : UserRow} {rh : RecipientHandle} (h : e.Selects db req u rh) :
    u.id = rh.userID ∧
      (u.personalSupergroupChatID = some rh.chatID ∨ u.telegramID = rh.chatID) := by
  cases e with
  | direct => exact ⟨h.2.user.symm, .inl h.2.linked⟩
  | topic => exact ⟨h.2.user.symm, .inl h.2.linked⟩
  | broadcast => exact ⟨h.2.user.symm, .inl h.2.linked⟩
  | directDM => exact ⟨h.2.user.symm, .inr h.2.chat.symm⟩

/-! ### Whom it is sent to -/

/-- The condition under which the endpoint keeps to Telegram ids. The private
chats are looked up by Telegram id; for the other endpoints it is a coincidence of
the request with the database. -/
def Endpoint.KeepsToRecipients (e : Endpoint) (db : Database) (req : DispatchRequest) : Prop :=
  match e with
  | .direct => ∀ u ∈ db.users.rows, u.id ∈ req.recipients → (∃ rh, InTopic db req.appID u rh) →
      u.telegramID ∈ req.recipients
  | .topic => ∀ u ∈ db.users.rows,
      gradeRank (maxGrade (appMinGrade db req.appID) (normalizeGrade req.minGrade)) ≤
        gradeRank u.grade → (∃ rh, InTopic db req.appID u rh) → u.telegramID ∈ req.recipients
  | .broadcast => ∀ u ∈ db.users.rows,
      gradeRank (normalizeGrade req.minGrade) ≤ gradeRank u.grade → (∃ rh, InGeneral u rh) →
      u.telegramID ∈ req.recipients
  | .directDM => True

theorem Endpoint.keepsToRecipients_iff {e : Endpoint} {db : Database} {req : DispatchRequest} :
    e.KeepsToRecipients db req ↔
      ∀ u ∈ db.users.rows, ∀ rh, e.Selects db req u rh → u.telegramID ∈ req.recipients := by
  cases e with
  | directDM => exact iff_of_true trivial fun u _ rh h => h.1
  | direct | topic | broadcast =>
      refine forall₂_congr fun u _ => ?_
      exact ⟨fun h rh hsel => h hsel.1 ⟨rh, hsel.2⟩, fun h hreq ⟨rh, hin⟩ => h rh ⟨hreq, hin⟩⟩

/-- **Addressing.** An accepted request sends only to the users its `recipients`
name by Telegram id, whatever Telegram answers, exactly if the condition holds. -/
theorem serve_addressed_iff (e : Endpoint) (db : Database) (planner : Planner) (r : HTTPRequest)
    (w : AuditWriter) (disp : Dispatcher) (req : DispatchRequest) (hbody : r.body = some req)
    (hok : (e.serve db planner r disp w).1.status = 200) :
    (∀ disp' : Dispatcher, ∀ s ∈ sends (e.serve db planner r disp' w).2, s.out.accepted = true →
      AddressedTo db req.recipients s.rh) ↔ e.KeepsToRecipients db req := by
  obtain ⟨req', resolved, hresolved, hhandles⟩ := handles_of_accepted hok
  obtain ⟨hbody', hresolve⟩ := resolvedRequest_eq_some hresolved
  obtain rfl := Option.some.inj (hbody.symm.trans hbody')
  rw [Endpoint.keepsToRecipients_iff]
  constructor
  · intro h u hu rh hsel
    have hmem : rh ∈ (sends (e.serve db planner r acceptAll w).2).map Sent.rh := by
      rw [Endpoint.serve, hhandles]
      exact (Endpoint.mem_recipients hresolve).mpr ⟨u, hu, hsel⟩
    obtain ⟨s, hs, rfl⟩ := List.mem_map.mp hmem
    obtain ⟨u', hu', hid, htg, -⟩ := h acceptAll s hs (accepted_acceptAll s hs)
    obtain rfl := db.users.eq_of_key_eq hu' hu (hid.trans hsel.handle.1.symm)
    exact htg
  · intro h disp' s hs _
    have hmem : s.rh ∈ resolved.recipients := by
      rw [← hhandles disp']
      exact List.mem_map_of_mem hs
    obtain ⟨u, hu, hsel⟩ := (Endpoint.mem_recipients hresolve).mp hmem
    exact ⟨u, hu, hsel.handle.1, h u hu s.rh hsel, hsel.handle.2⟩

/-! ### A row id that is somebody else's Telegram id -/

/-- Two users, each with the other's row id as Telegram id. -/
def crossedUsers : Database where
  users :=
    ⟨[{ id := 1, telegramID := 2, personalSupergroupChatID := some (-100), botIsAdmin := true },
      { id := 2, telegramID := 1, personalSupergroupChatID := some (-200), botIsAdmin := true }],
      by decide⟩
  telegramID_nodup := by decide
  userSeq := 2
  subscriptions := ⟨[⟨1, "news"⟩, ⟨2, "news"⟩], by decide⟩
  topics := ⟨[⟨1, "news", 7⟩, ⟨2, "news", 8⟩], by decide⟩
  tokens := .empty
  apps := ⟨[{ id := "news", name := "News" }], by decide⟩

/-- A message to the user with Telegram id 1. -/
def messageToOne : DispatchRequest :=
  { recipients := [1], appID := "news", envelope := { text := "hi", schemaVersion := 1 } }

def requestToOne : HTTPRequest :=
  { traceID := "t", path := "/v1/messages", requester := {}, newMessageID := "m",
    body := some messageToOne }

theorem directDM_to_one :
    (Endpoint.directDM.serve crossedUsers .inOrder requestToOne acceptAll fun _ _ => true).1.status
        = 200 ∧
      ∀ disp' : Dispatcher, ∀ s ∈ sends (Endpoint.directDM.serve crossedUsers .inOrder requestToOne
        disp' fun _ _ => true).2, s.out.accepted = true → AddressedTo crossedUsers [1] s.rh := by
  have hok : (Endpoint.directDM.serve crossedUsers .inOrder requestToOne acceptAll
      fun _ _ => true).1.status = 200 := by
    decide +kernel
  exact ⟨hok, (serve_addressed_iff .directDM crossedUsers .inOrder requestToOne _ acceptAll
    messageToOne rfl hok).mpr trivial⟩

/-- The direct endpoint takes 1 for a row id and writes to Telegram user 2. -/
theorem direct_to_one_reaches_two :
    (Endpoint.direct.serve crossedUsers .inOrder requestToOne acceptAll fun _ _ => true).1.status
        = 200 ∧
      ∃ s ∈ sends (Endpoint.direct.serve crossedUsers .inOrder requestToOne acceptAll
        fun _ _ => true).2, s.out.accepted = true ∧ s.rh.userID = 1 ∧ s.rh.chatID = -100 ∧
          ¬AddressedTo crossedUsers messageToOne.recipients s.rh := by
  refine ⟨by decide +kernel, ?_⟩
  have hsent : (sends (Endpoint.direct.serve crossedUsers .inOrder requestToOne acceptAll
      fun _ _ => true).2).map (fun s => (s.rh, s.out.accepted)) =
        [(⟨1, -100, 7, "supergroup"⟩, true)] := by
    decide +kernel
  obtain ⟨s, hs, heq⟩ := List.mem_map.mp (hsent ▸ List.mem_singleton.mpr rfl)
  obtain ⟨hrh, haccepted⟩ := Prod.mk.inj heq
  refine ⟨s, hs, haccepted, by rw [hrh], by rw [hrh], ?_⟩
  rw [hrh]
  rintro ⟨u, hu, hid, htg, -⟩
  -- the user with row id 1 has Telegram id 2
  obtain rfl | rfl : u = _ ∨ u = _ := by simpa [crossedUsers] using hu
  · simp [messageToOne] at htg
  · simp at hid

end TelegramServer.Api

import TelegramServer.Bot.Agreement

/-!
The admin flag. `bot_is_admin_in_supergroup` is set by the user whose group an update
about the bot's own status comes from and reset by a new link, so it should say what
the last such update of the linked group said. The runs below carry a log of what
the flag depends on: the links made and the statuses reported.
-/

namespace TelegramServer.Bot

open Go Lib Registry Dispatch

/-! ### The log -/

inductive Notice
  | linked (userID chatID : ℤ)
  | reported (chatID : ℤ) (state : MemberState)

/-- The group and the status of the bot in it, where an update reaches
`PromoteHandler` with one of the five statuses that the handler acts on. -/
def reports (u : Update) : Option (ℤ × MemberState) :=
  u.myChatMember.bind fun m => m.newChatMember.bind fun member =>
    if startgroupToken u = none ∧ m.chat.isGroup = true ∧ member.state ≠ .creator then
      some (m.chat.id, member.state)
    else none

theorem reports_eq_some {u : Update} {chatID : ℤ} {state : MemberState} :
    reports u = some (chatID, state) ↔
      startgroupToken u = none ∧ ∃ m, u.myChatMember = some m ∧ m.chat.isGroup = true ∧
        m.chat.id = chatID ∧ m.newChatMember.map ChatMember.state = some state ∧
        state ≠ .creator := by
  simp only [reports, Option.bind_eq_some_iff, Option.ite_none_right_eq_some, Option.some.injEq,
    Prod.mk.injEq, Option.map_eq_some_iff]
  constructor
  · rintro ⟨m, hm, member, hmember, ⟨htoken, hgroup, hstate⟩, rfl, rfl⟩
    exact ⟨htoken, m, hm, hgroup, rfl, ⟨member, hmember, rfl⟩, hstate⟩
  · rintro ⟨htoken, m, hm, hgroup, rfl, ⟨member, hmember, rfl⟩, hstate⟩
    exact ⟨m, hm, member, hmember, ⟨htoken, hgroup, hstate⟩, rfl, rfl⟩

def Op.notices (w : World) : Op → List Notice
  | .update env u =>
      ((redeems w.db env u).map fun p => Notice.linked p.1 p.2).toList ++
        ((reports u).map fun p => Notice.reported p.1 p.2).toList
  | _ => []

theorem reported_mem_notices {w : World} {env : BotEnv} {u : Update} {chatID : ℤ}
    {state : MemberState} :
    .reported chatID state ∈ (Op.update env u).notices w ↔ reports u = some (chatID, state) := by
  simp [Op.notices]

theorem linked_mem_notices {w : World} {env : BotEnv} {u : Update} {userID chatID : ℤ} :
    .linked userID chatID ∈ (Op.update env u).notices w ↔
      redeems w.db env u = some (userID, chatID) := by
  simp [Op.notices]

/-- An operation together with the log of what it did. -/
def logStep (s : World × List Notice) (op : Op) : Option (World × List Notice) :=
  (opStep s.1 op).map fun w => (w, s.2 ++ op.notices s.1)

/-- The last status reported for the chat is that of an administrator with all the
rights, and it was reported after the last link of the user to the chat. -/
def LastReport (log : List Notice) (userID chatID : ℤ) : Prop :=
  ∃ before state after, log = before ++ .reported chatID state :: after ∧
    state.hasAllAdminRights = true ∧ (∀ state', .reported chatID state' ∉ after) ∧
    .linked userID chatID ∉ after

theorem LastReport.append {log new : List Notice} {userID chatID : ℤ}
    (h : LastReport log userID chatID) (hreported : ∀ state, .reported chatID state ∉ new)
    (hlinked : .linked userID chatID ∉ new) : LastReport (log ++ new) userID chatID := by
  obtain ⟨before, state, after, rfl, hrights, hafter, hlink⟩ := h
  refine ⟨before, state, after ++ new, by simp, hrights, fun state' => ?_, ?_⟩
  · simp [hafter state', hreported state']
  · simp [hlink, hlinked]

theorem lastReport_append_reported {state : MemberState} (h : state.hasAllAdminRights = true)
    (log : List Notice) (userID chatID : ℤ) :
    LastReport (log ++ [.reported chatID state]) userID chatID :=
  ⟨log, state, [], rfl, h, by simp, by simp⟩

/-! ### The flag -/

/-- The user's row has the flag set, and this link. -/
def Flagged (db : Database) (userID : ℤ) (chat : Option ℤ) : Prop :=
  ∃ u ∈ db.users.rows, u.id = userID ∧ u.personalSupergroupChatID = chat ∧ u.botIsAdmin = true

theorem Flagged.linkedTo {db : Database} {userID chatID : ℤ} (h : Flagged db userID (some chatID)) :
    LinkedTo db userID chatID := by
  obtain ⟨u, hu, hid, hchat, -⟩ := h
  exact ⟨u, hu, hid, hchat⟩

theorem flagged_update {db db' : Database} {g : UserRow → UserRow}
    (hrows : db'.users.rows = db.users.rows.map g) (hid : ∀ u, (g u).id = u.id) {userID : ℤ}
    {chat : Option ℤ} :
    Flagged db' userID chat ↔ ∃ u ∈ db.users.rows, u.id = userID ∧
      (g u).personalSupergroupChatID = chat ∧ (g u).botIsAdmin = true := by
  simp only [Flagged, hrows, List.mem_map]
  constructor
  · rintro ⟨_, ⟨u, hu, rfl⟩, huser, h⟩
    exact ⟨u, hu, hid u ▸ huser, h⟩
  · rintro ⟨u, hu, huser, h⟩
    exact ⟨g u, ⟨u, hu, rfl⟩, (hid u).trans huser, h⟩

/-- No flag is set and no flagged user is moved to another chat. -/
def FlagsShrink (db db' : Database) : Prop :=
  ∀ userID chat, Flagged db' userID chat → Flagged db userID chat

theorem flagsShrink_of_users_eq {db db' : Database} (h : db'.users = db.users) :
    FlagsShrink db db' := by
  intro userID chat
  simp only [Flagged, h]
  exact id

theorem flagsShrink_update {db db' : Database} {g : UserRow → UserRow}
    (hrows : db'.users.rows = db.users.rows.map g) (hid : ∀ u, (g u).id = u.id)
    (hg : ∀ u, (g u).botIsAdmin = true →
      (g u).personalSupergroupChatID = u.personalSupergroupChatID ∧ u.botIsAdmin = true) :
    FlagsShrink db db' := by
  intro userID chat h
  obtain ⟨u, hu, huser, hchat, hflag⟩ := (flagged_update hrows hid).mp h
  exact ⟨u, hu, huser, (hg u hflag).1 ▸ hchat, (hg u hflag).2⟩

theorem Registers.flagsShrink {db db' : Database} (h : Registers db db') : FlagsShrink db db' := by
  cases h with
  | upsertOnStart telegramID username preferredLang =>
      unfold Database.upsertOnStart
      dsimp only
      split
      · refine flagsShrink_update rfl (fun u => by split <;> rfl) fun u => ?_
        split <;> exact fun h => ⟨rfl, h⟩
      · split
        · exact flagsShrink_of_users_eq rfl
        · -- the flag of the new row is not set
          rintro userID chat ⟨u, hu, hid, hchat, hflag⟩
          obtain hu | hu := List.mem_append.mp hu
          · exact ⟨u, hu, hid, hchat, hflag⟩
          · rw [List.mem_singleton.mp hu] at hflag
            cases hflag
  | markAgreed now userID =>
      refine flagsShrink_update rfl (fun u => by split <;> rfl) fun u => ?_
      split <;> exact fun h => ⟨rfl, h⟩
  | issueToken now token userID ttl =>
      unfold Database.issueToken
      split <;> exact flagsShrink_of_users_eq rfl

/-- The flags that are set after a handler all have `F`. -/
def FlagsIn (F : ℤ → Option ℤ → Prop) (w : World) : Prop :=
  ∀ userID chat, Flagged w.db userID chat → F userID chat

section FlagsIn

variable {F : ℤ → Option ℤ → Prop} {env : BotEnv} {u : Update} {w : World}

theorem FlagsIn.shrink {db : Database} (h : FlagsIn F w) (hdb : FlagsShrink w.db db) :
    FlagsIn F (w.setDb db) :=
  fun userID chat hflag => h userID chat (hdb userID chat hflag)

theorem tolerates_flagsIn (F : ℤ → Option ℤ → Prop) :
    Tolerates (FlagsIn F) fun _ => True where
  call := fun _ hw => hw
  silent := fun _ _ => trivial
  topic := fun _ _ hw => hw.shrink (flagsShrink_of_users_eq (users_addTopic ..))

theorem keeps_rest_flagsIn (F : ℤ → Option ℤ → Prop) (env : BotEnv) (u : Update) :
    Keeps (FlagsIn F)
      (tryHandlers [intrusionHandle env u, appsHandle env u, startHandle env u]) := by
  have hT := tolerates_flagsIn F
  refine keeps_tryHandlers fun x hx => ?_
  simp only [List.mem_cons, List.not_mem_nil, or_false] at hx
  obtain rfl | rfl | rfl := hx
  · exact hT.keeps_intrusionHandle u
  · exact hT.keeps_appsHandle (fun _ _ h hw => hw.shrink (flagsShrink_of_users_eq h.users_eq))
      (fun _ _ _ _ _ => trivial) (fun _ _ _ _ _ _ => trivial)
      fun _ _ _ _ _ _ _ _ _ _ _ _ _ _ _ _ => trivial
  · exact hT.keeps_startHandle (fun _ _ h hw => hw.shrink h.flagsShrink) u

/-- Setting the flag of one user. -/
theorem flagged_setBotIsAdmin {db : Database} {userID id : ℤ} {isAdmin : Bool} {chat : Option ℤ}
    (h : Flagged (db.setBotIsAdmin userID isAdmin) id chat) :
    (id = userID ∧ isAdmin = true ∧ ∃ u ∈ db.users.rows, u.id = userID ∧
      u.personalSupergroupChatID = chat) ∨ (id ≠ userID ∧ Flagged db id chat) := by
  obtain ⟨u, hu, rfl, hchat, hflag⟩ := (flagged_update rfl fun u => by split <;> rfl).mp h
  by_cases hid : u.id = userID
  · simp only [hid, decide_true, if_true] at hchat hflag
    exact .inl ⟨hid, hflag, u, hu, hid, hchat⟩
  · simp only [hid, decide_false, Bool.false_eq_true, if_false] at hchat hflag
    exact .inr ⟨hid, u, hu, rfl, hchat, hflag⟩

/-- What an update leaves set: a flag that was set before and that neither the status
it reports nor the link it makes is about, or the flag of the chat it reports to have
made the bot an administrator. -/
def FlagAfter (w : World) (env : BotEnv) (u : Update) (userID : ℤ) (chat : Option ℤ) : Prop :=
  (∃ chatID state, chat = some chatID ∧ reports u = some (chatID, state) ∧
    state.hasAllAdminRights = true) ∨
  (Flagged w.db userID chat ∧ (∀ chatID state, reports u = some (chatID, state) →
    chat ≠ some chatID) ∧ ∀ chatID, redeems w.db env u ≠ some (userID, chatID))

theorem flagsIn_startgroupHandle {p : ℤ × String} (h : startgroupToken u = some p) :
    FlagsIn (FlagAfter w env u) ((startgroupHandle env u).run w).2 := by
  have hreports : reports u = none := by simp [reports, h]
  cases hredeem : redeems w.db env u with
  | none =>
      have hbefore : FlagsIn (FlagAfter w env u) w := fun userID chat hflag =>
        .inr ⟨hflag, by simp [hreports], by simp [hredeem]⟩
      refine (tolerates_flagsIn _).triple_startgroupHandle hbefore (fun _ _ _ _ _ => trivial)
        (fun token => hbefore.shrink (flagsShrink_of_users_eq (users_consumeToken ..))) ?_ w rfl
      intro token userID chatID hsome
      rw [hredeem] at hsome
      cases hsome
  | some p =>
      obtain ⟨userID, chatID⟩ := p
      obtain ⟨-, -, -, -, -, user, huser, rfl, hstatus⟩ := redeems_eq_some.mp hredeem
      obtain ⟨token, -, hdb⟩ := db_startgroupHandle hredeem
      intro id chat hflag
      rw [hdb] at hflag
      obtain ⟨row, hrow, rfl, hchat, hadmin⟩ :=
        (flagged_update rfl fun u => by split <;> rfl).mp hflag
      rw [users_consumeToken] at hrow
      -- the flag of the linked user is reset
      have hother : row.id ≠ user.id := by
        intro hid
        obtain rfl := w.db.users.eq_of_key_eq hrow huser hid
        simp [hstatus] at hadmin
      simp only [hother, decide_false, Bool.false_and, Bool.false_eq_true, if_false] at hchat hadmin
      refine .inr ⟨⟨row, hrow, rfl, hchat, hadmin⟩, by simp [hreports], fun chatID' heq => ?_⟩
      rw [hredeem] at heq
      exact hother (Prod.mk.inj (Option.some.inj heq)).1.symm

/-- The flag of the user the chat belongs to is set to what is reported. -/
theorem flagsIn_setBotIsAdmin (hone : OneUserPerChat w.db) {userID chatID : ℤ} {state : MemberState}
    (hlinked : LinkedTo w.db userID chatID) (hreports : reports u = some (chatID, state))
    {isAdmin : Bool} (hrights : isAdmin = true → state.hasAllAdminRights = true) {s : World}
    (hs : s.db = w.db.setBotIsAdmin userID isAdmin) : FlagsIn (FlagAfter w env u) s := by
  intro id chat hflag
  rw [hs] at hflag
  obtain ⟨rfl, hadmin, row, hrow, hid, hchat⟩ | ⟨hother, hbefore⟩ := flagged_setBotIsAdmin hflag
  · obtain ⟨row', hrow', hid', hchat'⟩ := hlinked
    obtain rfl := w.db.users.eq_of_key_eq hrow hrow' (hid.trans hid'.symm)
    exact .inl ⟨chatID, state, hchat.symm.trans hchat', hreports, hrights hadmin⟩
  · refine .inr ⟨hbefore, fun chatID' state' heq hchat => ?_, fun chatID' hredeem => ?_⟩
    · obtain ⟨rfl, -⟩ := Prod.mk.inj (Option.some.inj (hreports.symm.trans heq))
      subst hchat
      exact hother (oneUserPerChat_iff.mp hone id userID chatID hbefore.linkedTo hlinked)
    · obtain ⟨token, htoken, -⟩ := redeems_eq_some.mp hredeem
      rw [(reports_eq_some.mp hreports).1] at htoken
      cases htoken

theorem triple_setBotIsAdmin (hok : ∀ stmt, env.fails stmt = false) (userID : ℤ) (isAdmin : Bool) :
    Triple (fun s => s.db = w.db)
      (exec env .setBotIsAdmin fun db => db.setBotIsAdmin userID isAdmin)
      fun _ s => s.db = w.db.setBotIsAdmin userID isAdmin := by
  intro s hs
  simp [exec, run_query, hok, hs]

theorem triple_markNotAdmin (hok : ∀ stmt, env.fails stmt = false) (userID chatID : ℤ)
    (errorCode : String) :
    Triple (fun s => s.db = w.db) (markNotAdmin env userID chatID errorCode)
      fun _ s => s.db = w.db.setBotIsAdmin userID false := by
  refine Triple.bind (triple_setBotIsAdmin hok userID false) fun r => ?_
  cases r with
  | error e => exact Keeps.pure
  | ok _ => exact fun s hs => hs

/-- A report that takes the flag away. -/
theorem flagsIn_demoted (hok : ∀ stmt, env.fails stmt = false) (hone : OneUserPerChat w.db)
    {userID chatID : ℤ} {state : MemberState} (hlinked : LinkedTo w.db userID chatID)
    (hreports : reports u = some (chatID, state)) (errorCode : String) :
    Triple (fun s => s.db = w.db) (do markNotAdmin env userID chatID errorCode; return true)
      fun _ => FlagsIn (FlagAfter w env u) :=
  Triple.bind (triple_markNotAdmin hok userID chatID errorCode) fun _ =>
    Triple.pure fun _ hs => flagsIn_setBotIsAdmin hone hlinked hreports (by simp) hs

/-- A report that sets it: the topics are made afterwards, and touch no flag. -/
theorem flagsIn_promoted (hok : ∀ stmt, env.fails stmt = false) (hone : OneUserPerChat w.db)
    {userID chatID : ℤ} {state : MemberState} (hlinked : LinkedTo w.db userID chatID)
    (hreports : reports u = some (chatID, state)) (hrights : state.hasAllAdminRights = true)
    {α : Type} {k : Except RegistryErr Unit → BotM α}
    (hk : ∀ r, Keeps (fun s => LinkedTo s.db userID chatID ∧ FlagsIn (FlagAfter w env u) s) (k r)) :
    Triple (fun s => s.db = w.db)
      ((exec env .setBotIsAdmin fun db => db.setBotIsAdmin userID true) >>= k)
      fun _ => FlagsIn (FlagAfter w env u) := by
  refine Triple.bind (triple_setBotIsAdmin hok userID true) fun r => ?_
  refine (hk r).weaken (fun s hs => ⟨?_, ?_⟩) fun _ _ h => h.2
  · rw [hs]
    exact hlinked.setBotIsAdmin userID true
  · exact flagsIn_setBotIsAdmin hone hlinked hreports (fun _ => hrights) hs

theorem flagsIn_promoteHandle (hok : ∀ stmt, env.fails stmt = false) (hone : OneUserPerChat w.db)
    (htoken : startgroupToken u = none) :
    Triple (fun s => s = w) (promoteHandle env u) fun _ => FlagsIn (FlagAfter w env u) := by
  have hquiet (h : ∀ chatID state, reports u = some (chatID, state) →
      ∀ userID, ¬LinkedTo w.db userID chatID) {s : World} (hs : s.db = w.db) :
      FlagsIn (FlagAfter w env u) s := by
    intro userID chat hflag
    rw [hs] at hflag
    refine .inr ⟨hflag, fun chatID state hreports hchat => ?_, by simp [redeems, htoken]⟩
    subst hchat
    exact h chatID state hreports userID hflag.linkedTo
  unfold promoteHandle
  split
  next hm => exact Triple.pure fun s hs => hquiet (by simp [reports, hm]) (by rw [hs])
  next m hm =>
    -- a report can only be about the chat of this update
    have hreports {chatID : ℤ} {state : MemberState} (h : reports u = some (chatID, state)) :
        m.chat.isGroup = true ∧ m.chat.id = chatID ∧
          m.newChatMember.map ChatMember.state = some state ∧ state ≠ .creator := by
      obtain ⟨-, m', hm', hreport⟩ := reports_eq_some.mp h
      cases hm.symm.trans hm'
      exact hreport
    split
    next hgroup =>
      refine Triple.pure fun s hs => hquiet (fun chatID state h => ?_) (by rw [hs])
      simp [(hreports h).1] at hgroup
    next hgroup =>
      have hfind : Triple (fun s => s = w) (select env .findUserByChatID fun db =>
          db.findUserByChatID env.planner m.chat.id) fun r s =>
          s.db = w.db ∧ w.db.findUserByChatID env.planner m.chat.id = r := by
        rintro s rfl
        simp [run_select, hok]
      refine Triple.bind hfind fun r s hs => ?_
      cases r with
      | error e =>
          refine hquiet (fun chatID state h userID => ?_) hs.1
          exact (hreports h).2.1 ▸ not_linkedTo_of_findUserByChatID hs.2 userID
      | ok userID =>
          have hlinked := linkedTo_of_findUserByChatID hs.2
          have hreported {state : MemberState}
              (hstate : m.newChatMember.map ChatMember.state = some state)
              (hne : state ≠ .creator) : reports u = some (m.chat.id, state) :=
            reports_eq_some.mpr ⟨htoken, m, hm, by simpa using hgroup, rfl, hstate, hne⟩
          refine Triple.weaken (P := fun s => s.db = w.db)
            (Q := fun _ => FlagsIn (FlagAfter w env u)) ?_ (fun _ h => h) (fun _ _ h => h) s hs.1
          dsimp only
          split
          next hstate =>
            split
            · exact Triple.bind (R := fun _ s => s.db = w.db) (fun _ h => h) fun _ =>
                flagsIn_demoted hok hone hlinked (hreported hstate (by simp)) _
            next hrights =>
              have hJ := (tolerates_flagsIn (FlagAfter w env u)).and_linkedTo userID m.chat.id
              refine flagsIn_promoted hok hone hlinked (hreported hstate (by simp))
                (by simpa using hrights) fun r => ?_
              cases r with
              | error e => exact Keeps.pure
              | ok _ =>
                  refine Keeps.bind (hJ.keeps_ensureForSubscribedApps fun _ h => h.1) fun _ => ?_
                  exact Keeps.bind (hJ.keeps_call trivial) fun _ => Keeps.pure
          iterate 4
            next hstate => exact flagsIn_demoted hok hone hlinked (hreported hstate (by simp)) _
          all_goals
            next hstate =>
              refine Triple.pure fun s hs' => hquiet (fun chatID state h => ?_) hs'
              obtain ⟨-, -, hstate', hne⟩ := hreports h
              simp_all

/-- **One update.** -/
theorem flagsIn_dispatchUpdate (hok : ∀ stmt, env.fails stmt = false) (hone : OneUserPerChat w.db) :
    FlagsIn (FlagAfter w env u) ((dispatchUpdate env u).run w).2 := by
  cases htoken : startgroupToken u with
  | some p =>
      rw [run_dispatchUpdate_of_startgroup htoken]
      exact flagsIn_startgroupHandle htoken
  | none =>
      rw [dispatchUpdate_of_startgroupToken htoken]
      have hall : Triple (fun s => s = w) (tryHandlers [promoteHandle env u, intrusionHandle env u,
          appsHandle env u, startHandle env u]) fun _ => FlagsIn (FlagAfter w env u) := by
        refine Triple.bind (flagsIn_promoteHandle hok hone htoken) fun handled => ?_
        split
        · exact keeps_rest_flagsIn _ env u
        · exact Keeps.pure
      exact hall w rfl

end FlagsIn

/-! ### Runs -/

/-- Every statement of the operation succeeds. -/
def Op.Succeeds : Op → Prop
  | .update env _ => ∀ stmt, env.fails stmt = false
  | _ => True

def FlagInv (s : World × List Notice) : Prop :=
  FlagsIn (fun userID chat => ∃ chatID, chat = some chatID ∧ LastReport s.2 userID chatID) s.1

theorem FlagAfter.lastReport {w : World} {log : List Notice} {env : BotEnv} {u : Update}
    {userID : ℤ} {chat : Option ℤ} (hinv : FlagInv (w, log)) (h : FlagAfter w env u userID chat) :
    ∃ chatID, chat = some chatID ∧
      LastReport (log ++ (Op.update env u).notices w) userID chatID := by
  obtain ⟨chatID, state, rfl, hreports, hrights⟩ | ⟨hflag, hreports, hredeem⟩ := h
  · have hnone : redeems w.db env u = none := by
      simp [redeems, (reports_eq_some.mp hreports).1]
    refine ⟨chatID, rfl, ?_⟩
    simp only [Op.notices, hnone, hreports, Option.map_none, Option.map_some, Option.toList_none,
      Option.toList_some, List.nil_append]
    exact lastReport_append_reported hrights log userID chatID
  · obtain ⟨chatID, rfl, hlast⟩ := hinv userID chat hflag
    refine ⟨chatID, rfl, hlast.append (fun state hmem => ?_) fun hmem => ?_⟩
    · exact hreports chatID state (reported_mem_notices.mp hmem) rfl
    · exact hredeem chatID (linked_mem_notices.mp hmem)

/-- The operators set no flag. -/
theorem flagsShrink_opStep {w w' : World} {op : Op} (hop : ∀ env u, op ≠ .update env u)
    (hstep : opStep w op = some w') : FlagsShrink w.db w'.db := by
  cases op with
  | update env u => exact absurd rfl (hop env u)
  | issueToken now token userID ttl =>
      cases hstep
      exact Registers.flagsShrink (.issueToken ..)
  | resetLink userID =>
      cases hstep
      refine flagsShrink_update rfl (fun u => by split <;> rfl) fun u => ?_
      split <;> simp
  | anonymize userID =>
      cases hstep
      refine flagsShrink_update rfl (fun u => by split <;> rfl) fun u => ?_
      split <;> simp
  | adminSubscribe telegramID appID =>
      cases hstep
      refine flagsShrink_of_users_eq ?_
      simp only [World.setDb, adminSubscribe]
      split
      · split
        · exact Subscribes.users_eq (.add ..)
        · rfl
      · rfl
  | adminUnsubscribe telegramID appID =>
      cases hstep
      refine flagsShrink_of_users_eq ?_
      simp only [World.setDb, adminUnsubscribe]
      split <;> rfl

theorem flagInv_step {s s' : World × List Notice} {op : Op} (hinv : FlagInv s) (hok : op.Succeeds)
    (hone : OneUserPerChat s.1.db) (hstep : logStep s op = some s') : FlagInv s' := by
  obtain ⟨w, log⟩ := s
  simp only [logStep, Option.map_eq_some_iff] at hstep
  obtain ⟨w', hop, rfl⟩ := hstep
  by_cases hupdate : ∃ env u, op = .update env u
  · obtain ⟨env, u, rfl⟩ := hupdate
    cases hop
    exact fun userID chat hflag =>
      (flagsIn_dispatchUpdate hok hone userID chat hflag).lastReport hinv
  · have hnot : ∀ env u, op ≠ .update env u := fun env u h => hupdate ⟨env, u, h⟩
    have hnotices : op.notices w = [] := by
      cases op with
      | update env u => exact absurd rfl (hnot env u)
      | _ => rfl
    intro userID chat hflag
    rw [hnotices, List.append_nil]
    exact hinv userID chat (flagsShrink_opStep hnot hop userID chat hflag)

theorem lastReport_of_flagged {w w' : World} {ops : List Op} {log : List Notice}
    (hw : ∀ u ∈ w.db.users.rows, u.botIsAdmin = false) (hok : ∀ op ∈ ops, op.Succeeds)
    (hone : Guarded logStep (fun s _ => OneUserPerChat s.1.db) (w, []) ops)
    (hrun : run logStep (w, []) ops = some (w', log)) {u : UserRow} (hu : u ∈ w'.db.users.rows)
    (hflag : u.botIsAdmin = true) :
    ∃ chatID, u.personalSupergroupChatID = some chatID ∧ LastReport log u.id chatID := by
  have hinit : FlagInv (w, []) := by
    rintro userID chat ⟨u, hu, -, -, hflag⟩
    simp [hw u hu] at hflag
  have hguard := hone.and (guarded_of_forall (C := fun _ op => op.Succeeds)
    (fun op hop _ => hok op hop) (w, []))
  have hinv : FlagInv (w', log) := run_invariant_of_guarded
    (fun _ _ _ hI hC hstep => flagInv_step hI hC.2 hC.1 hstep) hinit hguard hrun
  exact hinv u.id _ ⟨u, hu, rfl, rfl, hflag⟩

/-- The user of `onboarding` has the flag, as reported for their group. -/
theorem onboarding_lastReport :
    ∃ w log, run logStep (freshWorld, []) onboarding = some (w, log) ∧
      ∃ u ∈ w.db.users.rows, u.botIsAdmin = true ∧ u.personalSupergroupChatID = some (-100) ∧
        LastReport log u.id (-100) := by
  have hflags : (run logStep (freshWorld, []) onboarding).map
      (fun s => s.1.db.users.rows.map fun u => (u.botIsAdmin, u.personalSupergroupChatID)) =
        some [(true, some (-100))] := by
    decide +kernel
  obtain ⟨⟨w, log⟩, hrun, hrows⟩ := Option.map_eq_some_iff.mp hflags
  obtain ⟨u, hu, heq⟩ := List.mem_map.mp (hrows ▸ List.mem_singleton.mpr rfl :
    (true, some (-100)) ∈ w.db.users.rows.map fun u => (u.botIsAdmin, u.personalSupergroupChatID))
  obtain ⟨hflag, hchat⟩ := Prod.mk.inj heq
  have hok : ∀ op ∈ onboarding, op.Succeeds := by
    simp [onboarding, Op.Succeeds, issuing]
  obtain ⟨chatID, hlinked, hlast⟩ := lastReport_of_flagged (by simp [freshWorld, Table.empty]) hok
    (by decide +kernel) hrun hu hflag
  obtain rfl := Option.some.inj (hchat.symm.trans hlinked)
  exact ⟨w, log, hrun, u, hu, hflag, hchat, hlast⟩

end TelegramServer.Bot

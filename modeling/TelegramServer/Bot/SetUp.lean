import TelegramServer.Bot.AdminFlag

/-!
Setting a user up. Telegram sends two updates when a user adds the bot to a new group
by the deeplink and makes it an administrator there: the message that carries the
token, and the report of the bot's new status. It does not promise their order, and
it sends no report at all when the bot is an administrator of the group already.

Only the message tells whose group it is. A report that comes before it belongs to
nobody, and the link then made resets the flag.
-/

namespace TelegramServer.Bot

open Go Lib Registry Dispatch

/-- The user is linked to the chat, the bot is known to be its administrator, and
every app the user subscribed to has a topic. -/
structure SetUp (db : Database) (userID chatID : ℤ) : Prop where
  flagged : Flagged db userID (some chatID)
  topics : ∀ s ∈ db.subscriptions.rows, s.userID = userID → s.key ∈ db.topics.keys

/-! ### The topic provisioner, when nothing fails -/

/-- Nothing but topics has changed, and the topics include `keys`. -/
structure OnlyTopics (db : Database) (keys : List (ℤ × String)) (w : World) : Prop where
  users : w.db.users = db.users
  subscriptions : w.db.subscriptions = db.subscriptions
  tokens : w.db.tokens = db.tokens
  apps : w.db.apps = db.apps
  topics : ∀ k ∈ keys, k ∈ w.db.topics.keys

section Provisioner

variable {env : BotEnv} {db : Database} {userID chatID : ℤ}

theorem OnlyTopics.addTopic {keys : List (ℤ × String)} {w : World} (h : OnlyTopics db keys w)
    {app : String} (hrefs : db.references userID app = true) (topicID : ℤ) :
    OnlyTopics db ((userID, app) :: keys) (w.setDb (w.db.addTopic userID app topicID).2) := by
  have hrefs' : w.db.references userID app = true := by
    rwa [Database.references, h.users, h.apps]
  simp only [Database.addTopic, hrefs', if_true, World.setDb]
  refine ⟨h.users, h.subscriptions, h.tokens, h.apps, fun k hk => ?_⟩
  rw [Table.mem_keys_insert_iff]
  obtain rfl | hk := List.mem_cons.mp hk
  · exact .inr rfl
  · exact .inl (h.topics k hk)

theorem OnlyTopics.mono {keys keys' : List (ℤ × String)} {w : World} (h : OnlyTopics db keys w)
    (hkeys : keys' ⊆ keys) : OnlyTopics db keys' w :=
  { h with topics := fun k hk => h.topics k (hkeys hk) }

theorem OnlyTopics.calls {keys : List (ℤ × String)} {w : World} (h : OnlyTopics db keys w)
    (c : BotCall) : OnlyTopics db keys ((Bot.call c).run w).2 :=
  ⟨h.users, h.subscriptions, h.tokens, h.apps, h.topics⟩

theorem triple_ensureLoop (hok : ∀ stmt, env.fails stmt = false)
    (hcreate : ∀ app, (env.createForumTopic app).isSome = true) (apps : List String)
    (hrefs : ∀ app ∈ apps, db.references userID app = true) (keys : List (ℤ × String)) :
    Triple (OnlyTopics db keys) (ensureLoop env userID chatID apps)
      fun _ => OnlyTopics db (apps.map (fun app => (userID, app)) ++ keys) := by
  induction apps generalizing keys with
  | nil => exact Triple.pure fun _ h => h
  | cons app rest ih =>
      obtain ⟨topicID, htopic⟩ := Option.isSome_iff_exists.mp (hcreate app)
      have hrest : Triple (OnlyTopics db ((userID, app) :: keys))
          (ensureLoop env userID chatID rest)
          fun _ => OnlyTopics db ((app :: rest).map (fun app => (userID, app)) ++ keys) :=
        (ih (fun app' h => hrefs app' (List.mem_cons_of_mem _ h)) _).weaken (fun _ h => h)
          fun _ _ h => h.mono (by simp)
      unfold ensureLoop
      simp only [htopic]
      refine Triple.bind (R := fun _ => OnlyTopics db keys) (fun _ h => h.calls _) fun _ => ?_
      refine Triple.bind (R := fun _ => OnlyTopics db ((userID, app) :: keys)) ?_ fun r => ?_
      · intro w h
        rw [run_query, hok, if_neg Bool.false_ne_true]
        exact h.addTopic (hrefs app (List.mem_cons_self ..)) topicID
      · cases r with
        | error e => exact hrest
        | ok _ => exact Triple.bind hrest fun _ => Keeps.pure

theorem triple_ensureForSubscribedApps (hok : ∀ stmt, env.fails stmt = false)
    (hcreate : ∀ app, (env.createForumTopic app).isSome = true)
    (hrefs : ∀ s ∈ db.subscriptions.rows, s.userID = userID →
      db.references userID s.appID = true) :
    Triple (fun w => w.db = db) (ensureForSubscribedApps env userID chatID) fun _ =>
      OnlyTopics db ((db.subscriptions.rows.filter fun s => s.userID = userID).map
        Subscription.key) := by
  refine Triple.bind (R := fun r w => r = .ok (db.listSubscribedAppsWithoutTopic userID) ∧
    w.db = db) ?_ fun r => ?_
  · rintro w rfl
    simp [run_select, hok]
  rintro w ⟨rfl, rfl⟩
  have hbefore : OnlyTopics w.db w.db.topics.keys w := ⟨rfl, rfl, rfl, rfl, fun _ hk => hk⟩
  refine Triple.bind (triple_ensureLoop hok hcreate _ (fun app happ => ?_) _)
    (fun created => Triple.pure fun s hs => hs.mono ?_) w hbefore
  · obtain ⟨⟨s, hs, hkey⟩, -⟩ := mem_listSubscribedAppsWithoutTopic.mp happ
    obtain ⟨huser, rfl⟩ := Prod.mk.inj hkey
    exact hrefs s hs huser
  · -- an app had its topic before, or it was in the list
    intro k hk
    obtain ⟨s, hs, rfl⟩ := List.mem_map.mp hk
    obtain ⟨hs, huser⟩ := List.mem_filter.mp hs
    have huser : s.userID = userID := by simpa using huser
    have hkey : s.key = (userID, s.appID) := Prod.ext huser rfl
    rw [List.mem_append]
    by_cases hhas : s.key ∈ w.db.topics.keys
    · exact .inr hhas
    · refine .inl (List.mem_map.mpr ⟨s.appID, ?_, hkey.symm⟩)
      exact mem_listSubscribedAppsWithoutTopic.mpr ⟨⟨s, hs, hkey⟩, hkey ▸ hhas⟩

end Provisioner

/-! ### The two updates -/

/-- What a report with all the rights does: nothing for a chat nobody is linked to,
else it sets the flag of the user found and makes the topics. -/
theorem run_promoteHandle {env : BotEnv} {u : Update} {w : World} {chatID : ℤ} {state : MemberState}
    (hok : ∀ stmt, env.fails stmt = false) (hreports : reports u = some (chatID, state))
    (hrights : state.hasAllAdminRights = true) :
    match w.db.findUserByChatID env.planner chatID with
    | .error _ => ((promoteHandle env u).run w).2.db = w.db
    | .ok userID => ((promoteHandle env u).run w).2.db =
        ((ensureForSubscribedApps env userID chatID).run
          (w.setDb (w.db.setBotIsAdmin userID true))).2.db := by
  obtain ⟨-, m, hm, hgroup, rfl, hstate, -⟩ := reports_eq_some.mp hreports
  cases state with
  | administrator post stories topics restrict =>
      cases hfind : w.db.findUserByChatID env.planner m.chat.id with
      | error e =>
          simp only [promoteHandle, hm, hgroup, Bool.not_true, Bool.false_eq_true, if_false,
            run_bind, run_select, hok, hfind, run_pure]
      | ok userID =>
          simp only [promoteHandle, hm, hgroup, Bool.not_true, Bool.false_eq_true, if_false,
            run_bind, run_select, hok, hfind, hstate, hrights, exec, run_query, run_pure, sendReady,
            sendMessage, run_call, World.setDb]
  | _ => simp [MemberState.hasAllAdminRights] at hrights

theorem run_dispatchUpdate_of_reports {env : BotEnv} {u : Update} {chatID : ℤ}
    {state : MemberState} (hreports : reports u = some (chatID, state)) (w : World) :
    ((dispatchUpdate env u).run w).2 = ((promoteHandle env u).run w).2 := by
  obtain ⟨htoken, m, hm, -⟩ := reports_eq_some.mp hreports
  exact run_dispatchUpdate_of_promote htoken hm w

/-! ### The orders they come in -/

/-- A user with a valid token and the group they add the bot to, with the two updates
and a setting in which every statement and every call to Telegram succeeds. The user is
not anonymized: `LinkSupergroup` would leave the row of such a user as it is. -/
structure Invitation (w : World) where
  user : UserRow
  token : PendingToken
  chatID : ℤ
  rights : MemberState
  message : BotEnv × Update
  report : BotEnv × Update
  user_mem : user ∈ w.db.users.rows
  user_status : user.status ≠ .anonymized
  token_mem : token ∈ w.db.tokens.rows
  token_user : token.userID = user.id
  token_valid : ¬token.expiresAt < message.1.now
  message_token : startgroupToken message.2 = some (chatID, token.token)
  message_ok : ∀ stmt, message.1.fails stmt = false
  report_rights : reports report.2 = some (chatID, rights)
  rights_all : rights.hasAllAdminRights = true
  report_ok : ∀ stmt, report.1.fails stmt = false
  topics_ok : ∀ app, (report.1.createForumTopic app).isSome = true
  apps_exist : ∀ s ∈ w.db.subscriptions.rows, s.userID = user.id → s.appID ∈ w.db.apps.keys

inductive Arrival
  | messageFirst | reportFirst
  /-- The bot is an administrator of the group already: no report comes. -/
  | noReport

def Invitation.updates {w : World} (i : Invitation w) : Arrival → List (BotEnv × Update)
  | .messageFirst => [i.message, i.report]
  | .reportFirst => [i.report, i.message]
  | .noReport => [i.message]

def process (w : World) (updates : List (BotEnv × Update)) : World :=
  updates.foldl (fun w x => ((dispatchUpdate x.1 x.2).run w).2) w

namespace Invitation

variable {w : World} (i : Invitation w)

/-- The token is still there and the user too. -/
structure Pending (s : World) : Prop where
  tokens : s.db.tokens = w.db.tokens
  user : ∃ u ∈ s.db.users.rows, u.id = i.user.id ∧ u.status ≠ .anonymized

theorem pending : i.Pending w := ⟨rfl, i.user, i.user_mem, rfl, i.user_status⟩

theorem tolerates_pending : Tolerates i.Pending fun _ => True where
  call := fun _ hw => ⟨hw.tokens, hw.user⟩
  silent := fun _ _ => trivial
  topic := by
    intro s userID chatID topicID appID _ _ hw
    refine ⟨(frame_addTopic ..).1.trans hw.tokens, ?_⟩
    rw [World.setDb, users_addTopic]
    exact hw.user

theorem redeems_of_pending {s : World} (h : i.Pending s) :
    redeems s.db i.message.1 i.message.2 = some (i.user.id, i.chatID) := by
  refine redeems_eq_some.mpr ⟨i.token.token, i.message_token, i.message_ok _, i.message_ok _, ?_,
    h.user⟩
  have hfind : s.db.tokens.find? i.token.token = some i.token :=
    Table.find?_eq_some.mpr ⟨h.tokens ▸ i.token_mem, rfl⟩
  simp only [Database.consumeToken, hfind, i.token_valid, if_false, i.token_user]

/-- The message links the user and resets the flag. -/
theorem not_flagged_after_message {s : World} (h : i.Pending s) (chat : Option ℤ) :
    ¬Flagged ((dispatchUpdate i.message.1 i.message.2).run s).2.db i.user.id chat := by
  rw [run_dispatchUpdate_of_startgroup i.message_token]
  intro hflag
  obtain ⟨_, _, -, hreports, -⟩ | ⟨-, -, hredeem⟩ :=
    flagsIn_startgroupHandle i.message_token i.user.id chat hflag
  · cases i.message_token.symm.trans (reports_eq_some.mp hreports).1
  · exact hredeem i.chatID (i.redeems_of_pending h)

theorem pending_setBotIsAdmin {s : World} (h : i.Pending s) (userID : ℤ) (isAdmin : Bool) :
    i.Pending (s.setDb (s.db.setBotIsAdmin userID isAdmin)) := by
  obtain ⟨u, hu, hid, hstatus⟩ := h.user
  refine ⟨h.tokens, _, List.mem_map.mpr ⟨u, hu, rfl⟩, ?_, ?_⟩
  · split <;> exact hid
  · split <;> exact hstatus

/-- A report leaves the token to be redeemed. -/
theorem pending_after_report : i.Pending ((dispatchUpdate i.report.1 i.report.2).run w).2 := by
  rw [run_dispatchUpdate_of_reports i.report_rights]
  refine i.tolerates_pending.keeps_promoteHandle (fun _ _ _ _ => trivial)
    (fun _ _ _ _ _ _ _ => i.tolerates_pending.keeps_call trivial) ?_ w i.pending
  exact fun _ userID isAdmin s _ _ hs => i.pending_setBotIsAdmin hs userID isAdmin

/-- The world after the message. -/
def joined : World := ((dispatchUpdate i.message.1 i.message.2).run w).2

/-- The message deletes the token and links the user. -/
theorem db_joined : ∃ token, i.joined.db =
    (w.db.consumeToken i.message.1.now token).2.linkSupergroup i.user.id i.chatID := by
  rw [joined, run_dispatchUpdate_of_startgroup i.message_token]
  obtain ⟨token, -, hdb⟩ := db_startgroupHandle (i.redeems_of_pending i.pending)
  exact ⟨token, hdb⟩

theorem users_joined : i.joined.db.users = (w.db.linkSupergroup i.user.id i.chatID).users := by
  obtain ⟨token, hdb⟩ := i.db_joined
  rw [hdb]
  simp only [Database.linkSupergroup, Database.updateUsers, users_consumeToken]

theorem linkedTo_joined : LinkedTo i.joined.db i.user.id i.chatID := by
  rw [LinkedTo, i.users_joined]
  refine linkedTo_linkSupergroup.mpr ⟨i.user, i.user_mem, rfl, ?_⟩
  rw [if_pos ⟨rfl, i.user_status⟩]

theorem findUserByChatID_joined (planner : Planner) :
    i.joined.db.findUserByChatID planner i.chatID =
      (w.db.linkSupergroup i.user.id i.chatID).findUserByChatID planner i.chatID := by
  rw [Database.findUserByChatID, i.users_joined, Database.findUserByChatID]

theorem frame_joined :
    i.joined.db.subscriptions = w.db.subscriptions ∧ i.joined.db.apps = w.db.apps := by
  obtain ⟨token, hdb⟩ := i.db_joined
  rw [hdb]
  simp only [Database.linkSupergroup, Database.updateUsers, Database.consumeToken]
  split
  · exact ⟨rfl, rfl⟩
  · split <;> exact ⟨rfl, rfl⟩

/-- The topics of the user can be stored. -/
theorem references_joined (s : Subscription) (hs : s ∈ w.db.subscriptions.rows)
    (huser : s.userID = i.user.id) :
    (i.joined.db.setBotIsAdmin i.user.id true).references i.user.id s.appID = true := by
  obtain ⟨u, hu, hid, -⟩ := i.linkedTo_joined.setBotIsAdmin i.user.id true
  obtain ⟨app, happ, heq⟩ := List.mem_map.mp (i.apps_exist s hs huser)
  have happs : (i.joined.db.setBotIsAdmin i.user.id true).apps = w.db.apps := i.frame_joined.2
  rw [Database.references, Bool.and_eq_true, happs]
  exact ⟨List.any_eq_true.mpr ⟨u, hu, by simpa using hid⟩,
    List.any_eq_true.mpr ⟨app, happ, by simpa using heq⟩⟩

theorem flagged_joined :
    Flagged (i.joined.db.setBotIsAdmin i.user.id true) i.user.id (some i.chatID) := by
  obtain ⟨u, hu, hid, hchat⟩ := i.linkedTo_joined
  refine (flagged_update rfl fun u => by split <;> rfl).mpr ⟨u, hu, hid, ?_, ?_⟩
  · split <;> exact hchat
  · simp [hid]

/-- The report after the message, when the user is found by their chat. -/
theorem setUp_of_found
    (hfound : i.joined.db.findUserByChatID i.report.1.planner i.chatID = .ok i.user.id) :
    SetUp ((dispatchUpdate i.report.1 i.report.2).run i.joined).2.db i.user.id i.chatID := by
  rw [run_dispatchUpdate_of_reports i.report_rights]
  have hrun := run_promoteHandle (w := i.joined) i.report_ok i.report_rights i.rights_all
  simp only [hfound] at hrun
  have htopics : OnlyTopics (i.joined.db.setBotIsAdmin i.user.id true)
      ((i.joined.db.subscriptions.rows.filter fun s => s.userID = i.user.id).map Subscription.key)
      ((ensureForSubscribedApps i.report.1 i.user.id i.chatID).run
        (i.joined.setDb (i.joined.db.setBotIsAdmin i.user.id true))).2 :=
    triple_ensureForSubscribedApps i.report_ok i.topics_ok
      (fun s hs => i.references_joined s (i.frame_joined.1 ▸ hs)) _ rfl
  rw [hrun]
  constructor
  · rw [Flagged, htopics.users]
    exact i.flagged_joined
  · intro s hs huser
    rw [htopics.subscriptions] at hs
    exact htopics.topics _ (List.mem_map_of_mem (List.mem_filter.mpr ⟨hs, by simpa using huser⟩))

/-- If somebody else is found, their flag is set instead. -/
theorem not_flagged_of_not_found
    (hother : i.joined.db.findUserByChatID i.report.1.planner i.chatID ≠ .ok i.user.id) :
    ¬Flagged ((dispatchUpdate i.report.1 i.report.2).run i.joined).2.db i.user.id
      (some i.chatID) := by
  have hflags : FlagsIn (fun userID _ => userID ≠ i.user.id) i.joined := by
    rintro _ chat hflag rfl
    exact i.not_flagged_after_message i.pending chat hflag
  rw [run_dispatchUpdate_of_reports i.report_rights]
  have hrun := run_promoteHandle (w := i.joined) i.report_ok i.report_rights i.rights_all
  cases hfind : i.joined.db.findUserByChatID i.report.1.planner i.chatID with
  | error e =>
      simp only [hfind] at hrun
      rw [hrun]
      exact i.not_flagged_after_message i.pending _
  | ok userID =>
      simp only [hfind] at hrun
      rw [hrun]
      have hJ := (tolerates_flagsIn fun id _ => id ≠ i.user.id).and_linkedTo userID i.chatID
      have hset : FlagsIn (fun id _ => id ≠ i.user.id)
          (i.joined.setDb (i.joined.db.setBotIsAdmin userID true)) := by
        rintro id chat hflag rfl
        obtain ⟨heq, -⟩ | ⟨-, hbefore⟩ := flagged_setBotIsAdmin hflag
        · exact hother (heq ▸ hfind)
        · exact hflags _ chat hbefore rfl
      have hlinked := (linkedTo_of_findUserByChatID hfind).setBotIsAdmin userID true
      exact fun hflag => (hJ.keeps_ensureForSubscribedApps (fun _ h => h.1) _
        ⟨hlinked, hset⟩).2 _ _ hflag rfl

end Invitation

/-- The set-up is complete exactly when the message comes first and the user is then
the one found by the chat. -/
theorem setUp_iff_messageFirst {w : World} (i : Invitation w) (arrival : Arrival) :
    SetUp (process w (i.updates arrival)).db i.user.id i.chatID ↔
      arrival = .messageFirst ∧ (w.db.linkSupergroup i.user.id i.chatID).findUserByChatID
        i.report.1.planner i.chatID = .ok i.user.id := by
  cases arrival with
  | messageFirst =>
      simp only [true_and, ← i.findUserByChatID_joined]
      constructor
      · intro hsetUp
        by_contra hother
        exact i.not_flagged_of_not_found hother hsetUp.flagged
      · exact i.setUp_of_found
  | reportFirst =>
      simp only [reduceCtorEq, false_and, iff_false]
      exact fun hsetUp => i.not_flagged_after_message i.pending_after_report _ hsetUp.flagged
  | noReport =>
      simp only [reduceCtorEq, false_and, iff_false]
      exact fun hsetUp => i.not_flagged_after_message i.pending _ hsetUp.flagged

/-- A user who has agreed, subscribed to the app and been given the token. -/
def invitedUser : UserRow := { id := 1, telegramID := 101, agreedAt := some 0 }

def invitedWorld : World where
  db :=
    { freshWorld.db with
      users := ⟨[invitedUser], List.nodup_singleton _⟩
      telegramID_nodup := List.nodup_singleton _
      subscriptions := ⟨[⟨1, "news"⟩], List.nodup_singleton _⟩
      tokens := ⟨[⟨"a", 1, startgroupTokenTTL⟩], List.nodup_singleton _⟩ }
  calls := []

def newGroup : Invitation invitedWorld where
  user := invitedUser
  token := ⟨"a", 1, startgroupTokenTTL⟩
  chatID := -100
  rights := .administrator true false true true
  message := ({}, addedToGroup (-100) "a")
  report := ({ createForumTopic := fun _ => some 7 }, promotedIn (-100))
  user_mem := List.mem_singleton.mpr rfl
  user_status := by decide
  token_mem := List.mem_singleton.mpr rfl
  token_user := rfl
  token_valid := by decide
  message_token := by decide +kernel
  message_ok := fun _ => rfl
  report_rights := by decide
  rights_all := rfl
  report_ok := fun _ => rfl
  topics_ok := fun _ => rfl
  apps_exist := by decide

theorem newGroup_setUp :
    SetUp (process invitedWorld (newGroup.updates .messageFirst)).db 1 (-100) :=
  (setUp_iff_messageFirst newGroup .messageFirst).mpr ⟨rfl, by decide⟩

/-- In the other order, and without a report, the user is left without the flag. -/
theorem newGroup_not_setUp :
    ¬SetUp (process invitedWorld (newGroup.updates .reportFirst)).db 1 (-100) ∧
      ¬SetUp (process invitedWorld (newGroup.updates .noReport)).db 1 (-100) :=
  ⟨fun h => newGroup.not_flagged_after_message newGroup.pending_after_report _ h.flagged,
    fun h => newGroup.not_flagged_after_message newGroup.pending _ h.flagged⟩

end TelegramServer.Bot

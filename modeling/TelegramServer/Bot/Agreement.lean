import TelegramServer.Bot.Changes
import TelegramServer.Dispatch.Recipients

/-!
The two facts about personal supergroups that the rest of the service takes for
granted: a group belongs to one user, and a topic stored for a user is a topic of
the group the user is linked to.

`LinkSupergroup` checks neither. Any user may redeem a token in a group that is
already somebody's, and the topic rows of a user survive a link to another group,
where `EnsureForSubscribedApps` then finds no topic missing. Both facts hold in
every run that redeems no token in this way.
-/

namespace TelegramServer.Bot

open Go Lib Registry Dispatch

/-! ### One user for each group -/

def OneUserPerChat (db : Database) : Prop :=
  ∀ u ∈ db.users.rows, ∀ u' ∈ db.users.rows, ∀ chatID,
    u.personalSupergroupChatID = some chatID → u'.personalSupergroupChatID = some chatID → u = u'

theorem oneUserPerChat_iff_rows {db : Database} :
    OneUserPerChat db ↔ ∀ u ∈ db.users.rows, ∀ u' ∈ db.users.rows,
      u.personalSupergroupChatID.isSome = true →
      u'.personalSupergroupChatID = u.personalSupergroupChatID → u = u' := by
  constructor
  · intro h u hu u' hu' hsome heq
    obtain ⟨chatID, hchat⟩ := Option.isSome_iff_exists.mp hsome
    exact h u hu u' hu' chatID hchat (heq.trans hchat)
  · intro h u hu u' hu' chatID hchat hchat'
    exact h u hu u' hu' (by simp [hchat]) (hchat'.trans hchat.symm)

instance (db : Database) : Decidable (OneUserPerChat db) :=
  decidable_of_iff _ oneUserPerChat_iff_rows.symm

/-- Nobody else is linked to the chat. -/
def ChatFree (w : World) (userID chatID : ℤ) : Prop :=
  ∀ u ∈ w.db.users.rows, u.personalSupergroupChatID = some chatID → u.id = userID

instance (w : World) (userID chatID : ℤ) : Decidable (ChatFree w userID chatID) :=
  inferInstanceAs (Decidable (∀ u ∈ w.db.users.rows, _ → _))

theorem oneUserPerChat_iff {db : Database} :
    OneUserPerChat db ↔
      ∀ userID userID' chatID, LinkedTo db userID chatID → LinkedTo db userID' chatID →
        userID = userID' := by
  constructor
  · rintro h _ _ chatID ⟨u, hu, rfl, hchat⟩ ⟨u', hu', rfl, hchat'⟩
    rw [h u hu u' hu' chatID hchat hchat']
  · intro h u hu u' hu' chatID hchat hchat'
    exact db.users.eq_of_key_eq hu hu' (h _ _ chatID ⟨u, hu, rfl, hchat⟩ ⟨u', hu', rfl, hchat'⟩)

/-- After a link to `chatID` every link is the new one or an old one. -/
theorem linkedTo_of_linkSupergroup {db : Database} {userID chatID id c : ℤ}
    (h : LinkedTo (db.linkSupergroup userID chatID) id c) :
    (id = userID ∧ c = chatID) ∨ LinkedTo db id c := by
  obtain ⟨u, hu, hid, hlink⟩ := linkedTo_linkSupergroup.mp h
  split at hlink
  · next huser => exact .inl ⟨hid.symm.trans huser.1, hlink.symm⟩
  · exact .inr ⟨u, hu, hid, hlink⟩

theorem respects_oneUserPerChat : Respects ChatFree fun w => OneUserPerChat w.db where
  shrinks := by
    intro w w' hshrinks hw
    rw [oneUserPerChat_iff] at hw ⊢
    exact fun id id' c h h' => hw id id' c (hshrinks.linked h) (hshrinks.linked h')
  topic := by
    intro w userID chatID topicID appID _ _ hw
    unfold OneUserPerChat at hw ⊢
    simpa only [World.setDb, users_addTopic] using hw
  link := by
    intro w userID chatID hfree hw
    rw [oneUserPerChat_iff] at hw ⊢
    have hold {id : ℤ} (h : LinkedTo w.db id chatID) : id = userID := by
      obtain ⟨u, hu, rfl, hchat⟩ := h
      exact hfree u hu hchat
    intro id id' c h h'
    obtain ⟨rfl, rfl⟩ | hbefore := linkedTo_of_linkSupergroup h
    · obtain ⟨rfl, -⟩ | hbefore' := linkedTo_of_linkSupergroup h'
      · rfl
      · exact (hold hbefore').symm
    · obtain ⟨rfl, rfl⟩ | hbefore' := linkedTo_of_linkSupergroup h'
      · exact hold hbefore
      · exact hw id id' c hbefore hbefore'

theorem arrange_of_length_le_one (planner : Planner) {α : Type} {l : List α}
    (h : l.length ≤ 1) : planner.arrange l = l := by
  match l, h with
  | [], _ => exact (planner.perm []).eq_nil
  | [a], _ => exact List.perm_singleton.mp (planner.perm [a])

/-- With one user for each chat the query of `FindUserByChatID` has at most one
row, so that the order of its rows does not matter. -/
theorem findUserByChatID_unique {db : Database} (h : OneUserPerChat db) (planner planner' : Planner)
    (chatID : ℤ) : db.findUserByChatID planner chatID = db.findUserByChatID planner' chatID := by
  have hlen :
      (db.users.rows.filter fun u => u.personalSupergroupChatID = some chatID).length ≤ 1 := by
    have hnodup := (db.users.nodup.of_map _).filter
      fun u : UserRow => decide (u.personalSupergroupChatID = some chatID)
    match hrows : db.users.rows.filter fun u => u.personalSupergroupChatID = some chatID with
    | [] => simp [hrows]
    | [u] => simp [hrows]
    | u :: u' :: rest =>
        rw [hrows] at hnodup
        have hmem {v : UserRow} (hv : v ∈ u :: u' :: rest) :
            v ∈ db.users.rows ∧ v.personalSupergroupChatID = some chatID := by
          simpa [← hrows] using hv
        obtain ⟨hu, hchat⟩ := hmem (v := u) (by simp)
        obtain ⟨hu', hchat'⟩ := hmem (v := u') (by simp)
        have heq := h u hu u' hu' chatID hchat hchat'
        simp [heq] at hnodup
  unfold Database.findUserByChatID
  rw [arrange_of_length_le_one planner hlen, arrange_of_length_le_one planner' hlen]

theorem oneUserPerChat_of_chatFree {w w' : World} {ops : List Op} (hw : OneUserPerChat w.db)
    (hguard : Guarded opStep (RedeemsOnly ChatFree) w ops) (hrun : run opStep w ops = some w') :
    OneUserPerChat w'.db ∧ ∀ planner planner' chatID,
      w'.db.findUserByChatID planner chatID = w'.db.findUserByChatID planner' chatID := by
  have hone : OneUserPerChat w'.db := respects_oneUserPerChat.run hw hguard hrun
  exact ⟨hone, findUserByChatID_unique hone⟩

/-- The world of a fresh installation with one app. -/
def freshWorld : World where
  db :=
    { users := .empty, telegramID_nodup := List.nodup_nil, userSeq := 0, subscriptions := .empty,
      topics := .empty, tokens := .empty
      apps := ⟨[{ id := "news", name := "News" }], List.nodup_singleton _⟩ }
  calls := []

/-- A private message to the bot. -/
def directMessage (telegramID : ℤ) (text : String) : Update :=
  { message := some ⟨⟨telegramID, .privateChat⟩, some { id := telegramID }, text⟩ }

/-- The message Telegram sends when the bot is added to a group by a deeplink. -/
def addedToGroup (chatID : ℤ) (token : String) : Update :=
  { message := some ⟨⟨chatID, .supergroup⟩, none, "/start " ++ token⟩ }

def promotedIn (chatID : ℤ) : Update :=
  { myChatMember := some ⟨⟨chatID, .supergroup⟩, some ⟨0, .administrator true false true true⟩⟩ }

/-- The bot's setting when it is about to issue `token`. -/
def issuing (token : String) : BotEnv := { newToken := some token, botUsername := "alerts_bot" }

/-- Two users agree and add the bot to one group each. -/
def twoUsers (chatID chatID' : ℤ) : List Op :=
  [.update (issuing "a") (directMessage 101 "/agree"),
    .update (issuing "b") (directMessage 102 "/agree"),
    .update {} (addedToGroup chatID "a"),
    .update {} (addedToGroup chatID' "b")]

theorem twoUsers_own_groups :
    ∃ w', run opStep freshWorld (twoUsers (-100) (-200)) = some w' ∧
      w'.db.users.rows.map UserRow.personalSupergroupChatID = [some (-100), some (-200)] ∧
      OneUserPerChat w'.db := by
  have hlinks : (run opStep freshWorld (twoUsers (-100) (-200))).map
      (fun w => w.db.users.rows.map UserRow.personalSupergroupChatID) =
        some [some (-100), some (-200)] := by
    decide +kernel
  obtain ⟨w', hrun, hchats⟩ := Option.map_eq_some_iff.mp hlinks
  have hguard : Guarded opStep (RedeemsOnly ChatFree) freshWorld (twoUsers (-100) (-200)) := by
    decide +kernel
  exact ⟨w', hrun, hchats, (oneUserPerChat_of_chatFree (by simp [OneUserPerChat, freshWorld,
    Table.empty]) hguard hrun).1⟩

/-- The second user redeems their own token in the group of the first. -/
theorem twoUsers_one_group :
    ∃ w', run opStep freshWorld (twoUsers (-100) (-100)) = some w' ∧ ¬OneUserPerChat w'.db := by
  have hlinks : (run opStep freshWorld (twoUsers (-100) (-100))).map
      (fun w => w.db.users.rows.map fun u => (u.id, u.personalSupergroupChatID)) =
        some [(1, some (-100)), (2, some (-100))] := by
    decide +kernel
  obtain ⟨w', hrun, hchats⟩ := Option.map_eq_some_iff.mp hlinks
  refine ⟨w', hrun, fun hone => ?_⟩
  have hlinked {userID : ℤ} (h : (userID, some (-100)) ∈ w'.db.users.rows.map
      fun u => (u.id, u.personalSupergroupChatID)) : LinkedTo w'.db userID (-100) := by
    obtain ⟨u, hu, heq⟩ := List.mem_map.mp h
    obtain ⟨hid, hchat⟩ := Prod.mk.inj heq
    exact ⟨u, hu, hid, hchat⟩
  have h12 := oneUserPerChat_iff.mp hone 1 2 (-100) (hlinked (by simp [hchats]))
    (hlinked (by simp [hchats]))
  exact absurd h12 (by decide)

/-! ### Topics of the linked group -/

/-- Every topic stored for the user was made in the chat. -/
def TopicsMadeIn (w : World) (userID chatID : ℤ) : Prop :=
  ∀ t ∈ w.db.topics.rows, t.userID = userID → CreatedIn w.calls chatID t.topicID

instance (w : World) (userID chatID : ℤ) : Decidable (TopicsMadeIn w userID chatID) :=
  inferInstanceAs (Decidable (∀ t ∈ w.db.topics.rows, _ → _))

def TopicsAgree (w : World) : Prop :=
  ∀ userID chatID, LinkedTo w.db userID chatID → TopicsMadeIn w userID chatID

theorem LinkedTo.chat_eq {db : Database} {userID chatID chatID' : ℤ} (h : LinkedTo db userID chatID)
    (h' : LinkedTo db userID chatID') : chatID = chatID' := by
  obtain ⟨u, hu, hid, hchat⟩ := h
  obtain ⟨u', hu', hid', hchat'⟩ := h'
  obtain rfl := db.users.eq_of_key_eq hu hu' (hid.trans hid'.symm)
  exact Option.some.inj (hchat.symm.trans hchat')

theorem respects_topicsAgree : Respects TopicsMadeIn TopicsAgree where
  shrinks := by
    intro w w' hshrinks hw userID chatID hlinked t ht huser
    obtain ⟨c, hc, hcreates⟩ :=
      hw userID chatID (hshrinks.linked hlinked) t (hshrinks.topics ht) huser
    exact ⟨c, hshrinks.calls hc, hcreates⟩
  topic := by
    intro w userID chatID topicID appID hlinked hcreated hw id c hid t ht huser
    have hbefore : LinkedTo w.db id c := by
      simpa only [LinkedTo, World.setDb, users_addTopic] using hid
    obtain hold | rfl := mem_addTopic ht
    · exact hw id c hbefore t hold huser
    · -- the new row: its user is linked to one chat only, where the topic was made
      obtain rfl : userID = id := huser
      obtain rfl := hlinked.chat_eq hbefore
      exact hcreated
  link := by
    intro w userID chatID hmade hw id c hid
    obtain ⟨rfl, rfl⟩ | hbefore := linkedTo_of_linkSupergroup hid
    · exact hmade
    · exact hw id c hbefore

/-- The handle comes from one of the two resolvers that send to topics. -/
inductive TopicHandle (db : Database) (rh : RecipientHandle) : Prop
  | direct {planner : Planner} {userIDs : List ℤ} {appID : String} {res : ResolveResult}
      (hres : resolveDirect db planner userIDs appID = .ok res) (hrh : rh ∈ res.recipients)
  | topic {appID minGrade : String} {res : ResolveResult}
      (hres : resolveTopic db appID minGrade = .ok res) (hrh : rh ∈ res.recipients)

/-- Such a handle is the topic row of a user together with the user's group. -/
theorem TopicHandle.inTopic {db : Database} {rh : RecipientHandle} (h : TopicHandle db rh) :
    ∃ appID, ∃ u ∈ db.users.rows, InTopic db appID u rh := by
  cases h with
  | direct hres hrh =>
      obtain ⟨u, hu, -, hin⟩ := (mem_resolveDirect hres).mp hrh
      exact ⟨_, u, hu, hin⟩
  | topic hres hrh =>
      obtain ⟨u, hu, -, hin⟩ := (mem_resolveTopic hres).mp hrh
      exact ⟨_, u, hu, hin⟩

theorem topicHandle_createdIn_chat {w w' : World} {ops : List Op} (hw : w.db.topics.rows = [])
    (hguard : Guarded opStep (RedeemsOnly TopicsMadeIn) w ops) (hrun : run opStep w ops = some w')
    {rh : RecipientHandle} (hrh : TopicHandle w'.db rh) :
    CreatedIn w'.calls rh.chatID rh.topicID := by
  have hinit : TopicsAgree w := by
    intro userID chatID _ t ht
    simp [hw] at ht
  have hagree : TopicsAgree w' := respects_topicsAgree.run hinit hguard hrun
  obtain ⟨appID, u, hu, hin⟩ := hrh.inTopic
  exact hagree u.id rh.chatID ⟨u, hu, rfl, hin.linked⟩ _ hin.topic rfl

theorem ok_of_map_recipients {x : Except StrategyErr ResolveResult} {rhs : List RecipientHandle}
    (h : x.map ResolveResult.recipients = .ok rhs) : ∃ res, x = .ok res ∧ res.recipients = rhs := by
  cases x with
  | error e => cases h
  | ok res => exact ⟨res, rfl, Except.ok.inj h⟩

/-- A user joins, subscribes to the app and makes the bot an admin of the group. -/
def onboarding : List Op :=
  [.update (issuing "a") (directMessage 101 "/agree"),
    .update {} (addedToGroup (-100) "a"),
    .update {} (directMessage 101 "/subscribe news"),
    .update { createForumTopic := fun _ => some 7 } (promotedIn (-100))]

theorem onboarding_createdIn_chat :
    ∃ w', run opStep freshWorld onboarding = some w' ∧
      TopicHandle w'.db ⟨1, -100, 7, "supergroup"⟩ ∧ CreatedIn w'.calls (-100) 7 := by
  have hhandles : (run opStep freshWorld onboarding).map
      (fun w => (resolveTopic w.db "news" "").map ResolveResult.recipients) =
        some (.ok [⟨1, -100, 7, "supergroup"⟩]) := by
    decide +kernel
  obtain ⟨w', hrun, hres⟩ := Option.map_eq_some_iff.mp hhandles
  obtain ⟨res, htopic, hrecipients⟩ := ok_of_map_recipients hres
  have hhandle : TopicHandle w'.db ⟨1, -100, 7, "supergroup"⟩ :=
    .topic htopic (by simp [hrecipients])
  have hguard : Guarded opStep (RedeemsOnly TopicsMadeIn) freshWorld onboarding := by
    decide +kernel
  exact ⟨w', hrun, hhandle, topicHandle_createdIn_chat rfl hguard hrun hhandle⟩

/-- The user moves to another group and makes the bot an admin there. -/
def moving : List Op :=
  [.update (issuing "b") (directMessage 101 "/agree"),
    .update {} (addedToGroup (-200) "b"),
    .update { createForumTopic := fun _ => some 8 } (promotedIn (-200))]

/-- The old topic is sent to in the new group: its row survived the link, so that
the provisioner found nothing to create. -/
theorem moving_keeps_old_topic :
    ∃ w' rh, run opStep freshWorld (onboarding ++ moving) = some w' ∧ TopicHandle w'.db rh ∧
      ¬CreatedIn w'.calls rh.chatID rh.topicID := by
  have hhandles : (run opStep freshWorld (onboarding ++ moving)).map
      (fun w => ((resolveDirect w.db .inOrder [1] "news").map ResolveResult.recipients,
        decide (CreatedIn w.calls (-200) 7))) =
        some (.ok [⟨1, -200, 7, "supergroup"⟩], false) := by
    decide +kernel
  obtain ⟨w', hrun, heq⟩ := Option.map_eq_some_iff.mp hhandles
  obtain ⟨hres, hcreated⟩ := Prod.mk.inj heq
  obtain ⟨res, hdirect, hrecipients⟩ := ok_of_map_recipients hres
  exact ⟨w', ⟨1, -200, 7, "supergroup"⟩, hrun, .direct hdirect (by simp [hrecipients]),
    of_decide_eq_false hcreated⟩

end TelegramServer.Bot

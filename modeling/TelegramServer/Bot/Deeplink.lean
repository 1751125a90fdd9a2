import TelegramServer.Bot.TokenPrivacy

/-!
Where the deeplink goes. `/start` and `/agree` issue a token and send it to the chat
the command came from; that is the user's private chat only if the command came from
there. The other way out for a token is a user who types it: `/subscribe` repeats
the name of an app nobody has registered.
-/

namespace TelegramServer.Bot

open Go Lib Registry Dispatch

/-! ### The commands -/

/-- The message that reaches the last two handlers, with its sender. -/
def commandOf (u : Update) : Option (Message × TgUser) :=
  match startgroupToken u, u.myChatMember, u.chatMember, u.message with
  | none, none, none, some m => m.sender.map fun s => (m, s)
  | _, _, _, _ => none

/-- The messages `AppsHandler` answers. -/
def AppsCommand (m : Message) : Prop :=
  m.chat.type = .privateChat ∧
    (trimSpace m.text = "/apps" ∨ (toggledApp (trimSpace m.text)).isSome = true)

/-- The user types the token of somebody else for the name of an app. -/
def Echoes (env : BotEnv) (db : Database) (past : List PendingToken) (text : String)
    (sender : TgUser) : Prop :=
  ∃ appID, toggledApp text = some appID ∧ appID ≠ "" ∧ env.fails .getByTelegramID = false ∧
    (∃ user, db.getByTelegramID sender.id = .ok user) ∧
    ∃ row ∈ past, Occurs row.token (env.quote appID) ∧ ¬Known db row.userID sender.id

def CanIssue (env : BotEnv) : Prop :=
  env.botUsername ≠ "" ∧ env.newToken.isSome = true ∧ env.fails .issueToken = false

/-- `/start` of a user who has agreed and has no working group yet. -/
def StartIssues (env : BotEnv) (db : Database) (telegramID : ℤ) : Prop :=
  env.fails .upsertOnStart = false ∧ ∃ user, db.userByTelegramID telegramID = some user ∧
    user.agreedAt.isSome = true ∧
    (user.personalSupergroupChatID.isSome && user.botIsAdmin) = false

/-- `/agree` finds the row of the user or makes it. -/
def Registrable (env : BotEnv) (db : Database) (telegramID : ℤ) : Prop :=
  env.fails .getByTelegramID = false ∧ ((db.userByTelegramID telegramID).isSome = true ∨
    env.fails .upsertOnStart = false ∧ db.userSeq + 1 ∉ db.users.rows.map UserRow.id)

def AgreeIssues (env : BotEnv) (db : Database) (telegramID : ℤ) : Prop :=
  Registrable env db telegramID ∧ env.fails .markAgreed = false

/-- The commands that are answered with a token. -/
def Issues (env : BotEnv) (db : Database) (text : String) (sender : TgUser) : Prop :=
  CanIssue env ∧
    ((text = "/start" ∨ hasPrefix text "/start " = true) ∧ StartIssues env db sender.id ∨
      text = "/agree" ∧ AgreeIssues env db sender.id)

section Dispatch

variable {env : BotEnv} {db : Database} {past : List PendingToken} {u : Update} {m : Message}
  {s : TgUser}

theorem commandOf_eq_some :
    commandOf u = some (m, s) ↔ startgroupToken u = none ∧ u.myChatMember = none ∧
      u.chatMember = none ∧ u.message = some m ∧ m.sender = some s := by
  unfold commandOf
  split
  · next htoken hmember hmember' hm =>
      simp only [htoken, hmember, hmember', hm, Option.map_eq_some_iff, Prod.mk.injEq,
        Option.some.injEq, true_and]
      constructor
      · rintro ⟨s', hs', rfl, rfl⟩
        exact ⟨rfl, hs'⟩
      · rintro ⟨rfl, hs⟩
        exact ⟨s, hs, rfl, rfl⟩
  · next hnot =>
      simp only [reduceCtorEq, false_iff]
      rintro ⟨htoken, hmember, hmember', hm, -⟩
      exact hnot m htoken hmember hmember' hm

theorem appsHandle_taken (hm : u.message = some m) (hs : m.sender = some s) (h : AppsCommand m)
    (w : World) : ((appsHandle env u).run w).1 = true := by
  obtain ⟨hprivate, htext⟩ := h
  have htaken : Triple (fun _ => True) (appsHandle env u) fun r _ => r = true := by
    unfold appsHandle
    simp only [hm, hs, hprivate, ne_eq, not_true_eq_false, if_false]
    split
    · exact Triple.after fun _ => Triple.pure fun _ _ => rfl
    next happs =>
      have htoggle := htext.resolve_left happs
      unfold toggledApp at htoggle
      split
      · exact Triple.after fun _ => Triple.pure fun _ _ => rfl
      next hsubscribe =>
        rw [if_neg hsubscribe] at htoggle
        split
        · exact Triple.after fun _ => Triple.pure fun _ _ => rfl
        next hunsubscribe =>
          rw [if_neg hunsubscribe] at htoggle
          cases htoggle
  exact htaken w trivial

theorem appsHandle_passed (hm : u.message = some m) (h : ¬AppsCommand m) :
    appsHandle env u = pure false := by
  unfold appsHandle
  simp only [hm]
  split
  · rfl
  split
  · rfl
  next hprivate =>
    have hprivate := not_not.mp hprivate
    have htext (htext : trimSpace m.text = "/apps" ∨
        (toggledApp (trimSpace m.text)).isSome = true) : False := h ⟨hprivate, htext⟩
    unfold toggledApp at htext
    split
    · next happs => exact absurd (.inl happs) htext
    split
    · next hsubscribe => exact absurd (.inr (by rw [if_pos hsubscribe]; rfl)) htext
    split
    · next hsubscribe hunsubscribe =>
        exact absurd (.inr (by rw [if_neg hsubscribe, if_pos hunsubscribe]; rfl)) htext
    · rfl

theorem dispatchUpdate_of_command (h : commandOf u = some (m, s)) :
    dispatchUpdate env u = tryHandlers [appsHandle env u, startHandle env u] := by
  obtain ⟨htoken, hmember, hmember', -⟩ := commandOf_eq_some.mp h
  rw [dispatchUpdate_of_startgroupToken htoken, promoteHandle_passed hmember, tryHandlers_passed,
    intrusionHandle_passed hmember', tryHandlers_passed]

/-- Whatever is no command of a user shows no token. -/
theorem tokensPrivate_of_not_command (h : Secrets env db past) (hu : commandOf u = none) :
    TokensPrivate past ((dispatchUpdate env u).run ⟨db, []⟩).2 := by
  suffices hcareful : Careful past db ((dispatchUpdate env u).run ⟨db, []⟩).2 from
    hcareful.tokensPrivate
  cases htoken : startgroupToken u with
  | some p =>
      rw [run_dispatchUpdate_of_startgroup htoken]
      exact careful_startgroupHandle h u
  | none =>
      cases hmember : u.myChatMember with
      | some n =>
          rw [run_dispatchUpdate_of_promote htoken hmember]
          exact careful_promoteHandle h u
      | none =>
          rw [dispatchUpdate_of_startgroupToken htoken, promoteHandle_passed hmember,
            tryHandlers_passed]
          cases hmember' : u.chatMember with
          | some n =>
              rw [run_tryHandlers_cons, if_pos (intrusionHandle_taken hmember' _)]
              have hT := tolerates_careful past db (R := fun _ => True)
                fun _ _ _ _ _ => trivial
              exact (hT.keeps_intrusionHandle u _ ⟨h.careful, trivial⟩).1
          | none =>
              -- no sender: the last two handlers pass
              have hnobody : ∀ m s, u.message = some m → m.sender ≠ some s := fun m s hm hs => by
                rw [commandOf_eq_some.mpr ⟨htoken, hmember, hmember', hm, hs⟩] at hu
                cases hu
              have happs : appsHandle env u = pure false := by
                unfold appsHandle
                split
                · rfl
                next m hm =>
                  split
                  · rfl
                  next s hs => exact absurd hs (hnobody m s hm)
              have hstart : startHandle env u = pure false := by
                unfold startHandle
                split
                · rfl
                next m hm =>
                  split
                  · rfl
                  next s hs => exact absurd hs (hnobody m s hm)
              rw [intrusionHandle_passed hmember', happs, hstart]
              exact h.careful

end Dispatch

/-! ### What users type -/

section Apps

variable {env : BotEnv} {db : Database} {past : List PendingToken} {u : Update} {m : Message}
  {s : TgUser}

theorem Subscribes.frame {db db' : Database} (h : Subscribes db db') :
    db'.tokens = db.tokens ∧ db'.apps = db.apps := by
  cases h with
  | add userID appID =>
      unfold Database.addSubscription
      split <;> exact ⟨rfl, rfl⟩
  | remove userID appID => exact ⟨rfl, rfl⟩
  | removeTopic userID appID => exact ⟨rfl, rfl⟩

theorem careful_appsHandle (hu : u.Genuine) (h : Secrets env db past) (hm : u.message = some m)
    (hs : m.sender = some s) (hecho : ¬Echoes env db past (trimSpace m.text) s) :
    Careful past db ((appsHandle env u).run ⟨db, []⟩).2 := by
  have hT := tolerates_careful past db
    (R := fun db' => db'.apps = db.apps ∧ db'.users = db.users)
    fun _ _ _ _ hR => ⟨(frame_addTopic ..).2.2.trans hR.1, (users_addTopic ..).trans hR.2⟩
  refine (hT.keeps_appsHandle ?_ (fun m' _ _ => sendsPlain_discreet h.tokens db m'.chat.id)
    (fun m' w user _ _ hw => (h.bare_catalogueText hw.2.1 user).discreet db m'.chat.id) ?_ _
    ⟨h.careful, rfl, rfl⟩).1
  · intro w db' hsub hw
    refine ⟨hw.1.setDb ?_ fun _ _ => known_of_users_eq hsub.users_eq,
      hsub.frame.2.trans hw.2.1, hsub.users_eq.trans hw.2.2⟩
    rw [hsub.frame.1]
    exact fun _ h => h
  · rintro m' s' appID w user hm' hs' hprivate happ hw hne hget huser a b hframing
    obtain rfl : m = m' := Option.some.inj (hm.symm.trans hm')
    obtain rfl : s = s' := Option.some.inj (hs.symm.trans hs')
    rintro _ _ ⟨⟩ row hrow hoccurs
    have hquoted := hframing.occurs (h.tokens row hrow) hoccurs
    have huser' : db.getByTelegramID s.id = .ok user := by
      rw [← huser, Database.getByTelegramID, Database.userByTelegramID, ← hw.2.2]
      rfl
    rw [hu.private_id m s hm hs hprivate]
    refine ⟨hu.sender_pos m s hm hs, not_not.mp fun hunknown => hecho ?_⟩
    exact ⟨appID, happ, hne, hget, ⟨user, huser'⟩, row, hrow, hquoted, hunknown⟩

/-- No app has the name, so the reply is that there is none. -/
theorem run_toggle_of_unknown {w : World} {chatID telegramID : ℤ} {appID : String} {user : UserRow}
    (subscribe : Bool) (hne : appID ≠ "") (hget : env.fails .getByTelegramID = false)
    (huser : w.db.getByTelegramID telegramID = .ok user) (happ : w.db.apps.find? appID = none) :
    ((toggle env chatID telegramID appID subscribe).run w).2 = { w with
      calls := w.calls ++ [.sendMessage chatID ("앱 " ++ env.quote appID ++ " 을 찾을 수 없습니다.")] } := by
  simp only [toggle, hne, if_false, run_bind, run_select, hget, Bool.false_eq_true, huser, happ,
    ite_self, sendMessage, run_call]

theorem run_appsHandle_of_toggledApp (env : BotEnv) {appID : String} (hm : u.message = some m)
    (hs : m.sender = some s) (hprivate : m.chat.type = .privateChat)
    (happ : toggledApp (trimSpace m.text) = some appID) (w : World) :
    ∃ subscribe, ((appsHandle env u).run w).2 =
      ((toggle env m.chat.id s.id appID subscribe).run w).2 := by
  have hnot : trimSpace m.text ≠ "/apps" := by
    intro htext
    have hnone : toggledApp "/apps" = none := by decide
    rw [htext, hnone] at happ
    cases happ
  unfold toggledApp at happ
  simp only [appsHandle, hm, hs, hprivate, ne_eq, not_true_eq_false, if_false, hnot]
  split at happ
  · next hsubscribe =>
      rw [if_pos hsubscribe, ← Option.some.inj happ]
      exact ⟨true, by rw [run_bind, run_pure]⟩
  next hsubscribe =>
    rw [if_neg hsubscribe]
    split at happ
    · next hunsubscribe =>
        rw [if_pos hunsubscribe, ← Option.some.inj happ]
        exact ⟨false, by rw [run_bind, run_pure]⟩
    · cases happ

theorem tokensPrivate_appsHandle_iff (hu : u.Genuine) (h : Secrets env db past)
    (hm : u.message = some m) (hs : m.sender = some s) (hprivate : m.chat.type = .privateChat) :
    TokensPrivate past ((appsHandle env u).run ⟨db, []⟩).2 ↔
      ¬Echoes env db past (trimSpace m.text) s := by
  refine ⟨fun hsafe => ?_, fun hecho => (careful_appsHandle hu h hm hs hecho).tokensPrivate⟩
  rintro ⟨appID, happ, hne, hget, ⟨user, huser⟩, row, hrow, hoccurs, hunknown⟩
  have hnone : db.apps.find? appID = none := by
    refine Option.eq_none_iff_forall_ne_some.mpr fun a hfind => ?_
    obtain ⟨ha, rfl⟩ := Table.find?_eq_some.mp hfind
    exact (h.bare_app ha).2.2.2 row hrow hoccurs
  obtain ⟨subscribe, hrun⟩ := run_appsHandle_of_toggledApp env hm hs hprivate happ ⟨db, []⟩
  rw [hrun, run_toggle_of_unknown subscribe hne hget huser hnone] at hsafe
  have hleak := (hsafe _ _ (List.mem_append_right _ (List.mem_singleton.mpr rfl)) row
    (List.mem_append_left _ hrow) hoccurs.append_left.append_right).2
  rw [hu.private_id m s hm hs hprivate] at hleak
  exact hunknown hleak

end Apps

/-! ### What the bot issues -/

/-- Nothing was sent yet. -/
structure Unsent (past : List PendingToken) (w : World) : Prop where
  calls : ∀ c ∈ w.calls, c.isMessage = false
  tokens : w.db.tokens.rows ⊆ past

/-- No message has a token in it. -/
structure Withheld (past : List PendingToken) (w : World) : Prop where
  calls : ∀ chatID text, .sendMessage chatID text ∈ w.calls → Bare past text
  tokens : w.db.tokens.rows ⊆ past

/-- The one message is the deeplink with the new token. -/
structure Delivered (env : BotEnv) (past : List PendingToken) (chatID : ℤ) (row : PendingToken)
    (w : World) : Prop where
  issued : env.newToken = some row.token
  stored : row ∈ w.db.tokens.rows
  tokens : ∀ t ∈ w.db.tokens.rows, t ∈ past ∨ t = row
  sent : .sendMessage chatID (deeplinkText env row.token) ∈ w.calls
  only : ∀ chatID' text, .sendMessage chatID' text ∈ w.calls →
    chatID' = chatID ∧ text = deeplinkText env row.token

/-- A token of the user is sent to the chat, or none if `P` fails. -/
def Answered (env : BotEnv) (past : List PendingToken) (chatID telegramID : ℤ) (P : Prop)
    (w : World) : Prop :=
  P ∧ (∃ row, Delivered env past chatID row w ∧ Known w.db row.userID telegramID) ∨
    ¬P ∧ Withheld past w

section Answers

variable {env : BotEnv} {db : Database} {past : List PendingToken} {w : World}
  {userID chatID telegramID : ℤ} {P P' : Prop}

theorem Known.eq {x y : ℤ} (hx : Known db userID x) (hy : Known db userID y) : x = y := by
  obtain ⟨u, hu, hid, rfl⟩ := hx
  obtain ⟨u', hu', hid', rfl⟩ := hy
  rw [db.users.eq_of_key_eq hu hu' (hid.trans hid'.symm)]

theorem Withheld.tokensPrivate (h : Withheld past w) : TokensPrivate past w := by
  intro chatID text hcall row hrow hoccurs
  have hrow : row ∈ past := (List.mem_append.mp hrow).elim id fun hrow => h.tokens hrow
  exact absurd hoccurs (h.calls chatID text hcall row hrow)

/-- The new token is the only one in the message, and its user the only one who
may see it. -/
theorem Delivered.tokensPrivate_iff (h : Secrets env db past) {row : PendingToken}
    (hd : Delivered env past chatID row w) (hknown : Known w.db row.userID telegramID) :
    TokensPrivate past w ↔ 0 < chatID ∧ chatID = telegramID := by
  constructor
  · intro hsafe
    obtain ⟨hpos, hknown'⟩ := hsafe _ _ hd.sent row (List.mem_append_right _ hd.stored)
      occurs_deeplinkText
    exact ⟨hpos, hknown'.eq hknown⟩
  · rintro ⟨hpos, rfl⟩ chatID' text hcall t ht hoccurs
    obtain ⟨rfl, rfl⟩ := hd.only chatID' text hcall
    have ht : t ∈ past ∨ t = row := (List.mem_append.mp ht).elim .inl (hd.tokens t)
    obtain ht | rfl := ht
    · -- an older token is neither in the name of the bot nor in the new one
      exfalso
      obtain hname | htoken := hoccurs.of_deeplinkText (h.tokens t ht)
      · exact h.unguessed t ht _ (List.mem_cons_self ..) hname
      · obtain ⟨bytes, hbytes, hsource⟩ := h.source row.token hd.issued
        have hrow : IsToken row.token := hsource ▸ isToken_hexEncode hbytes
        exact h.fresh row.token hd.issued t ht (htoken.eq (h.tokens t ht) hrow)
    · exact ⟨hpos, hknown⟩

theorem Answered.tokensPrivate_iff (h : Secrets env db past)
    (hw : Answered env past chatID telegramID P w) :
    TokensPrivate past w ↔ (P → 0 < chatID ∧ chatID = telegramID) := by
  obtain ⟨hP, row, hd, hknown⟩ | ⟨hP, hw⟩ := hw
  · rw [hd.tokensPrivate_iff h hknown, imp_iff_right hP]
  · exact iff_of_true hw.tokensPrivate fun h => absurd h hP

theorem Answered.congr (hw : Answered env past chatID telegramID P w) (hP : P ↔ P') :
    Answered env past chatID telegramID P' w := by
  rwa [← propext hP]

theorem Secrets.unsent (h : Secrets env db past) : Unsent past ⟨db, []⟩ := ⟨by simp, h.pending⟩

theorem Unsent.withheld (h : Unsent past w) : Withheld past w :=
  ⟨fun _ _ hcall => Bool.noConfusion (h.calls _ hcall), h.tokens⟩

theorem Unsent.reply (h : Unsent past w) {text : String} (htext : Bare past text) (chatID : ℤ) :
    Withheld past { w with calls := w.calls ++ [.sendMessage chatID text] } := by
  refine ⟨fun chatID' text' hcall => ?_, h.tokens⟩
  obtain hcall | hcall := List.mem_append.mp hcall
  · exact h.withheld.calls chatID' text' hcall
  · cases List.mem_singleton.mp hcall
    exact htext

theorem triple_reply (hP : ¬P) {text : String} (htext : Bare past text) :
    Triple (Unsent past) (sendMessage chatID text)
      fun _ => Answered env past chatID telegramID P :=
  fun _ hw => .inr ⟨hP, hw.reply htext chatID⟩

theorem triple_issueStartgroupDeeplink (h : Secrets env db past) (chatID : ℤ) :
    Triple (fun w => Unsent past w ∧ Known w.db userID telegramID)
      (issueStartgroupDeeplink env userID chatID)
      fun _ => Answered env past chatID telegramID (CanIssue env) := by
  unfold issueStartgroupDeeplink
  split
  · next hname =>
      refine (triple_reply (fun hcan => hcan.1 hname) ?_).weaken (fun _ hw => hw.1) fun _ _ h => h
      exact (plain_literal (by decide)).bare h.tokens
  next hname =>
    split
    · next hnone =>
        refine Triple.pure fun w hw => .inr ⟨fun hcan => ?_, hw.1.withheld⟩
        have hsome := hcan.2.1
        rw [hnone] at hsome
        cases hsome
    next token htoken =>
      rintro w ⟨hw, hknown⟩
      cases hfails : env.fails .issueToken with
      | true =>
          simp only [run_bind, run_query, hfails, if_true, run_pure]
          exact .inr ⟨fun hcan => Bool.noConfusion (hfails.symm.trans hcan.2.2), hw.withheld⟩
      | false =>
          obtain ⟨u, hu, hid, htelegram⟩ := hknown
          have hmem : userID ∈ w.db.users.rows.map UserRow.id := List.mem_map.mpr ⟨u, hu, hid⟩
          simp only [run_bind, run_query, hfails, Bool.false_eq_true, if_false,
            Database.issueToken, hmem, if_true, sendMessage, run_call]
          refine .inl ⟨⟨hname, by rw [htoken]; rfl, hfails⟩,
            ⟨token, userID, env.now + env.ttl.tdiv second * second⟩, ?_, u, hu, hid, htelegram⟩
          constructor
          · exact htoken
          · have hnew : w.db.tokens.find? token = none :=
              Option.eq_none_iff_forall_ne_some.mpr fun t hfind =>
                have ht := Table.find?_eq_some.mp hfind
                h.fresh token htoken t (hw.tokens ht.1) ht.2
            refine (Table.find?_eq_some (k := token)).mp ?_ |>.1
            rw [Table.find?_insert, hnew]
            simp
          · intro t ht
            exact (Table.mem_insert ht).imp_left fun ht => hw.tokens ht
          · exact List.mem_append_right _ (List.mem_singleton.mpr rfl)
          · intro chatID' text hcall
            obtain hcall | hcall := List.mem_append.mp hcall
            · cases hw.calls _ hcall
            · cases List.mem_singleton.mp hcall
              exact ⟨rfl, rfl⟩

end Answers

section Start

variable {env : BotEnv} {db : Database} {past : List PendingToken} {telegramID : ℤ}
  {name lang : String} {user : UserRow}

theorem tokens_upsertOnStart (db : Database) (telegramID : ℤ) (name lang : String) :
    (db.upsertOnStart telegramID name lang).2.tokens = db.tokens := by
  unfold Database.upsertOnStart
  dsimp only
  split
  · rfl
  · split <;> rfl

theorem known_of_userByTelegramID (h : db.userByTelegramID telegramID = some user) :
    Known db user.id telegramID :=
  ⟨user, List.mem_of_find?_eq_some h, rfl, by simpa using List.find?_some h⟩

/-- The row that is returned: the one there is, or a new one. -/
theorem upsertOnStart_eq_ok (h : (db.upsertOnStart telegramID name lang).1 = .ok user) :
    Known (db.upsertOnStart telegramID name lang).2 user.id telegramID ∧
      ((∃ old, db.userByTelegramID telegramID = some old ∧ user.agreedAt = old.agreedAt ∧
          user.personalSupergroupChatID = old.personalSupergroupChatID ∧
          user.botIsAdmin = old.botIsAdmin) ∨
        db.userByTelegramID telegramID = none ∧ user.agreedAt = none ∧
          db.userSeq + 1 ∉ db.users.rows.map UserRow.id) := by
  unfold Database.upsertOnStart at h ⊢
  dsimp only at h ⊢
  split at h
  · next old hold =>
      cases h
      have hknown : Known db old.id telegramID := known_of_userByTelegramID hold
      exact ⟨known_update rfl (fun u => by split <;> rfl) (fun u => by split <;> rfl) hknown,
        .inl ⟨old, hold, rfl, rfl, rfl⟩⟩
  next hnone =>
    split at h
    · cases h
    next hid =>
      cases h
      rw [dif_neg hid]
      exact ⟨⟨_, List.mem_append_right _ (List.mem_singleton.mpr rfl), rfl, rfl⟩,
        .inr ⟨hnone, rfl, hid⟩⟩

theorem upsertOnStart_eq_error {e : RegistryErr}
    (h : (db.upsertOnStart telegramID name lang).1 = .error e) :
    db.userByTelegramID telegramID = none ∧ db.userSeq + 1 ∈ db.users.rows.map UserRow.id := by
  unfold Database.upsertOnStart at h
  dsimp only at h
  split at h
  · cases h
  next hnone =>
    split at h
    · next hid => exact ⟨hnone, hid⟩
    · cases h

theorem startIssues_iff (hfails : env.fails .upsertOnStart = false)
    (h : (db.upsertOnStart telegramID name lang).1 = .ok user) :
    StartIssues env db telegramID ↔ user.agreedAt.isSome = true ∧
      (user.personalSupergroupChatID.isSome && user.botIsAdmin) = false := by
  obtain ⟨-, ⟨old, hold, hagreed, hgroup, hadmin⟩ | ⟨hnone, hagreed, -⟩⟩ := upsertOnStart_eq_ok h
  · simp [StartIssues, hfails, hold, hagreed, hgroup, hadmin]
  · simp [StartIssues, hnone, hagreed]

theorem answered_handleStart (h : Secrets env db past) (chatID : ℤ) (sender : TgUser) :
    Answered env past chatID sender.id (CanIssue env ∧ StartIssues env db sender.id)
      ((handleStart env chatID sender).run ⟨db, []⟩).2 := by
  rw [handleStart, run_bind, run_query]
  cases hfails : env.fails .upsertOnStart with
  | true =>
      refine .inr ⟨fun hissues => ?_, h.unsent.withheld⟩
      exact Bool.noConfusion (hfails.symm.trans hissues.2.1)
  | false =>
      rw [if_neg Bool.false_ne_true]
      dsimp only
      have hunsent : Unsent past ⟨(db.upsertOnStart sender.id (displayName sender)
          sender.languageCode).2, []⟩ := by
        refine ⟨by simp, ?_⟩
        rw [tokens_upsertOnStart]
        exact h.pending
      cases hr : (db.upsertOnStart sender.id (displayName sender) sender.languageCode).1 with
      | error e =>
          refine .inr ⟨fun hissues => ?_, hunsent.withheld⟩
          obtain ⟨-, -, old, hold, -⟩ := hissues
          rw [(upsertOnStart_eq_error hr).1] at hold
          cases hold
      | ok user =>
          have hiff := startIssues_iff hfails hr
          dsimp only
          split
          · next hdone =>
              refine triple_reply (fun hissues => ?_) ?_ _ hunsent
              · exact Bool.noConfusion (hdone.symm.trans (hiff.mp hissues.2).2)
              · exact (plain_literal (by decide)).bare h.tokens
          next hdone =>
            split
            · next hagreed =>
                refine triple_reply (fun hissues => ?_) (Plain.bare h.tokens ?_) _ hunsent
                · have hsome := (hiff.mp hissues.2).1
                  rw [Option.isNone_iff_eq_none.mp hagreed] at hsome
                  cases hsome
                · exact .append_literal (.append_literal (plain_literal (by decide))
                    (endsOutside_literal rfl) (by decide)) (endsOutside_append_literal rfl)
                    (by decide)
            next hagreed =>
              have hissued := triple_issueStartgroupDeeplink h chatID _
                ⟨hunsent, (upsertOnStart_eq_ok hr).1⟩
              refine hissued.congr (iff_self_and.mpr fun _ => hiff.mpr ?_)
              exact ⟨by simpa [Option.isSome_iff_ne_none] using hagreed, by simpa using hdone⟩

theorem run_agreeingUser (h : Secrets env db past) (sender : TgUser) :
    let r := (agreeingUser env sender).run ⟨db, []⟩
    Unsent past r.2 ∧
      ((∃ user, r.1 = .ok user ∧ Known r.2.db user.id sender.id ∧ Registrable env db sender.id) ∨
        (∃ e, r.1 = .error e) ∧ ¬Registrable env db sender.id) := by
  dsimp only
  rw [agreeingUser, run_bind, run_select]
  cases hget : env.fails .getByTelegramID with
  | true =>
      refine ⟨h.unsent, .inr ⟨⟨_, rfl⟩, fun hreg => ?_⟩⟩
      exact Bool.noConfusion (hget.symm.trans hreg.1)
  | false =>
      rw [if_neg Bool.false_ne_true, Database.getByTelegramID]
      cases hfind : db.userByTelegramID sender.id with
      | some user =>
          refine ⟨h.unsent, .inl ⟨user, rfl, known_of_userByTelegramID hfind, hget, .inl ?_⟩⟩
          rw [hfind]
          rfl
      | none =>
          dsimp only
          rw [run_query]
          cases hupsert : env.fails .upsertOnStart with
          | true =>
              refine ⟨h.unsent, .inr ⟨⟨_, rfl⟩, fun hreg => ?_⟩⟩
              simp [Registrable, hfind, hupsert] at hreg
          | false =>
              rw [if_neg Bool.false_ne_true]
              refine ⟨⟨by simp, by rw [tokens_upsertOnStart]; exact h.pending⟩, ?_⟩
              cases hr :
                (db.upsertOnStart sender.id (displayName sender) sender.languageCode).1 with
              | error e =>
                  refine .inr ⟨⟨e, rfl⟩, fun hreg => ?_⟩
                  simp [Registrable, hfind, (upsertOnStart_eq_error hr).2] at hreg
              | ok user =>
                  obtain ⟨hknown, ⟨old, hold, -⟩ | ⟨-, -, hid⟩⟩ := upsertOnStart_eq_ok hr
                  · rw [hfind] at hold
                    cases hold
                  · exact .inl ⟨user, rfl, hknown, hget, .inr ⟨hupsert, hid⟩⟩

theorem Unsent.markAgreed {w : World} (h : Unsent past w) (now : Time) (userID : ℤ) :
    Unsent past (w.setDb (w.db.markAgreed now userID).2) := ⟨h.calls, h.tokens⟩

theorem answered_handleAgree (h : Secrets env db past) (chatID : ℤ) (sender : TgUser) :
    Answered env past chatID sender.id (CanIssue env ∧ AgreeIssues env db sender.id)
      ((handleAgree env chatID sender).run ⟨db, []⟩).2 := by
  obtain ⟨hunsent, ⟨user, hr, hknown, hreg⟩ | ⟨⟨e, hr⟩, hreg⟩⟩ := run_agreeingUser h sender
  · rw [handleAgree, run_bind, hr]
    dsimp only
    rw [run_bind, run_query]
    cases hmark : env.fails .markAgreed with
    | true =>
        refine .inr ⟨fun hissues => ?_, hunsent.withheld⟩
        exact Bool.noConfusion (hmark.symm.trans hissues.2.2)
    | false =>
        have hissue (w : World) (hw : Unsent past w) (hknown : Known w.db user.id sender.id) :
            Answered env past chatID sender.id (CanIssue env ∧ AgreeIssues env db sender.id)
              ((issueStartgroupDeeplink env user.id chatID).run w).2 :=
          (triple_issueStartgroupDeeplink h chatID w ⟨hw, hknown⟩).congr
            (iff_self_and.mpr fun _ => ⟨hreg, hmark⟩)
        have hmarked := hunsent.markAgreed env.now user.id
        have hknown' : Known (((agreeingUser env sender).run ⟨db, []⟩).2.db.markAgreed env.now
            user.id).2 user.id sender.id :=
          known_update rfl (fun u => by split <;> rfl) (fun u => by split <;> rfl) hknown
        rw [if_neg Bool.false_ne_true]
        dsimp only
        split
        · -- the audit event is no message
          refine hissue _ ⟨fun c hc => ?_, hmarked.tokens⟩ hknown'
          obtain hc | hc := List.mem_append.mp hc
          · exact hmarked.calls c hc
          · rw [List.mem_singleton.mp hc]
            rfl
        · exact hissue _ hmarked hknown'
  · rw [handleAgree, run_bind, hr]
    exact .inr ⟨fun hissues => hreg hissues.2.1, hunsent.withheld⟩

theorem answered_startHandle {u : Update} {m : Message} {s : TgUser} (h : Secrets env db past)
    (hm : u.message = some m) (hs : m.sender = some s) :
    Answered env past m.chat.id s.id (Issues env db (trimSpace m.text) s)
      ((startHandle env u).run ⟨db, []⟩).2 := by
  unfold startHandle
  simp only [hm, hs]
  split
  · next hstart =>
      have hstart : trimSpace m.text = "/start" ∨
          hasPrefix (trimSpace m.text) "/start " = true := by
        simpa using hstart
      have hagree : trimSpace m.text ≠ "/agree" := by
        intro htext
        rw [htext] at hstart
        revert hstart
        decide
      rw [run_bind, run_pure]
      refine (answered_handleStart h m.chat.id s).congr ?_
      simp only [Issues, hstart, true_and, hagree, false_and, or_false]
  next hstart =>
    have hstart : ¬(trimSpace m.text = "/start" ∨
        hasPrefix (trimSpace m.text) "/start " = true) := by
      simpa using hstart
    split
    · next hagree =>
        rw [hagree] at hstart
        rw [run_bind, run_pure]
        refine (answered_handleAgree h m.chat.id s).congr ?_
        simp only [Issues, hagree, hstart, false_and, false_or, true_and]
    next hagree =>
      refine .inr ⟨fun hissues => ?_, h.unsent.withheld⟩
      exact hissues.2.elim (fun hissues => hstart hissues.1) fun hissues => hagree hissues.1

theorem tokensPrivate_startHandle_iff {u : Update} {m : Message} {s : TgUser} (hu : u.Genuine)
    (h : Secrets env db past) (hm : u.message = some m) (hs : m.sender = some s) :
    TokensPrivate past ((startHandle env u).run ⟨db, []⟩).2 ↔
      (Issues env db (trimSpace m.text) s → m.chat.type = .privateChat) := by
  rw [(answered_startHandle h hm hs).tokensPrivate_iff h]
  refine imp_congr_right fun _ => ⟨fun hchat => ?_, fun hprivate => ?_⟩
  · by_contra hgroup
    exact absurd (hu.group_neg m hm hgroup) (not_lt.mpr hchat.1.le)
  · have hid := hu.private_id m s hm hs hprivate
    exact ⟨hid ▸ hu.sender_pos m s hm hs, hid⟩

end Start

/-! ### Every update -/

section Updates

variable {env : BotEnv} {db : Database} {past : List PendingToken} {u : Update} {m : Message}
  {s : TgUser}

/-- No command is for both of the last two handlers. -/
theorem not_issues_of_appsCommand (h : AppsCommand m) : ¬Issues env db (trimSpace m.text) s := by
  rintro ⟨-, ⟨hstart | hstart, -⟩ | ⟨hagree, -⟩⟩
  · obtain ⟨-, htext⟩ := h
    rw [hstart] at htext
    revert htext
    decide
  · obtain happs | htoggle := h.2
    · rw [happs] at hstart
      revert hstart
      decide
    · have hsubscribe : hasPrefix (trimSpace m.text) "/subscribe " = false :=
        hasPrefix_eq_false hstart (by decide) (by decide)
      have hunsubscribe : hasPrefix (trimSpace m.text) "/unsubscribe " = false :=
        hasPrefix_eq_false hstart (by decide) (by decide)
      simp [toggledApp, hsubscribe, hunsubscribe] at htoggle
  · obtain ⟨-, htext⟩ := h
    rw [hagree] at htext
    revert htext
    decide

theorem tokensPrivate_command_iff (hu : u.Genuine) (h : Secrets env db past)
    (hcommand : commandOf u = some (m, s)) :
    TokensPrivate past ((dispatchUpdate env u).run ⟨db, []⟩).2 ↔
      (Issues env db (trimSpace m.text) s → m.chat.type = .privateChat) ∧
        (m.chat.type = .privateChat → ¬Echoes env db past (trimSpace m.text) s) := by
  obtain ⟨-, -, -, hm, hs⟩ := commandOf_eq_some.mp hcommand
  rw [dispatchUpdate_of_command hcommand]
  by_cases happs : AppsCommand m
  · rw [run_tryHandlers_cons, if_pos (appsHandle_taken hm hs happs _),
      tokensPrivate_appsHandle_iff hu h hm hs happs.1]
    have hnot : ¬Issues env db (trimSpace m.text) s := not_issues_of_appsCommand happs
    exact ⟨fun hecho => ⟨fun hissues => absurd hissues hnot, fun _ => hecho⟩,
      fun hboth => hboth.2 happs.1⟩
  · have hecho (hprivate : m.chat.type = .privateChat) :
        ¬Echoes env db past (trimSpace m.text) s := by
      rintro ⟨appID, happ, -⟩
      exact happs ⟨hprivate, .inr (by rw [happ]; rfl)⟩
    have hlast : ((tryHandlers [appsHandle env u, startHandle env u]).run ⟨db, []⟩).2 =
        ((startHandle env u).run ⟨db, []⟩).2 := by
      rw [appsHandle_passed hm happs, tryHandlers_passed, run_tryHandlers_cons]
      split <;> rfl
    rw [hlast, tokensPrivate_startHandle_iff hu h hm hs]
    exact (and_iff_left hecho).symm

/-- Tokens stay private exactly if no command that is answered with one comes from
a group, and no user types the token of another. -/
theorem dispatchUpdate_tokensPrivate_iff (hu : u.Genuine) (h : Secrets env db past) :
    TokensPrivate past ((dispatchUpdate env u).run ⟨db, []⟩).2 ↔
      ∀ m s, commandOf u = some (m, s) →
        (Issues env db (trimSpace m.text) s → m.chat.type = .privateChat) ∧
          (m.chat.type = .privateChat → ¬Echoes env db past (trimSpace m.text) s) := by
  cases hcommand : commandOf u with
  | none => exact iff_of_true (tokensPrivate_of_not_command h hcommand) (by simp)
  | some p =>
      rw [tokensPrivate_command_iff hu h hcommand]
      refine ⟨fun hboth m s hp => ?_, fun hall => hall p.1 p.2 rfl⟩
      cases hp
      exact hboth

end Updates

/-- A user who has agreed and been given a token before. -/
def agreedDb : Database :=
  { freshWorld.db with
    users := ⟨[{ id := 1, telegramID := 101, agreedAt := some 0 }], List.nodup_singleton _⟩
    telegramID_nodup := List.nodup_singleton _
    tokens := ⟨[⟨hexEncode (List.replicate 16 0), 1, 0⟩], List.nodup_singleton _⟩ }

def deeplinkEnv : BotEnv :=
  { botUsername := "alert_bot", newToken := some (hexEncode (List.replicate 16 1)) }

/-- The user sends `/start` in a chat. -/
def startIn (chat : Chat) : Update := { message := some ⟨chat, some { id := 101 }, "/start"⟩ }

theorem agreedDb_secrets : Secrets deeplinkEnv agreedDb agreedDb.tokens.rows where
  pending := fun _ h => h
  tokens := by
    intro row hrow
    rw [List.mem_singleton.mp hrow]
    exact isToken_hexEncode List.length_replicate
  source := by
    rintro _ ⟨⟩
    exact ⟨List.replicate 16 1, List.length_replicate, rfl⟩
  fresh := by
    rintro _ ⟨⟩ row hrow
    rw [List.mem_singleton.mp hrow]
    decide +kernel
  unguessed := by
    -- every one of the texts is shorter than a token
    have hshort : ∀ text ∈ ownTexts deeplinkEnv agreedDb, text.toList.length < 32 := by decide
    intro row hrow text htext hoccurs
    have hlen := hoccurs.length_le
    rw [List.mem_singleton.mp hrow, (isToken_hexEncode List.length_replicate).length] at hlen
    exact absurd (hshort text htext) (not_lt.mpr hlen)
  count := by decide

theorem startIn_genuine {chat : Chat} (hprivate : chat.type = .privateChat → chat.id = 101)
    (hgroup : chat.type ≠ .privateChat → chat.id < 0) : (startIn chat).Genuine where
  sender_pos := by
    rintro _ _ ⟨⟩ ⟨⟩
    decide
  private_id := by
    rintro _ _ ⟨⟩ ⟨⟩ h
    exact hprivate h
  group_neg := by
    rintro _ ⟨⟩ h
    exact hgroup h

theorem startIn_issues : Issues deeplinkEnv agreedDb (trimSpace "/start") { id := 101 } := by
  refine ⟨⟨by decide, rfl, rfl⟩, .inl ⟨.inl (by decide), rfl, _, rfl, rfl, rfl⟩⟩

theorem startIn_private_tokensPrivate :
    TokensPrivate agreedDb.tokens.rows
      ((dispatchUpdate deeplinkEnv (startIn ⟨101, .privateChat⟩)).run ⟨agreedDb, []⟩).2 := by
  refine (dispatchUpdate_tokensPrivate_iff (startIn_genuine (by simp) (by simp))
    agreedDb_secrets).mpr ?_
  rintro m s hcommand
  obtain ⟨-, -, -, ⟨⟩, ⟨⟩⟩ := commandOf_eq_some.mp hcommand
  refine ⟨fun _ => rfl, ?_⟩
  rintro - ⟨appID, happ, -⟩
  have hnone : toggledApp (trimSpace "/start") = none := by decide
  rw [hnone] at happ
  cases happ

/-- The deeplink is sent to the group. -/
theorem startIn_group_not_tokensPrivate :
    (startIn ⟨-100, .supergroup⟩).Genuine ∧
      ¬TokensPrivate agreedDb.tokens.rows
        ((dispatchUpdate deeplinkEnv (startIn ⟨-100, .supergroup⟩)).run ⟨agreedDb, []⟩).2 := by
  have hgenuine : (startIn ⟨-100, .supergroup⟩).Genuine := startIn_genuine (by simp) (by simp)
  refine ⟨hgenuine, fun hsafe => ?_⟩
  have hcommand : commandOf (startIn ⟨-100, .supergroup⟩) =
      some (⟨⟨-100, .supergroup⟩, some { id := 101 }, "/start"⟩, { id := 101 }) :=
    commandOf_eq_some.mpr ⟨by decide, rfl, rfl, rfl, rfl⟩
  have hprivate := ((tokensPrivate_command_iff hgenuine agreedDb_secrets hcommand).mp hsafe).1
    startIn_issues
  cases hprivate

end TelegramServer.Bot

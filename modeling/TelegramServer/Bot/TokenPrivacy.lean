import TelegramServer.Bot.Agreement
import TelegramServer.Bot.Effects

/-!
Who sees a startgroup token. Whoever redeems it links the user it was issued for to a
group of their own choosing, so it belongs in the private chat of that user.
`StartHandler` answers in the chat the command came from and does not ask what kind
of chat that is, unlike `AppsHandler`, and the replies of `AppsHandler` repeat what
the user has typed.

A token is random. That is used in two ways: it is not one of the tokens issued
before, and it is not found by chance in a text that has nothing to do with it.
-/

namespace TelegramServer.Bot

open Go Lib Registry Dispatch

/-! ### The property -/

/-- A row of the user with this id has this telegram id. -/
def Known (db : Database) (userID telegramID : ℤ) : Prop :=
  ∃ u ∈ db.users.rows, u.id = userID ∧ u.telegramID = telegramID

/-- Whatever message contains a token that was ever issued is sent to the private
chat of its user. The chats of users have positive ids, those of groups negative ones. -/
def TokensPrivate (past : List PendingToken) (w : World) : Prop :=
  ∀ chatID text, .sendMessage chatID text ∈ w.calls → ∀ row ∈ past ++ w.db.tokens.rows,
    Occurs row.token text → 0 < chatID ∧ Known w.db row.userID chatID

/-- What Telegram sees to: the ids of users are positive and those of other chats
negative, and a private chat has the id of its user. -/
structure Update.Genuine (u : Update) : Prop where
  sender_pos : ∀ m s, u.message = some m → m.sender = some s → 0 < s.id
  private_id : ∀ m s, u.message = some m → m.sender = some s → m.chat.type = .privateChat →
    m.chat.id = s.id
  group_neg : ∀ m, u.message = some m → m.chat.type ≠ .privateChat → m.chat.id < 0

/-- The strings a message can contain that no user has typed into a command. -/
def ownTexts (env : BotEnv) (db : Database) : List String :=
  env.botUsername ::
    (db.apps.rows.flatMap fun a => [a.id, a.name, a.minGrade, env.quote a.id]) ++
    db.subscriptions.rows.map Subscription.appID

/-- Tokens are random: `past` are the ones issued so far, pending or not. -/
structure Secrets (env : BotEnv) (db : Database) (past : List PendingToken) : Prop where
  pending : db.tokens.rows ⊆ past
  tokens : ∀ row ∈ past, IsToken row.token
  source : ∀ token, env.newToken = some token →
    ∃ bytes : Bytes, bytes.length = 16 ∧ token = hexEncode bytes
  fresh : ∀ token, env.newToken = some token → ∀ row ∈ past, row.token ≠ token
  unguessed : ∀ row ∈ past, ∀ text ∈ ownTexts env db, ¬Occurs row.token text
  /-- The number of rows is an `int`. -/
  count : db.subscriptions.rows.length < 2 ^ 63

/-! ### Texts -/

section Texts

variable {env : BotEnv} {db : Database} {past : List PendingToken}

def deeplinkText (env : BotEnv) (token : String) : String :=
  "개인 알림용 슈퍼그룹을 만들어주세요.\n" ++ "https://t.me/" ++
    env.botUsername ++ "?startgroup=" ++ token ++ "\n" ++
    "버튼이 안 보이면 위 링크를 눌러 새 그룹을 만들고 봇을 admin으로 추가해주세요.\n" ++
    "권한: Post Messages / Manage Topics / Ban Users 모두 필요합니다."

theorem occurs_deeplinkText {token : String} : Occurs token (deeplinkText env token) :=
  (((Occurs.append_left (List.infix_rfl)).append_right).append_right).append_right

/-- Nothing but the token itself and the name of the bot can contain a token. -/
theorem Occurs.of_deeplinkText {token t : String} (ht : IsToken t)
    (h : Occurs t (deeplinkText env token)) : Occurs t env.botUsername ∨ Occurs t token := by
  -- from the end: two lines, the line feed, the token, the rest of the link
  have h := h.of_append_literal ht (.inl (endsOutside_append_literal rfl)) (by decide)
  have h := h.of_append_literal ht (.inl (endsOutside_append_literal rfl)) (by decide)
  have h := h.of_append_literal ht (.inr (startsOutside_literal rfl)) (by decide)
  obtain h | h := h.of_append ht (.inl (endsOutside_append_literal rfl))
  · have h := h.of_append_literal ht (.inr (startsOutside_literal rfl)) (by decide)
    obtain h | h := h.of_append ht (.inl (endsOutside_append_literal rfl))
    · have h := h.of_append_literal ht (.inl (endsOutside_literal rfl)) (by decide)
      have hplain : Plain "개인 알림용 슈퍼그룹을 만들어주세요.\n" := plain_literal (by decide)
      exact absurd h (hplain t ht)
    · exact .inl h
  · exact .inr h

/-- No token that was issued before the update occurs in the text. -/
def Bare (past : List PendingToken) (text : String) : Prop :=
  ∀ row ∈ past, ¬Occurs row.token text

section Bare

variable (hpast : ∀ row ∈ past, IsToken row.token) {a b x : String} {l : List Char}

include hpast

theorem Plain.bare (h : Plain a) : Bare past a := fun row hrow => h row.token (hpast row hrow)

theorem Bare.append (ha : Bare past a) (hb : Bare past b)
    (hfence : EndsOutside a ∨ StartsOutside b) : Bare past (a ++ b) :=
  fun row hrow h => (h.of_append (hpast row hrow) hfence).elim (ha row hrow) (hb row hrow)

/-- A string between two texts. -/
theorem Bare.frame (ha : Bare past a) (hends : EndsOutside a) (hx : Bare past x)
    (h : hasStretch isHexDigit 32 0 l = false)
    (hstarts : l.head?.all (fun c => !isHexDigit c) = true) :
    Bare past (a ++ x ++ String.ofList l) :=
  .append hpast (.append hpast ha hx (.inl hends)) ((plain_literal h).bare hpast)
    (.inr (startsOutside_literal hstarts))

theorem bare_join {texts : List String} (h : ∀ t ∈ texts, Bare past t ∧ StartsOutside t) :
    Bare past (String.join texts) ∧ StartsOutside (String.join texts) := by
  induction texts with
  | nil => exact ⟨(plain_literal (l := []) rfl).bare hpast, rfl⟩
  | cons t rest ih =>
      obtain ⟨ht, hstarts⟩ := h t (List.mem_cons_self ..)
      obtain ⟨hrest, hrest'⟩ := ih fun t' ht' => h t' (List.mem_cons_of_mem _ ht')
      rw [String.join_cons]
      exact ⟨.append hpast ht hrest (.inr hrest'), hstarts.append hrest'⟩

theorem bare_intercalate {texts : List String} (h : ∀ t ∈ texts, Bare past t) :
    Bare past (String.intercalate " " texts) := by
  induction texts with
  | nil => exact (plain_literal (l := []) rfl).bare hpast
  | cons t rest ih =>
      have ht := h t (List.mem_cons_self ..)
      cases rest with
      | nil => rwa [String.intercalate_singleton]
      | cons t' rest =>
          rw [String.intercalate_cons_cons]
          refine .append hpast (.append hpast ht ?_ (.inr (startsOutside_literal rfl)))
            (ih fun x hx => h x (List.mem_cons_of_mem _ hx)) (.inl (endsOutside_append_literal rfl))
          exact (plain_literal (by decide)).bare hpast

/-- A number is shorter than a token. -/
theorem bare_toString {n : ℕ} (hn : n < 2 ^ 63) : Bare past (toString n) := by
  intro row hrow h
  have hlen := h.length_le
  rw [(hpast row hrow).length] at hlen
  have hdigits := Nat.repr_length n 19 (by omega) (lt_trans hn (by norm_num))
  rw [← String.length_toList] at hdigits
  have : (toString n).toList.length ≤ 19 := hdigits
  omega

end Bare

theorem Secrets.bare (h : Secrets env db past) {text : String} (htext : text ∈ ownTexts env db) :
    Bare past text := fun row hrow => h.unguessed row hrow text htext

theorem Secrets.bare_app (h : Secrets env db past) {a : AppRow} (ha : a ∈ db.apps.rows) :
    Bare past a.id ∧ Bare past a.name ∧ Bare past a.minGrade ∧ Bare past (env.quote a.id) := by
  have hown {text : String} (htext : text ∈ [a.id, a.name, a.minGrade, env.quote a.id]) :
      Bare past text :=
    h.bare (List.mem_append_left _ (List.mem_cons_of_mem _ (List.mem_flatMap.mpr ⟨a, ha, htext⟩)))
  exact ⟨hown (by simp), hown (by simp), hown (by simp), hown (by simp)⟩

theorem Secrets.bare_subscription (h : Secrets env db past) {s : Subscription}
    (hs : s ∈ db.subscriptions.rows) : Bare past s.appID :=
  h.bare (List.mem_append_right _ (List.mem_map_of_mem hs))

theorem Secrets.bare_catalogueText (h : Secrets env db past) {db' : Database}
    (happs : db'.apps = db.apps) (user : UserRow) : Bare past (catalogueText db' user) := by
  have hp := h.tokens
  have hlit {l : List Char} (hl : hasStretch isHexDigit 32 0 l = false) :
      Bare past (String.ofList l) := (plain_literal hl).bare hp
  have happ {p : AppRow → Bool} {a : AppRow}
      (ha : a ∈ (sortBy AppRow.id (db'.apps.rows.filter AppRow.active)).filter p) :
      a ∈ db.apps.rows := by
    rw [happs] at ha
    exact List.mem_of_mem_filter (mem_sortBy.mp (List.mem_of_mem_filter ha))
  unfold catalogueText
  dsimp only
  refine .append hp (.append hp (hlit (by decide)) (bare_join hp ?_).1
    (.inl (endsOutside_literal rfl))) ?_ (.inr ?_)
  · -- the apps of the user's grade
    intro t ht
    obtain ⟨a, ha, rfl⟩ := List.mem_map.mp ht
    obtain ⟨hid, hname, -⟩ := h.bare_app (happ ha)
    split
    all_goals
      refine ⟨.frame hp (.frame hp (.frame hp (hlit (by decide)) (endsOutside_literal rfl) hid
        (by decide) rfl) (endsOutside_append_literal rfl) hname (by decide) rfl)
        (endsOutside_append_literal rfl) hid (by decide) rfl, Opens.startsOutside ?_⟩
      iterate 6 refine Opens.append ?_
      exact opens_literal rfl
  · split
    · exact hlit (l := []) rfl
    · -- the apps above it
      refine .append hp (hlit (by decide)) (bare_join hp fun t ht => ?_).1
        (.inl (endsOutside_literal rfl))
      obtain ⟨a, ha, rfl⟩ := List.mem_map.mp ht
      obtain ⟨hid, hname, hgrade, -⟩ := h.bare_app (happ ha)
      refine ⟨.frame hp (.frame hp (.frame hp (hlit (by decide)) (endsOutside_literal rfl) hid
        (by decide) rfl) (endsOutside_append_literal rfl) hname (by decide) rfl)
        (endsOutside_append_literal rfl) hgrade (by decide) rfl, Opens.startsOutside ?_⟩
      iterate 6 refine Opens.append ?_
      exact opens_literal rfl
  · split
    · rfl
    · exact Opens.startsOutside (.append (opens_literal rfl))

/-- The number and the names of the apps a topic was made for. -/
theorem Secrets.bare_ready (h : Secrets env db past) {db' : Database}
    (hsubs : db'.subscriptions = db.subscriptions) {userID : ℤ} {created : List String}
    (hcreated : created.Sublist (db'.listSubscribedAppsWithoutTopic userID)) :
    Bare past (if created = [] then "준비 완료. 알림이 활성화되었습니다."
      else "준비 완료. 생성된 토픽 " ++ toString created.length ++ "개: " ++ showList created) := by
  have hp := h.tokens
  split
  · exact (plain_literal (by decide)).bare hp
  · have happs : ∀ app ∈ created, Bare past app := by
      intro app happ
      obtain ⟨⟨s, hs, hkey⟩, -⟩ := mem_listSubscribedAppsWithoutTopic.mp (hcreated.subset happ)
      obtain ⟨-, rfl⟩ := Prod.mk.inj hkey
      exact h.bare_subscription (hsubs ▸ hs)
    have hcount : created.length < 2 ^ 63 :=
      (hcreated.length_le.trans (length_listSubscribedAppsWithoutTopic db' userID)).trans_lt
        (hsubs ▸ h.count)
    refine .append hp (.frame hp ((plain_literal (by decide)).bare hp) (endsOutside_literal rfl)
      (bare_toString hp hcount) (by decide) rfl) ?_ (.inl (endsOutside_append_literal rfl))
    exact .frame hp ((plain_literal (by decide)).bare hp) (endsOutside_literal rfl)
      (bare_intercalate hp happs) (by decide) rfl

end Texts

/-! ### The handlers that issue no token -/

/-- The call shows nobody the token of another user. -/
def Discreet (past : List PendingToken) (db : Database) (c : BotCall) : Prop :=
  ∀ chatID text, c = .sendMessage chatID text → ∀ row ∈ past, Occurs row.token text →
    0 < chatID ∧ Known db row.userID chatID

theorem Bare.discreet {past : List PendingToken} {text : String} (h : Bare past text)
    (db : Database) (chatID : ℤ) : Discreet past db (.sendMessage chatID text) := by
  rintro _ _ ⟨⟩ row hrow hoccurs
  exact absurd hoccurs (h row hrow)

structure Careful (past : List PendingToken) (db : Database) (w : World) : Prop where
  calls : ∀ c ∈ w.calls, Discreet past db c
  tokens : w.db.tokens.rows ⊆ past
  users : ∀ userID telegramID, Known db userID telegramID → Known w.db userID telegramID

section Careful

variable {env : BotEnv} {db : Database} {past : List PendingToken} {w : World}

theorem Secrets.careful (h : Secrets env db past) : Careful past db ⟨db, []⟩ :=
  ⟨by simp, h.pending, fun _ _ h => h⟩

theorem Careful.tokensPrivate (h : Careful past db w) : TokensPrivate past w := by
  intro chatID text hcall row hrow hoccurs
  have hrow : row ∈ past := (List.mem_append.mp hrow).elim id fun hrow => h.tokens hrow
  obtain ⟨hpos, hknown⟩ := h.calls _ hcall chatID text rfl row hrow hoccurs
  exact ⟨hpos, h.users _ _ hknown⟩

theorem Careful.setDb {db' : Database} (h : Careful past db w)
    (htokens : db'.tokens.rows ⊆ w.db.tokens.rows)
    (husers : ∀ userID telegramID, Known w.db userID telegramID → Known db' userID telegramID) :
    Careful past db (w.setDb db') :=
  ⟨h.calls, fun _ ht => h.tokens (htokens ht),
    fun userID telegramID hk => husers userID telegramID (h.users userID telegramID hk)⟩

theorem known_of_users_eq {db' : Database} (h : db'.users = db.users) {userID telegramID : ℤ}
    (hk : Known db userID telegramID) : Known db' userID telegramID := by
  rwa [Known, h]

/-- An `UPDATE users` leaves everybody known. -/
theorem known_update {db' : Database} {g : UserRow → UserRow}
    (hrows : db'.users.rows = db.users.rows.map g) (hid : ∀ u, (g u).id = u.id)
    (htg : ∀ u, (g u).telegramID = u.telegramID) {userID telegramID : ℤ}
    (hk : Known db userID telegramID) : Known db' userID telegramID := by
  obtain ⟨u, hu, huser, htelegram⟩ := hk
  exact ⟨g u, hrows ▸ List.mem_map_of_mem hu, (hid u).trans huser, (htg u).trans htelegram⟩

theorem tolerates_careful (past : List PendingToken) (db : Database) {R : Database → Prop}
    (hR : ∀ db userID topicID appID, R db → R (Database.addTopic db userID appID topicID).2) :
    Tolerates (fun w => Careful past db w ∧ R w.db) (Discreet past db) where
  call := by
    rintro w c hc ⟨hw, hRw⟩
    refine ⟨⟨fun c' hc' => ?_, hw.tokens, hw.users⟩, hRw⟩
    obtain hc' | hc' := List.mem_append.mp hc'
    · exact hw.calls c' hc'
    · rwa [List.mem_singleton.mp hc']
  silent := by
    rintro c hc chatID text rfl
    cases hc
  topic := by
    rintro w userID chatID topicID appID _ _ ⟨hw, hRw⟩
    refine ⟨hw.setDb ?_ fun _ _ => known_of_users_eq (users_addTopic ..), hR _ _ _ _ hRw⟩
    rw [(frame_addTopic ..).1]
    exact fun _ h => h

theorem sendsPlain_discreet (hpast : ∀ row ∈ past, IsToken row.token) (db : Database) (chatID : ℤ) :
    SendsPlain (Discreet past db) chatID :=
  fun _ hplain => (hplain.bare hpast).discreet db chatID

theorem tokens_consumeToken (db : Database) (now : Time) (token : String) :
    (db.consumeToken now token).2.tokens.rows ⊆ db.tokens.rows := by
  unfold Database.consumeToken
  split
  · exact fun _ h => h
  · dsimp only
    split <;> exact fun _ h => List.mem_of_mem_filter h

theorem careful_startgroupHandle (h : Secrets env db past) (u : Update) :
    Careful past db ((startgroupHandle env u).run ⟨db, []⟩).2 := by
  have hT := tolerates_careful past db (R := fun _ => True)
    fun _ _ _ _ _ => trivial
  have hconsume (token : String) :
      Careful past db (World.setDb ⟨db, []⟩ (db.consumeToken env.now token).2) :=
    h.careful.setDb (tokens_consumeToken db env.now token)
      fun _ _ => known_of_users_eq (users_consumeToken ..)
  refine (hT.triple_startgroupHandle ⟨h.careful, trivial⟩
    (fun chatID _ _ => sendsPlain_discreet h.tokens db chatID)
    (fun token => ⟨hconsume token, trivial⟩) ?_ _ rfl).1
  intro token userID chatID _
  refine ⟨(hconsume token).setDb (fun _ h => h) fun _ _ => ?_, trivial⟩
  exact known_update rfl (fun u => by split <;> rfl) fun u => by split <;> rfl

theorem careful_promoteHandle (h : Secrets env db past) (u : Update) :
    Careful past db ((promoteHandle env u).run ⟨db, []⟩).2 := by
  have hT := tolerates_careful past db
    (R := fun db' => db'.subscriptions = db.subscriptions)
    fun _ _ _ _ hsubs => (frame_addTopic ..).2.1.trans hsubs
  refine (hT.keeps_promoteHandle (fun m _ => sendsPlain_discreet h.tokens db m.chat.id) ?_ ?_ _
    ⟨h.careful, rfl⟩).1
  · intro m userID created w _ hw hcreated
    exact hT.keeps_call ((h.bare_ready hw.2 hcreated).discreet db m.chat.id)
  · intro m userID isAdmin w _ _ hw
    refine ⟨hw.1.setDb (fun _ h => h) fun _ _ => ?_, hw.2⟩
    exact known_update rfl (fun u => by split <;> rfl) fun u => by split <;> rfl

end Careful

end TelegramServer.Bot

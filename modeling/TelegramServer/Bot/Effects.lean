import TelegramServer.Bot.Handlers
import TelegramServer.Bot.Texts
import TelegramServer.Lib.StateTriple

/-!
What the handlers do, said once. A handler runs statements and makes calls; which
ones is all that an invariant of the world needs to know of it. `Tolerates I Good`
says that `I` is kept by the calls that are `Good` and by a topic row stored for a
user who is linked to the chat the topic was made in. Each lemma below is one
handler, or one part of it, with the messages it sends and the other statements it
runs as its hypotheses.
-/

namespace TelegramServer.Bot

open Go Lib Registry Dispatch

/-! ### Links and topics -/

def LinkedTo (db : Database) (userID chatID : ℤ) : Prop :=
  ∃ u ∈ db.users.rows, u.id = userID ∧ u.personalSupergroupChatID = some chatID

def BotCall.creates (chatID topicID : ℤ) : BotCall → Bool
  | .createForumTopic chatID' _ (some topicID') => chatID' == chatID && topicID' == topicID
  | _ => false

/-- Telegram made the topic in the chat. -/
def CreatedIn (calls : List BotCall) (chatID topicID : ℤ) : Prop :=
  ∃ c ∈ calls, c.creates chatID topicID = true

instance (calls : List BotCall) (chatID topicID : ℤ) : Decidable (CreatedIn calls chatID topicID) :=
  inferInstanceAs (Decidable (∃ c ∈ calls, c.creates chatID topicID = true))

def World.setDb (w : World) (db : Database) : World := { w with db := db }

theorem users_addTopic (db : Database) (userID topicID : ℤ) (appID : String) :
    (db.addTopic userID appID topicID).2.users = db.users := by
  unfold Database.addTopic
  split <;> rfl

theorem frame_addTopic (db : Database) (userID topicID : ℤ) (appID : String) :
    (db.addTopic userID appID topicID).2.tokens = db.tokens ∧
      (db.addTopic userID appID topicID).2.subscriptions = db.subscriptions ∧
      (db.addTopic userID appID topicID).2.apps = db.apps := by
  unfold Database.addTopic
  split <;> exact ⟨rfl, rfl, rfl⟩

theorem LinkedTo.setBotIsAdmin {db : Database} {userID chatID : ℤ} (h : LinkedTo db userID chatID)
    (id : ℤ) (isAdmin : Bool) : LinkedTo (db.setBotIsAdmin id isAdmin) userID chatID := by
  obtain ⟨u, hu, hid, hchat⟩ := h
  refine ⟨_, List.mem_map.mpr ⟨u, hu, rfl⟩, ?_, ?_⟩
  · split <;> exact hid
  · split <;> exact hchat

theorem linkedTo_of_findUserByChatID {db : Database} {planner : Planner} {chatID userID : ℤ}
    (h : db.findUserByChatID planner chatID = .ok userID) : LinkedTo db userID chatID := by
  unfold Database.findUserByChatID at h
  split at h
  · next u hhead =>
      have hmem := (planner.perm _).mem_iff.mp (List.mem_of_head? hhead)
      obtain ⟨hu, hchat⟩ := List.mem_filter.mp hmem
      exact ⟨u, hu, by simpa using h, by simpa using hchat⟩
  · cases h

/-- No user is found only for a chat nobody is linked to. -/
theorem not_linkedTo_of_findUserByChatID {db : Database} {planner : Planner} {chatID : ℤ}
    {e : RegistryErr} (h : db.findUserByChatID planner chatID = .error e) (userID : ℤ) :
    ¬LinkedTo db userID chatID := by
  rintro ⟨u, hu, -, hchat⟩
  have hmem : u ∈ planner.arrange
      (db.users.rows.filter fun u => u.personalSupergroupChatID = some chatID) :=
    (planner.perm _).mem_iff.mpr (List.mem_filter.mpr ⟨hu, by simpa using hchat⟩)
  unfold Database.findUserByChatID at h
  split at h
  · cases h
  next hhead =>
    rw [List.head?_eq_none_iff.mp hhead] at hmem
    cases hmem

theorem linkedTo_of_getByTelegramID {db : Database} {telegramID chatID : ℤ} {user : UserRow}
    (h : db.getByTelegramID telegramID = .ok user)
    (hchat : user.personalSupergroupChatID = some chatID) : LinkedTo db user.id chatID := by
  unfold Database.getByTelegramID at h
  split at h
  · next u hfind =>
      cases h
      exact ⟨user, List.mem_of_find?_eq_some hfind, rfl, hchat⟩
  · cases h

theorem mem_listSubscribedAppsWithoutTopic {db : Database} {userID : ℤ} {app : String} :
    app ∈ db.listSubscribedAppsWithoutTopic userID ↔
      (∃ s ∈ db.subscriptions.rows, s.key = (userID, app)) ∧ (userID, app) ∉ db.topics.keys := by
  simp only [Database.listSubscribedAppsWithoutTopic, mem_sortBy, List.mem_map, List.mem_filter,
    Bool.and_eq_true, decide_eq_true_eq, Option.isNone_iff_eq_none]
  constructor
  · rintro ⟨⟨s, t⟩, ⟨hmem, rfl, rfl⟩, rfl⟩
    obtain ⟨hs, hnone⟩ := mem_leftJoin.mp hmem
    refine ⟨⟨s, hs, rfl⟩, fun hkey => ?_⟩
    obtain ⟨t, ht, heq⟩ := List.mem_map.mp hkey
    obtain ⟨huser, happ⟩ := Prod.mk.inj heq
    simpa [huser, happ] using hnone t ht
  · rintro ⟨⟨s, hs, hkey⟩, hnone⟩
    obtain ⟨rfl, rfl⟩ := Prod.mk.inj hkey
    refine ⟨(s, none), ⟨mem_leftJoin.mpr ⟨hs, fun t ht => ?_⟩, rfl, rfl⟩, rfl⟩
    by_contra hon
    simp only [Bool.not_eq_false, Bool.and_eq_true, decide_eq_true_eq] at hon
    exact hnone (List.mem_map.mpr ⟨t, ht, Prod.ext hon.1 hon.2⟩)

theorem length_listSubscribedAppsWithoutTopic (db : Database) (userID : ℤ) :
    (db.listSubscribedAppsWithoutTopic userID).length ≤ db.subscriptions.rows.length := by
  have hjoin : leftJoin (fun (s : Subscription) t => t.userID = s.userID && t.appID = s.appID)
      db.subscriptions.rows db.topics.rows = _ :=
    leftJoin_table (fun s => some s.key) (by simp [UserTopic.key, Subscription.key]) _
  rw [Database.listSubscribedAppsWithoutTopic, length_sortBy, List.length_map, hjoin]
  refine (List.length_filter_le _ _).trans ?_
  rw [List.length_map]

/-! ### Statements -/

/-- The statements by which a user subscribes to an app and leaves it. -/
inductive Subscribes (db : Database) : Database → Prop
  | add (userID : ℤ) (appID : String) : Subscribes db (db.addSubscription userID appID).2
  | remove (userID : ℤ) (appID : String) : Subscribes db (db.removeSubscription userID appID)
  | removeTopic (userID : ℤ) (appID : String) : Subscribes db (db.removeTopic userID appID)

/-- The statements of `/start` and `/agree`. -/
inductive Registers (db : Database) : Database → Prop
  | upsertOnStart (telegramID : ℤ) (username preferredLang : String) :
      Registers db (db.upsertOnStart telegramID username preferredLang).2
  | markAgreed (now : Time) (userID : ℤ) : Registers db (db.markAgreed now userID).2
  | issueToken (now : Time) (token : String) (userID ttl : ℤ) :
      Registers db (db.issueToken now token userID ttl).2

theorem Subscribes.users_eq {db db' : Database} (h : Subscribes db db') : db'.users = db.users := by
  cases h with
  | add userID appID =>
      unfold Database.addSubscription
      split <;> rfl
  | remove userID appID => rfl
  | removeTopic userID appID => rfl

def BotCall.isMessage : BotCall → Bool
  | .sendMessage .. => true
  | _ => false

structure Tolerates (I : World → Prop) (Good : BotCall → Prop) : Prop where
  call : ∀ {w : World} {c : BotCall}, Good c → I w → I { w with calls := w.calls ++ [c] }
  silent : ∀ c : BotCall, c.isMessage = false → Good c
  topic : ∀ {w : World} {userID chatID topicID : ℤ} {appID : String},
    LinkedTo w.db userID chatID → CreatedIn w.calls chatID topicID → I w →
    I (w.setDb (w.db.addTopic userID appID topicID).2)

/-- The invariant is kept by the statements of a kind. -/
def KeptBy (I : World → Prop) (R : Database → Database → Prop) : Prop :=
  ∀ w db, R w.db db → I w → I (w.setDb db)

/-- The messages without a string from outside. -/
def SendsPlain (Good : BotCall → Prop) (chatID : ℤ) : Prop :=
  ∀ text, Plain text → Good (.sendMessage chatID text)

section Keeps

variable {I : World → Prop} {Good : BotCall → Prop} {env : BotEnv} {α : Type}

/-- A user stays linked while a handler that does not link users runs. -/
theorem Tolerates.and_linkedTo (h : Tolerates I Good) (userID chatID : ℤ) :
    Tolerates (fun w => LinkedTo w.db userID chatID ∧ I w) Good where
  call := fun hc hw => ⟨hw.1, h.call hc hw.2⟩
  silent := h.silent
  topic := by
    intro w userID' chatID' topicID appID hlinked hcreated hw
    refine ⟨?_, h.topic hlinked hcreated hw.2⟩
    rw [LinkedTo, World.setDb, users_addTopic]
    exact hw.1

/-- The link the toggle acts on was read from the user's row. -/
def LinkKnown (user : UserRow) (w : World) : Prop :=
  ∀ chatID, user.personalSupergroupChatID = some chatID → LinkedTo w.db user.id chatID

theorem Tolerates.and_linkKnown (h : Tolerates I Good) (user : UserRow) :
    Tolerates (fun w => LinkKnown user w ∧ I w) Good where
  call := fun hc hw => ⟨hw.1, h.call hc hw.2⟩
  silent := h.silent
  topic := fun hlinked hcreated hw =>
    ⟨fun chatID hchat => ((h.and_linkedTo user.id chatID).topic hlinked hcreated
      ⟨hw.1 chatID hchat, hw.2⟩).1, h.topic hlinked hcreated hw.2⟩

theorem KeptBy.and_linkKnown (hsub : KeptBy I Subscribes) (user : UserRow) :
    KeptBy (fun w => LinkKnown user w ∧ I w) Subscribes := by
  intro w db hs hw
  refine ⟨fun chatID hchat => ?_, hsub w db hs hw.2⟩
  rw [LinkedTo, World.setDb, hs.users_eq]
  exact hw.1 chatID hchat

theorem keeps_query {stmt : Stmt} {f : Database → Except RegistryErr α × Database}
    (hf : ∀ w, I w → I (w.setDb (f w.db).2)) : Keeps I (query env stmt f) := by
  unfold query
  split
  · exact Keeps.pure
  · exact hf

theorem keeps_exec {stmt : Stmt} {f : Database → Database}
    (hf : ∀ w, I w → I (w.setDb (f w.db))) : Keeps I (exec env stmt f) := keeps_query hf

/-- A read changes nothing, and a row it returns is in the database. -/
theorem triple_select {stmt : Stmt} {f : Database → Except RegistryErr α} :
    Triple I (select env stmt f) fun r w =>
      (∀ a, r = .ok a → env.fails stmt = false ∧ f w.db = .ok a) ∧ I w := by
  unfold select query
  split
  · exact Triple.pure fun w hw => ⟨by simp, hw⟩
  next hfails => exact fun w hw => ⟨fun a h => ⟨by simpa using hfails, h⟩, hw⟩

theorem keeps_select {stmt : Stmt} {f : Database → Except RegistryErr α} :
    Keeps I (select env stmt f) :=
  triple_select.weaken (fun _ h => h) fun _ _ h => h.2

/-- The user a chat update is attributed to is linked to the chat. -/
theorem triple_findUserByChatID (chatID : ℤ) :
    Triple I (select env .findUserByChatID fun db => db.findUserByChatID env.planner chatID)
      fun r w => (∀ userID, r = .ok userID → LinkedTo w.db userID chatID) ∧ I w :=
  triple_select.weaken (fun _ h => h) fun _ _ h =>
    ⟨fun userID hr => linkedTo_of_findUserByChatID (h.1 userID hr).2, h.2⟩

section Tolerates

variable (h : Tolerates I Good)

include h

theorem Tolerates.keeps_call {c : BotCall} (hc : Good c) : Keeps I (Bot.call c) :=
  fun _ hw => h.call hc hw

theorem Tolerates.keeps_silent {c : BotCall} (hc : c.isMessage = false) : Keeps I (Bot.call c) :=
  h.keeps_call (h.silent c hc)

theorem Tolerates.triple_createForumTopic (chatID topicID : ℤ) (name : String) :
    Triple I (Bot.call (.createForumTopic chatID name (some topicID)))
      fun _ w => I w ∧ CreatedIn w.calls chatID topicID :=
  (h.keeps_silent rfl).and fun w _ =>
    ⟨_, List.mem_append_right w.calls (List.mem_singleton.mpr rfl), by simp [BotCall.creates]⟩

/-! ### The topic provisioner -/

/-- Topics are stored for a user who is linked to the chat they are made in. -/
theorem Tolerates.keeps_ensureLoop {userID chatID : ℤ}
    (hlinked : ∀ w, I w → LinkedTo w.db userID chatID) (apps : List String) :
    Keeps I (ensureLoop env userID chatID apps) := by
  induction apps with
  | nil => exact Keeps.pure
  | cons app rest ih =>
      unfold ensureLoop
      cases htopic : env.createForumTopic app with
      | none => exact Keeps.bind (h.keeps_silent rfl) fun _ => ih
      | some topicID =>
          refine Triple.bind (h.triple_createForumTopic chatID topicID app) fun _ => ?_
          have hadd : Triple (fun w => I w ∧ CreatedIn w.calls chatID topicID)
              (query env (.addTopic app) fun db => db.addTopic userID app topicID)
              fun _ => I := by
            unfold query
            split
            · exact Triple.pure fun w hw => hw.1
            · exact fun w hw => h.topic (hlinked w hw.1) hw.2 hw.1
          refine Triple.bind hadd fun r => ?_
          cases r with
          | error e => exact ih
          | ok _ => exact Keeps.bind ih fun _ => Keeps.pure

omit h in
/-- Only apps on the list are named as created. -/
theorem triple_ensureLoop_created (userID chatID : ℤ) (apps : List String) :
    Triple (fun _ => True) (ensureLoop env userID chatID apps)
      fun created _ => created.Sublist apps := by
  induction apps with
  | nil => exact Triple.pure fun _ _ => List.Sublist.refl _
  | cons app rest ih =>
      have hrest := ih.weaken (fun _ h => h) fun _ _ h => h.cons app
      unfold ensureLoop
      refine Triple.after fun _ => ?_
      split
      · exact hrest
      · refine Triple.after fun r => ?_
        cases r with
        | error e => exact hrest
        | ok _ => exact Triple.bind ih fun _ => Triple.pure fun _ h => h.cons_cons app

/-- The apps a provisioning is said to have made a topic for. -/
def createdApps : Except RegistryErr (List String) → List String
  | .ok apps => apps
  | .error _ => []

theorem Tolerates.triple_ensureForSubscribedApps {userID chatID : ℤ}
    (hlinked : ∀ w, I w → LinkedTo w.db userID chatID) :
    Triple I (ensureForSubscribedApps env userID chatID) fun r w => I w ∧
      ∃ w', I w' ∧ (createdApps r).Sublist (w'.db.listSubscribedAppsWithoutTopic userID) := by
  refine Triple.bind triple_select fun r => ?_
  cases r with
  | error e => exact Triple.pure fun w hw => ⟨hw.2, w, hw.2, List.nil_sublist _⟩
  | ok apps =>
      intro w hw
      obtain ⟨-, happs⟩ := hw.1 apps rfl
      obtain rfl : w.db.listSubscribedAppsWithoutTopic userID = apps := Except.ok.inj happs
      have hloop : Triple I
          (ensureLoop env userID chatID (w.db.listSubscribedAppsWithoutTopic userID))
          fun created w' => I w' ∧
            created.Sublist (w.db.listSubscribedAppsWithoutTopic userID) :=
        (h.keeps_ensureLoop hlinked _).and
          ((triple_ensureLoop_created userID chatID _).weaken (fun _ _ => trivial) fun _ _ h => h)
      obtain ⟨hI, hcreated⟩ := hloop w hw.2
      exact ⟨hI, w, hw.2, hcreated⟩

theorem Tolerates.keeps_ensureForSubscribedApps {userID chatID : ℤ}
    (hlinked : ∀ w, I w → LinkedTo w.db userID chatID) :
    Keeps I (ensureForSubscribedApps env userID chatID) :=
  (h.triple_ensureForSubscribedApps hlinked).weaken (fun _ h => h) fun _ _ h => h.1

theorem Tolerates.keeps_closeTopic (hsub : KeptBy I Subscribes) (userID chatID : ℤ)
    (appID : String) :
    Keeps I (closeTopic env userID chatID appID) := by
  refine Keeps.bind keeps_select fun r => ?_
  cases r with
  | error e => exact Keeps.pure
  | ok topicID =>
      refine Keeps.bind (h.keeps_silent rfl) fun _ => ?_
      split
      · exact keeps_exec fun w hw => hsub w _ (.removeTopic userID appID) hw
      · exact Keeps.pure

/-! ### The handlers -/

theorem Tolerates.keeps_markNotAdmin {userID : ℤ} (chatID : ℤ) (errorCode : String)
    (hset : ∀ w, I w → I (w.setDb (w.db.setBotIsAdmin userID false))) :
    Keeps I (markNotAdmin env userID chatID errorCode) := by
  refine Keeps.bind (keeps_exec hset) fun r => ?_
  cases r with
  | error e => exact Keeps.pure
  | ok _ => exact h.keeps_silent rfl

/-- The flag is only set for a user who is linked to the chat of the update. -/
theorem Tolerates.keeps_promoteHandle {u : Update}
    (hplain : ∀ m, u.myChatMember = some m → SendsPlain Good m.chat.id)
    (hready : ∀ m userID created w, u.myChatMember = some m → I w →
      List.Sublist created (w.db.listSubscribedAppsWithoutTopic userID) →
      Keeps I (sendReady m.chat.id created))
    (hset : ∀ m userID isAdmin w, u.myChatMember = some m → LinkedTo w.db userID m.chat.id → I w →
      I (w.setDb (w.db.setBotIsAdmin userID isAdmin))) :
    Keeps I (promoteHandle env u) := by
  unfold promoteHandle
  split
  · exact Keeps.pure
  next m hm =>
    split
    · exact Keeps.pure
    refine Triple.bind (triple_findUserByChatID m.chat.id) fun r => ?_
    cases r with
    | error e => exact Triple.pure fun _ h => h.2
    | ok userID =>
        -- from here on the user is known to be linked to the chat
        have hJ := h.and_linkedTo userID m.chat.id
        have hset' (isAdmin : Bool) : ∀ w, LinkedTo w.db userID m.chat.id ∧ I w →
            LinkedTo (w.db.setBotIsAdmin userID isAdmin) userID m.chat.id ∧
              I (w.setDb (w.db.setBotIsAdmin userID isAdmin)) := fun w hw =>
          ⟨hw.1.setBotIsAdmin userID isAdmin, hset m userID isAdmin w hm hw.1 hw.2⟩
        refine Triple.weaken (P := fun w => LinkedTo w.db userID m.chat.id ∧ I w)
          (Q := fun _ w => LinkedTo w.db userID m.chat.id ∧ I w) ?_
          (fun w h => ⟨h.1 userID rfl, h.2⟩) fun _ _ h => h.2
        dsimp only
        split
        · split
          · refine Keeps.bind (hJ.keeps_call (hplain m hm _ ?_)) fun _ => ?_
            · exact .append_literal (.append_literal (plain_literal (by decide))
                (endsOutside_literal rfl) (by decide)) (endsOutside_append_literal rfl) (by decide)
            · exact Keeps.bind (hJ.keeps_markNotAdmin _ _ (hset' false)) fun _ => Keeps.pure
          · refine Keeps.bind (keeps_exec (hset' true)) fun r => ?_
            cases r with
            | error e => exact Keeps.pure
            | ok _ =>
                refine Triple.bind (hJ.triple_ensureForSubscribedApps fun w h => h.1)
                  fun created => ?_
                rintro w ⟨hw, w', hw', hcreated⟩
                have hsend := hready m userID _ w' hm hw'.2 hcreated
                have hJsend : Keeps (fun w => LinkedTo w.db userID m.chat.id ∧ I w)
                    (sendReady m.chat.id (createdApps created)) :=
                  fun s hs => ⟨hs.1, hsend s hs.2⟩
                exact Keeps.bind hJsend (fun _ => Keeps.pure) w hw
        all_goals first
          | exact Keeps.pure
          | exact Keeps.bind (hJ.keeps_markNotAdmin _ _ (hset' false)) fun _ => Keeps.pure

theorem Tolerates.keeps_intrusionHandle (u : Update) : Keeps I (intrusionHandle env u) := by
  unfold intrusionHandle
  split
  · exact Keeps.pure
  · split
    · exact Keeps.pure
    · refine Keeps.bind keeps_select fun r => ?_
      cases r with
      | error e => exact Keeps.pure
      | ok userID =>
          dsimp only
          split
          · exact Keeps.pure
          · split
            · exact Keeps.pure
            · split
              · exact Keeps.pure
              · refine Keeps.bind (h.keeps_silent rfl) fun _ => ?_
                split <;> exact Keeps.bind (h.keeps_silent rfl) fun _ => Keeps.pure

/-- The replies to a toggle are plain but for the name of the app, and only a
registered user is told that. -/
theorem Tolerates.keeps_toggle {chatID telegramID : ℤ} {appID : String} {subscribe : Bool}
    (hsub : KeptBy I Subscribes) (hplain : SendsPlain Good chatID)
    (hquoted : ∀ w user, I w → appID ≠ "" → env.fails .getByTelegramID = false →
      w.db.getByTelegramID telegramID = .ok user → ∀ a b, Framing a b →
      Good (.sendMessage chatID (a ++ env.quote appID ++ b))) :
    Keeps I (toggle env chatID telegramID appID subscribe) := by
  unfold toggle
  split
  · exact h.keeps_call (hplain _ (plain_literal (by decide)))
  next hne =>
  refine Triple.bind triple_select fun r => ?_
  cases r with
  | error e =>
      exact (h.keeps_call (hplain _ (plain_literal (by decide)))).weaken (fun _ h => h.2)
        fun _ _ h => h
  | ok user =>
      intro w hw
      obtain ⟨hfails, huser⟩ := hw.1 user rfl
      have hquote := hquoted w user hw.2 hne hfails huser
      have hJ := h.and_linkKnown user
      have hJsub := hsub.and_linkKnown user
      refine Triple.weaken (P := fun w => LinkKnown user w ∧ I w)
        (Q := fun _ w => LinkKnown user w ∧ I w) ?_ (fun _ h => h) (fun _ _ h => h.2) w
        ⟨fun _ => linkedTo_of_getByTelegramID huser, hw.2⟩
      refine Keeps.bind keeps_select fun r => ?_
      cases r with
      | error e =>
          exact hJ.keeps_call (hquote _ _ (framing_literal (by decide) (by decide) rfl rfl))
      | ok app =>
          dsimp only
          split
          · exact hJ.keeps_call (hquote _ _ (framing_literal (by decide) (by decide) rfl rfl))
          split
          · exact hJ.keeps_call (hplain _ (plain_literal (by decide)))
          split
          · refine Keeps.bind (keeps_query fun w hw => hJsub w _ (.add user.id appID) hw)
              fun r => ?_
            cases r with
            | error e => exact Keeps.pure
            | ok _ =>
                have hreply := hJ.keeps_call (hquote "앱 "
                  " 구독을 추가했습니다. 개인 그룹에 토픽이 생성되었습니다."
                  (framing_literal (by decide) (by decide) rfl rfl))
                dsimp only
                split
                · next group hgroup _ =>
                    exact Keeps.bind (hJ.keeps_ensureForSubscribedApps
                      fun w h => h.1 group hgroup) fun _ => hreply
                · exact hreply
          · split
            on_goal 1 => refine Keeps.bind (hJ.keeps_closeTopic hJsub _ _ _) fun _ => ?_
            -- the subscription is deleted whether or not the topic could be closed
            all_goals
              refine Keeps.bind (keeps_exec fun w hw => hJsub w _ (.remove user.id appID) hw)
                fun r => ?_
              cases r with
              | error e => exact Keeps.pure
              | ok _ =>
                  exact hJ.keeps_call (hquote _ _ (framing_literal (by decide) (by decide) rfl rfl))

theorem Tolerates.keeps_listApps {chatID telegramID : ℤ} (hplain : SendsPlain Good chatID)
    (hcatalogue : ∀ w user, I w → Good (.sendMessage chatID (catalogueText w.db user))) :
    Keeps I (listApps env chatID telegramID) := by
  refine Keeps.bind keeps_select fun r => ?_
  cases r with
  | error e => exact h.keeps_call (hplain _ (plain_literal (by decide)))
  | ok user =>
      refine Triple.bind triple_select fun r => ?_
      cases r with
      | error e => exact Triple.pure fun _ hw => hw.2
      | ok text =>
          intro w hw
          obtain ⟨-, htext⟩ := hw.1 text rfl
          obtain rfl : catalogueText w.db user = text := Except.ok.inj htext
          exact h.call (hcatalogue w user hw.2) hw.2

/-- The app a `/subscribe` or `/unsubscribe` command names. -/
def toggledApp (text : String) : Option String :=
  if hasPrefix text "/subscribe " then some (trimSpace (trimPrefix text "/subscribe "))
  else if hasPrefix text "/unsubscribe " then some (trimSpace (trimPrefix text "/unsubscribe "))
  else none

theorem Tolerates.keeps_appsHandle {u : Update} (hsub : KeptBy I Subscribes)
    (hplain : ∀ m, u.message = some m → m.chat.type = .privateChat → SendsPlain Good m.chat.id)
    (hcatalogue : ∀ m w user, u.message = some m → m.chat.type = .privateChat → I w →
      Good (.sendMessage m.chat.id (catalogueText w.db user)))
    (hquoted : ∀ m sender appID w user, u.message = some m → m.sender = some sender →
      m.chat.type = .privateChat → toggledApp (trimSpace m.text) = some appID → I w →
      appID ≠ "" → env.fails .getByTelegramID = false → w.db.getByTelegramID sender.id = .ok user →
      ∀ a b, Framing a b → Good (.sendMessage m.chat.id (a ++ env.quote appID ++ b))) :
    Keeps I (appsHandle env u) := by
  unfold appsHandle
  split
  · exact Keeps.pure
  next m hm =>
    split
    · exact Keeps.pure
    next sender hsender =>
      dsimp only
      split
      · exact Keeps.pure
      next hprivate =>
        have hprivate := not_not.mp hprivate
        split
        · exact Keeps.bind (h.keeps_listApps (hplain m hm hprivate)
            fun w user => hcatalogue m w user hm hprivate) fun _ => Keeps.pure
        · split
          · next hprefix =>
              refine Keeps.bind (h.keeps_toggle hsub (hplain m hm hprivate) fun w user => ?_)
                fun _ => Keeps.pure
              exact hquoted m sender _ w user hm hsender hprivate
                (by rw [toggledApp, if_pos hprefix])
          · next hprefix =>
            split
            · next hprefix' =>
                refine Keeps.bind (h.keeps_toggle hsub (hplain m hm hprivate) fun w user => ?_)
                  fun _ => Keeps.pure
                exact hquoted m sender _ w user hm hsender hprivate
                  (by rw [toggledApp, if_neg hprefix, if_pos hprefix'])
            · exact Keeps.pure

end Tolerates

/-! ### Registration -/

section Registers

variable (h : Tolerates I fun _ => True) (hregisters : KeptBy I Registers)

include h hregisters

theorem Tolerates.keeps_issueStartgroupDeeplink (userID chatID : ℤ) :
    Keeps I (issueStartgroupDeeplink env userID chatID) := by
  unfold issueStartgroupDeeplink
  split
  · exact h.keeps_call trivial
  · split
    · exact Keeps.pure
    · refine Keeps.bind (keeps_query fun w hw => hregisters w _ (.issueToken ..) hw) fun r => ?_
      cases r with
      | error e => exact Keeps.pure
      | ok _ => exact h.keeps_call trivial

theorem Tolerates.keeps_handleStart (chatID : ℤ) (sender : TgUser) :
    Keeps I (handleStart env chatID sender) := by
  refine Keeps.bind (keeps_query fun w hw => hregisters w _ (.upsertOnStart ..) hw) fun r => ?_
  cases r with
  | error e => exact Keeps.pure
  | ok user =>
      dsimp only
      split
      · exact h.keeps_call trivial
      · split
        · exact h.keeps_call trivial
        · exact h.keeps_issueStartgroupDeeplink hregisters _ _

omit h in
theorem keeps_agreeingUser (sender : TgUser) : Keeps I (agreeingUser env sender) := by
  refine Keeps.bind keeps_select fun r => ?_
  split
  · exact keeps_query fun w hw => hregisters w _ (.upsertOnStart ..) hw
  · exact Keeps.pure

theorem Tolerates.keeps_handleAgree (chatID : ℤ) (sender : TgUser) :
    Keeps I (handleAgree env chatID sender) := by
  refine Keeps.bind (keeps_agreeingUser hregisters sender) fun r => ?_
  cases r with
  | error e => exact Keeps.pure
  | ok user =>
      refine Keeps.bind (keeps_query fun w hw => hregisters w _ (.markAgreed ..) hw) fun r => ?_
      cases r with
      | error e => exact Keeps.pure
      | ok transitioned =>
          dsimp only
          split
          · exact Keeps.bind (h.keeps_call trivial)
              fun _ => h.keeps_issueStartgroupDeeplink hregisters _ _
          · exact h.keeps_issueStartgroupDeeplink hregisters _ _

theorem Tolerates.keeps_startHandle (u : Update) : Keeps I (startHandle env u) := by
  unfold startHandle
  split
  · exact Keeps.pure
  · split
    · exact Keeps.pure
    · dsimp only
      split
      · exact Keeps.bind (h.keeps_handleStart hregisters _ _) fun _ => Keeps.pure
      · split
        · exact Keeps.bind (h.keeps_handleAgree hregisters _ _) fun _ => Keeps.pure
        · exact Keeps.pure

end Registers

theorem keeps_tryHandlers {handlers : List (BotM Bool)} (h : ∀ x ∈ handlers, Keeps I x) :
    Keeps I (tryHandlers handlers) := by
  induction handlers with
  | nil => exact Keeps.pure
  | cons x rest ih =>
      refine Keeps.bind (h x (List.mem_cons_self ..)) fun handled => ?_
      split
      · exact ih fun y hy => h y (List.mem_cons_of_mem _ hy)
      · exact Keeps.pure

end Keeps

theorem run_tryHandlers_cons (x : BotM Bool) (rest : List (BotM Bool)) (w : World) :
    (tryHandlers (x :: rest)).run w =
      if (x.run w).1 then ((), (x.run w).2) else (tryHandlers rest).run (x.run w).2 := by
  rw [tryHandlers, run_bind]
  cases (x.run w).1 <;> rfl

theorem tryHandlers_passed (rest : List (BotM Bool)) :
    tryHandlers (pure false :: rest) = tryHandlers rest := by
  rw [tryHandlers, pure_bind]
  rfl

/-! ### Redeeming a token -/

/-- The user and the chat an update links: a valid token, both statements
succeed and the user is not anonymized. -/
def redeems (db : Database) (env : BotEnv) (u : Update) : Option (ℤ × ℤ) :=
  match startgroupToken u with
  | none => none
  | some (chatID, token) =>
      if env.fails .consumeToken || env.fails .linkSupergroup then none
      else
        match (db.consumeToken env.now token).1 with
        | .error _ => none
        | .ok userID =>
            if db.users.rows.any fun u => u.id = userID && u.status ≠ .anonymized then
              some (userID, chatID)
            else none

theorem redeems_eq_some {db : Database} {env : BotEnv} {u : Update} {userID chatID : ℤ} :
    redeems db env u = some (userID, chatID) ↔
      ∃ token, startgroupToken u = some (chatID, token) ∧ env.fails .consumeToken = false ∧
        env.fails .linkSupergroup = false ∧ (db.consumeToken env.now token).1 = .ok userID ∧
        ∃ user ∈ db.users.rows, user.id = userID ∧ user.status ≠ .anonymized := by
  unfold redeems
  constructor
  · intro h
    split at h
    · cases h
    next chatID' token htoken =>
      split at h
      · cases h
      next hfails =>
        simp only [Bool.or_eq_true, not_or, Bool.not_eq_true] at hfails
        split at h
        · cases h
        next id hconsume =>
          split at h
          · next hany =>
              obtain ⟨rfl, rfl⟩ := Prod.mk.inj (Option.some.inj h)
              exact ⟨token, htoken, hfails.1, hfails.2, hconsume, by simpa using hany⟩
          · cases h
  · rintro ⟨token, htoken, hconsumes, hlinks, hconsume, huser⟩
    have hany : (db.users.rows.any fun u => u.id = userID && u.status ≠ .anonymized) = true := by
      simpa using huser
    simp only [htoken, hconsumes, hlinks, hconsume, hany, Bool.or_self, Bool.false_eq_true,
      if_false, if_true]

theorem users_consumeToken (db : Database) (now : Time) (token : String) :
    (db.consumeToken now token).2.users = db.users := by
  unfold Database.consumeToken
  split
  · rfl
  · dsimp only
    split <;> rfl

/-- An `UPDATE` of no row. -/
theorem Database.updateUsers_eq_self {db : Database} {p : UserRow → Bool} {f : UserRow → UserRow}
    {hid : ∀ u, (f u).id = u.id} {htg : ∀ u, (f u).telegramID = u.telegramID}
    (h : ∀ u ∈ db.users.rows, p u = false) : db.updateUsers p f hid htg = db := by
  have hrows : db.users.rows.map (fun u => if p u then f u else u) = db.users.rows := by
    conv_rhs => rw [← List.map_id db.users.rows]
    exact List.map_congr_left fun u hu => by simp [h u hu]
  obtain ⟨⟨rows, hnodup⟩, htg', seq, subs, topics, tokens, apps⟩ := db
  simp only [Database.updateUsers, Table.modify, Database.mk.injEq, Table.mk.injEq, and_true]
  exact hrows

/-- **Startgroup.** The token is deleted, and the user it redeems is linked. -/
theorem Tolerates.triple_startgroupHandle {I : World → Prop} {Good : BotCall → Prop} {env : BotEnv}
    {u : Update} {w : World} (h : Tolerates I Good) (hw : I w)
    (hplain : ∀ chatID token, startgroupToken u = some (chatID, token) → SendsPlain Good chatID)
    (hconsume : ∀ token, I (w.setDb (w.db.consumeToken env.now token).2))
    (hlink : ∀ token userID chatID, redeems w.db env u = some (userID, chatID) →
      I (w.setDb ((w.db.consumeToken env.now token).2.linkSupergroup userID chatID))) :
    Triple (fun s => s = w) (startgroupHandle env u) fun _ => I := by
  unfold startgroupHandle
  split
  · exact Triple.pure fun s hs => hs ▸ hw
  next chatID token htoken =>
    have hsend := hplain chatID token htoken
    have hquery : Triple (fun s => s = w)
        (query env .consumeToken fun db => db.consumeToken env.now token)
        fun r s => I s ∧ ∀ userID, r = .ok userID → env.fails .linkSupergroup = false →
          I (s.setDb (s.db.linkSupergroup userID chatID)) := by
      unfold query
      split
      · exact Triple.pure fun s hs => ⟨hs ▸ hw, by simp⟩
      next hfails =>
        rintro s rfl
        refine ⟨hconsume token, fun userID hr hlinks => ?_⟩
        have hok : (s.db.consumeToken env.now token).1 = .ok userID := hr
        by_cases huser : ∃ user ∈ s.db.users.rows, user.id = userID ∧ user.status ≠ .anonymized
        · exact hlink token userID chatID (redeems_eq_some.mpr
            ⟨token, htoken, by simpa using hfails, hlinks, hok, huser⟩)
        · -- nobody to link: the statement updates no row
          have hnobody : (s.db.consumeToken env.now token).2.linkSupergroup userID chatID =
              (s.db.consumeToken env.now token).2 := by
            refine Database.updateUsers_eq_self fun u hu => ?_
            rw [users_consumeToken] at hu
            exact Bool.eq_false_iff.mpr fun h => huser ⟨u, hu, by simpa using h⟩
          have hdone := hconsume token
          rw [← hnobody] at hdone
          exact hdone
    refine Triple.bind hquery fun r => ?_
    split
    iterate 2
      refine Triple.weaken (P := I) (Q := fun _ => I) ?_ (fun _ h => h.1) fun _ _ h => h
      refine Keeps.bind (h.keeps_call (hsend _ ?_)) fun _ => Keeps.pure
      exact .append_literal (plain_literal (by decide)) (endsOutside_literal rfl) (by decide)
    · exact Triple.pure fun _ h => h.1
    next userID =>
      have hexec : Triple (fun s => I s ∧ ∀ id, Except.ok (ε := RegistryErr) userID = .ok id →
          env.fails .linkSupergroup = false → I (s.setDb (s.db.linkSupergroup id chatID)))
          (exec env .linkSupergroup fun db => db.linkSupergroup userID chatID) fun _ => I := by
        unfold exec query
        split
        · exact Triple.pure fun _ h => h.1
        next hfails => exact fun s h => h.2 userID rfl (by simpa using hfails)
      refine Triple.bind hexec fun r => ?_
      cases r with
      | error e => exact Keeps.pure
      | ok _ =>
          refine Keeps.bind (h.keeps_call (hsend _ ?_)) fun _ => Keeps.pure
          -- five lines, each of which ends in no digit
          refine .append_literal (.append_literal (.append_literal (.append_literal
            (plain_literal ?_) (endsOutside_literal rfl) ?_) (endsOutside_append_literal rfl) ?_)
            (endsOutside_append_literal rfl) ?_) (endsOutside_append_literal rfl) ?_
          all_goals decide

theorem db_startgroupHandle {env : BotEnv} {u : Update} {w : World} {userID chatID : ℤ}
    (h : redeems w.db env u = some (userID, chatID)) :
    ∃ token, startgroupToken u = some (chatID, token) ∧
      ((startgroupHandle env u).run w).2.db =
        (w.db.consumeToken env.now token).2.linkSupergroup userID chatID := by
  obtain ⟨token, htoken, hconsumes, hlinks, hconsume, -⟩ := redeems_eq_some.mp h
  refine ⟨token, htoken, ?_⟩
  simp only [startgroupHandle, htoken, run_bind, run_query, exec, hconsumes, hlinks, hconsume,
    Bool.false_eq_true, if_false, sendMessage, run_call, run_pure]

/-- The handler takes every message it finds a token in. -/
theorem run_dispatchUpdate_of_startgroup {env : BotEnv} {u : Update} {p : ℤ × String}
    (h : startgroupToken u = some p) (w : World) :
    ((dispatchUpdate env u).run w).2 = ((startgroupHandle env u).run w).2 := by
  have htaken : ((startgroupHandle env u).run w).1 = true := by
    simp only [startgroupHandle, h, run_bind]
    split
    · rfl
    · rfl
    · rfl
    · rw [run_bind]
      split <;> rfl
  rw [dispatchUpdate, run_tryHandlers_cons, if_pos htaken]

theorem dispatchUpdate_of_startgroupToken {env : BotEnv} {u : Update}
    (h : startgroupToken u = none) :
    dispatchUpdate env u = tryHandlers [promoteHandle env u, intrusionHandle env u,
      appsHandle env u, startHandle env u] := by
  have hnot : startgroupHandle env u = pure false := by simp [startgroupHandle, h]
  rw [dispatchUpdate, hnot, tryHandlers_passed]

section Members

variable {env : BotEnv} {u : Update}

theorem promoteHandle_taken {n : ChatMemberUpdated} (h : u.myChatMember = some n) (w : World) :
    ((promoteHandle env u).run w).1 = true := by
  have htaken : Triple (fun _ => True) (promoteHandle env u) fun r _ => r = true := by
    unfold promoteHandle
    simp only [h]
    split
    · exact Triple.pure fun _ _ => rfl
    refine Triple.after fun r => ?_
    cases r with
    | error e => exact Triple.pure fun _ _ => rfl
    | ok userID =>
        dsimp only
        split
        · split
          · exact Triple.after fun _ => Triple.after fun _ => Triple.pure fun _ _ => rfl
          · refine Triple.after fun r => ?_
            cases r with
            | error e => exact Triple.pure fun _ _ => rfl
            | ok _ => exact Triple.after fun _ => Triple.after fun _ => Triple.pure fun _ _ => rfl
        all_goals first
          | exact Triple.pure fun _ _ => rfl
          | exact Triple.after fun _ => Triple.pure fun _ _ => rfl
  exact htaken w trivial

theorem intrusionHandle_taken {n : ChatMemberUpdated} (h : u.chatMember = some n) (w : World) :
    ((intrusionHandle env u).run w).1 = true := by
  have htaken : Triple (fun _ => True) (intrusionHandle env u) fun r _ => r = true := by
    unfold intrusionHandle
    simp only [h]
    split
    · exact Triple.pure fun _ _ => rfl
    refine Triple.after fun r => ?_
    cases r with
    | error e => exact Triple.pure fun _ _ => rfl
    | ok userID =>
        dsimp only
        split
        · exact Triple.pure fun _ _ => rfl
        split
        · exact Triple.pure fun _ _ => rfl
        split
        · exact Triple.pure fun _ _ => rfl
        refine Triple.after fun _ => ?_
        split <;> exact Triple.after fun _ => Triple.pure fun _ _ => rfl
  exact htaken w trivial

theorem promoteHandle_passed (h : u.myChatMember = none) : promoteHandle env u = pure false := by
  simp only [promoteHandle, h]

theorem intrusionHandle_passed (h : u.chatMember = none) : intrusionHandle env u = pure false := by
  simp only [intrusionHandle, h]

theorem run_dispatchUpdate_of_promote {n : ChatMemberUpdated} (htoken : startgroupToken u = none)
    (h : u.myChatMember = some n) (w : World) :
    ((dispatchUpdate env u).run w).2 = ((promoteHandle env u).run w).2 := by
  rw [dispatchUpdate_of_startgroupToken htoken, run_tryHandlers_cons,
    if_pos (promoteHandle_taken h w)]

end Members

end TelegramServer.Bot

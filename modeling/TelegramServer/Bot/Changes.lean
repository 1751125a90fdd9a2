import TelegramServer.Bot.Effects
import TelegramServer.Lib.Runs

/-!
What the bot and the operators can do to the registry, said once. Each of their
operations is made of three kinds of change: it lets links or topic rows go
(`Shrinks`), it stores a topic that was just created in the group its user is
linked to, or it redeems a token, which links a user to a group. An invariant that
respects the three holds in every state of a run (`Respects.run`).

Inside a handler the second kind needs more than `Shrinks` gives: between reading
the link of a user and storing the topic no statement may have removed the link.
That is what `Quiet` adds.
-/

namespace TelegramServer.Bot

open Go Lib Registry Dispatch

/-! ### The changes to links and topics -/

structure Shrinks (w w' : World) : Prop where
  linked : ∀ {userID chatID}, LinkedTo w'.db userID chatID → LinkedTo w.db userID chatID
  topics : w'.db.topics.rows ⊆ w.db.topics.rows
  calls : w.calls ⊆ w'.calls

structure Quiet (w w' : World) : Prop extends Shrinks w w' where
  stays : ∀ {userID chatID}, LinkedTo w.db userID chatID → LinkedTo w'.db userID chatID

inductive Change (w : World) : World → Prop
  | quiet {w' : World} (h : Quiet w w') : Change w w'
  | topic {userID chatID topicID : ℤ} {appID : String} (hlinked : LinkedTo w.db userID chatID)
      (hcreated : CreatedIn w.calls chatID topicID) :
      Change w (w.setDb (w.db.addTopic userID appID topicID).2)

def Closed (I : World → Prop) : Prop := ∀ w w', Change w w' → I w → I w'

theorem mem_addTopic {db : Database} {userID topicID : ℤ} {appID : String} {t : UserTopic}
    (h : t ∈ (db.addTopic userID appID topicID).2.topics.rows) :
    t ∈ db.topics.rows ∨ t = ⟨userID, appID, topicID⟩ := by
  unfold Database.addTopic at h
  split at h
  · exact Table.mem_insert h
  · exact .inl h

/-! ### The statements -/

/-- A statement that leaves every link in place and adds no topic. -/
structure QuietDb (db db' : Database) : Prop where
  linked : ∀ {userID chatID}, LinkedTo db' userID chatID ↔ LinkedTo db userID chatID
  topics : db'.topics.rows ⊆ db.topics.rows

theorem QuietDb.quiet {w : World} {db : Database} (h : QuietDb w.db db) : Quiet w (w.setDb db) where
  linked := h.linked.mp
  topics := h.topics
  calls := fun _ hc => hc
  stays := h.linked.mpr

theorem QuietDb.of_users_eq {db db' : Database} (hu : db'.users = db.users)
    (ht : db'.topics.rows ⊆ db.topics.rows) : QuietDb db db' :=
  ⟨by simp [LinkedTo, hu], ht⟩

/-- An `UPDATE users`, seen as a map over the rows. -/
theorem linkedTo_update {db db' : Database} {g : UserRow → UserRow}
    (hrows : db'.users.rows = db.users.rows.map g) (hid : ∀ u, (g u).id = u.id)
    {userID chatID : ℤ} :
    LinkedTo db' userID chatID ↔ ∃ u ∈ db.users.rows, u.id = userID ∧
      (g u).personalSupergroupChatID = some chatID := by
  simp only [LinkedTo, hrows, List.mem_map]
  constructor
  · rintro ⟨_, ⟨u, hu, rfl⟩, huser, hchat⟩
    exact ⟨u, hu, hid u ▸ huser, hchat⟩
  · rintro ⟨u, hu, huser, hchat⟩
    exact ⟨g u, ⟨u, hu, rfl⟩, (hid u).trans huser, hchat⟩

theorem QuietDb.of_update {db db' : Database} {g : UserRow → UserRow}
    (hrows : db'.users.rows = db.users.rows.map g) (hid : ∀ u, (g u).id = u.id)
    (hchat : ∀ u, (g u).personalSupergroupChatID = u.personalSupergroupChatID)
    (ht : db'.topics = db.topics) : QuietDb db db' where
  linked := by
    intro userID chatID
    rw [linkedTo_update hrows hid]
    simp [hchat, LinkedTo]
  topics := by simp [ht]

theorem quietDb_upsertOnStart (db : Database) (telegramID : ℤ) (username lang : String) :
    QuietDb db (db.upsertOnStart telegramID username lang).2 := by
  unfold Database.upsertOnStart
  dsimp only
  split
  · exact .of_update rfl (fun u => by split <;> rfl) (fun u => by split <;> rfl) rfl
  · split
    · exact .of_users_eq rfl fun _ ht => ht
    · -- the new user has no group yet
      refine ⟨?_, fun _ ht => ht⟩
      intro userID chatID
      simp only [LinkedTo, List.mem_append, List.mem_singleton]
      constructor
      · rintro ⟨u, hu | rfl, hid, hchat⟩
        · exact ⟨u, hu, hid, hchat⟩
        · simp at hchat
      · rintro ⟨u, hu, hid, hchat⟩
        exact ⟨u, .inl hu, hid, hchat⟩

theorem quietDb_markAgreed (db : Database) (now : Time) (userID : ℤ) :
    QuietDb db (db.markAgreed now userID).2 :=
  .of_update rfl (fun u => by split <;> rfl) (fun u => by split <;> rfl) rfl

theorem quietDb_issueToken (db : Database) (now : Time) (token : String) (userID ttl : ℤ) :
    QuietDb db (db.issueToken now token userID ttl).2 := by
  unfold Database.issueToken
  split <;> exact .of_users_eq rfl fun _ ht => ht

theorem topics_consumeToken (db : Database) (now : Time) (token : String) :
    (db.consumeToken now token).2.topics = db.topics := by
  unfold Database.consumeToken
  split
  · rfl
  · dsimp only
    split <;> rfl

theorem quietDb_addSubscription (db : Database) (userID : ℤ) (appID : String) :
    QuietDb db (db.addSubscription userID appID).2 := by
  unfold Database.addSubscription
  split <;> exact .of_users_eq rfl fun _ ht => ht

theorem quietDb_setBotIsAdmin (db : Database) (userID : ℤ) (isAdmin : Bool) :
    QuietDb db (db.setBotIsAdmin userID isAdmin) :=
  .of_update rfl (fun u => by split <;> rfl) (fun u => by split <;> rfl) rfl

theorem Subscribes.quietDb {db db' : Database} (h : Subscribes db db') : QuietDb db db' := by
  refine .of_users_eq h.users_eq ?_
  cases h with
  | add userID appID => exact (quietDb_addSubscription db userID appID).topics
  | remove userID appID => exact fun _ ht => ht
  | removeTopic userID appID => exact fun _ ht => List.mem_of_mem_filter ht

theorem Registers.quietDb {db db' : Database} (h : Registers db db') : QuietDb db db' := by
  cases h with
  | upsertOnStart telegramID username preferredLang =>
      exact quietDb_upsertOnStart db telegramID username preferredLang
  | markAgreed now userID => exact quietDb_markAgreed db now userID
  | issueToken now token userID ttl => exact quietDb_issueToken db now token userID ttl

/-! ### The handlers -/

theorem Closed.quiet {I : World → Prop} (hI : Closed I) {w : World} {db : Database}
    (h : QuietDb w.db db) (hw : I w) : I (w.setDb db) := hI w _ (.quiet h.quiet) hw

theorem Closed.tolerates {I : World → Prop} (hI : Closed I) : Tolerates I fun _ => True where
  call := by
    intro w c _ hw
    refine hI w _ (.quiet ⟨⟨fun h => h, fun _ ht => ht, ?_⟩, fun h => h⟩) hw
    exact fun c' hc' => List.mem_append_left _ hc'
  silent := fun _ _ => trivial
  topic := fun hlinked hcreated hw => hI _ _ (.topic hlinked hcreated) hw

/-! ### Redeeming a token -/

theorem linkedTo_linkSupergroup {db : Database} {userID chatID id c : ℤ} :
    LinkedTo (db.linkSupergroup userID chatID) id c ↔
      ∃ u ∈ db.users.rows, u.id = id ∧
        if u.id = userID ∧ u.status ≠ .anonymized then chatID = c
        else u.personalSupergroupChatID = some c := by
  rw [linkedTo_update rfl fun u => by split <;> rfl]
  refine exists_congr fun u => and_congr_right fun _ => and_congr_right fun _ => ?_
  by_cases hu : u.id = userID ∧ u.status ≠ .anonymized <;> simp [hu]

theorem quietDb_consumeToken (db : Database) (now : Time) (token : String) :
    QuietDb db (db.consumeToken now token).2 :=
  .of_users_eq (users_consumeToken db now token)
    fun _ ht => by rwa [topics_consumeToken] at ht

/-- Whether the token is deleted before or after the link makes no difference. -/
theorem quietDb_link_consumed (db : Database) (now : Time) (token : String) (userID chatID : ℤ) :
    QuietDb (db.linkSupergroup userID chatID)
      ((db.consumeToken now token).2.linkSupergroup userID chatID) :=
  .of_users_eq (by simp [Database.linkSupergroup, Database.updateUsers, users_consumeToken])
    fun _ ht => by
      simpa [Database.linkSupergroup, Database.updateUsers, topics_consumeToken] using ht

/-- **One update.** It keeps what its changes keep, and links a user only by a
token it redeems. -/
theorem dispatchUpdate_preserves {I : World → Prop} {env : BotEnv} {u : Update} {w : World}
    (hI : Closed I) (hw : I w)
    (hlink : ∀ userID chatID, redeems w.db env u = some (userID, chatID) →
      I (w.setDb (w.db.linkSupergroup userID chatID))) :
    I ((dispatchUpdate env u).run w).2 := by
  have hT := hI.tolerates
  have hrest : Keeps I (tryHandlers [promoteHandle env u, intrusionHandle env u,
      appsHandle env u, startHandle env u]) := by
    refine keeps_tryHandlers fun x hx => ?_
    simp only [List.mem_cons, List.not_mem_nil, or_false] at hx
    obtain rfl | rfl | rfl | rfl := hx
    · exact hT.keeps_promoteHandle (fun _ _ _ _ => trivial)
        (fun _ _ _ _ _ _ _ => hT.keeps_call trivial)
        fun _ userID isAdmin w _ _ hw => hI.quiet (quietDb_setBotIsAdmin w.db userID isAdmin) hw
    · exact hT.keeps_intrusionHandle u
    · exact hT.keeps_appsHandle (fun _ _ h hw => hI.quiet h.quietDb hw)
        (fun _ _ _ _ _ => trivial) (fun _ _ _ _ _ _ => trivial)
        fun _ _ _ _ _ _ _ _ _ _ _ _ _ _ _ _ => trivial
    · exact hT.keeps_startHandle (fun _ _ h hw => hI.quiet h.quietDb hw) u
  have hstartgroup : Triple (fun s => s = w) (startgroupHandle env u) fun _ => I := by
    refine hT.triple_startgroupHandle hw (fun _ _ _ _ _ => trivial)
      (fun token => hI.quiet (quietDb_consumeToken w.db env.now token) hw) ?_
    intro token userID chatID hredeem
    exact hI.quiet (w := w.setDb (w.db.linkSupergroup userID chatID))
      (quietDb_link_consumed w.db env.now token userID chatID) (hlink userID chatID hredeem)
  have hall : Triple (fun s => s = w) (dispatchUpdate env u) fun _ => I := by
    refine Triple.bind hstartgroup fun handled => ?_
    split
    · exact hrest
    · exact Keeps.pure
  exact hall w rfl

/-! ### Runs -/

/-- One operation of the bot or of an operator. -/
inductive Op
  | update (env : BotEnv) (u : Update)
  | issueToken (now : Time) (token : String) (userID ttl : ℤ)
  | resetLink (userID : ℤ)
  | anonymize (userID : ℤ)
  | adminSubscribe (telegramID : ℤ) (appID : String)
  | adminUnsubscribe (telegramID : ℤ) (appID : String)

/-- `AdminSubscriptionsHandler.Subscribe`: the app is active and the user known. -/
def adminSubscribe (db : Database) (telegramID : ℤ) (appID : String) : Database :=
  match db.apps.find? appID, db.userByTelegramID telegramID with
  | some app, some user => if app.active then (db.addSubscription user.id appID).2 else db
  | _, _ => db

/-- `AdminSubscriptionsHandler.Unsubscribe`. -/
def adminUnsubscribe (db : Database) (telegramID : ℤ) (appID : String) : Database :=
  match db.userByTelegramID telegramID with
  | some user => db.removeSubscription user.id appID
  | none => db

def opStep (w : World) : Op → Option World
  | .update env u => some ((dispatchUpdate env u).run w).2
  | .issueToken now token userID ttl => some (w.setDb (w.db.issueToken now token userID ttl).2)
  | .resetLink userID => some (w.setDb (w.db.resetLink userID))
  | .anonymize userID => some (w.setDb (w.db.anonymize userID))
  | .adminSubscribe telegramID appID => some (w.setDb (adminSubscribe w.db telegramID appID))
  | .adminUnsubscribe telegramID appID => some (w.setDb (adminUnsubscribe w.db telegramID appID))

theorem quietDb_adminSubscribe (db : Database) (telegramID : ℤ) (appID : String) :
    QuietDb db (adminSubscribe db telegramID appID) := by
  unfold adminSubscribe
  split
  · split
    · exact quietDb_addSubscription db _ appID
    · exact .of_users_eq rfl fun _ ht => ht
  · exact .of_users_eq rfl fun _ ht => ht

theorem quietDb_adminUnsubscribe (db : Database) (telegramID : ℤ) (appID : String) :
    QuietDb db (adminUnsubscribe db telegramID appID) := by
  unfold adminUnsubscribe
  split <;> exact .of_users_eq rfl fun _ ht => ht

theorem shrinks_update {w : World} {db : Database} {g : UserRow → UserRow}
    (hrows : db.users.rows = w.db.users.rows.map g) (hid : ∀ u, (g u).id = u.id)
    (hchat : ∀ u, (g u).personalSupergroupChatID = none ∨ g u = u)
    (ht : db.topics = w.db.topics) : Shrinks w (w.setDb db) where
  linked := by
    intro userID chatID h
    obtain ⟨u, hu, huser, hlink⟩ := (linkedTo_update hrows hid).mp h
    obtain hnone | hsame := hchat u
    · simp [hnone] at hlink
    · exact ⟨u, hu, huser, hsame ▸ hlink⟩
  topics := by simp [World.setDb, ht]
  calls := fun _ hc => hc

/-- A condition on an operation: a token is redeemed only by a user and in a chat
with `R`. -/
def RedeemsOnly (R : World → ℤ → ℤ → Prop) (w : World) : Op → Prop
  | .update env u => ∀ p ∈ redeems w.db env u, R w p.1 p.2
  | _ => True

instance (R : World → ℤ → ℤ → Prop) [∀ w userID chatID, Decidable (R w userID chatID)]
    (w : World) (op : Op) : Decidable (RedeemsOnly R w op) := by
  cases op <;> unfold RedeemsOnly <;> infer_instance

/-- The invariant is kept by each kind of change, by a link only where `R`. -/
structure Respects (R : World → ℤ → ℤ → Prop) (I : World → Prop) : Prop where
  shrinks : ∀ {w w'}, Shrinks w w' → I w → I w'
  topic : ∀ {w : World} {userID chatID topicID : ℤ} {appID : String},
    LinkedTo w.db userID chatID → CreatedIn w.calls chatID topicID → I w →
    I (w.setDb (w.db.addTopic userID appID topicID).2)
  link : ∀ {w : World} {userID chatID : ℤ}, R w userID chatID → I w →
    I (w.setDb (w.db.linkSupergroup userID chatID))

theorem Respects.closed {R : World → ℤ → ℤ → Prop} {I : World → Prop} (h : Respects R I) :
    Closed I := by
  intro w w' hchange hw
  cases hchange with
  | quiet hq => exact h.shrinks hq.toShrinks hw
  | topic hlinked hcreated => exact h.topic hlinked hcreated hw

theorem Respects.opStep {R : World → ℤ → ℤ → Prop} {I : World → Prop} (h : Respects R I)
    {w w' : World} {op : Op} (hw : I w) (hR : RedeemsOnly R w op)
    (hstep : opStep w op = some w') : I w' := by
  cases op with
  | update env u =>
      cases hstep
      exact dispatchUpdate_preserves h.closed hw fun _ _ hredeem => h.link (hR _ hredeem) hw
  | issueToken now token userID ttl =>
      cases hstep
      exact h.shrinks (quietDb_issueToken w.db now token userID ttl).quiet.toShrinks hw
  | resetLink userID =>
      cases hstep
      exact h.shrinks (shrinks_update rfl (fun u => by split <;> rfl)
        (fun u => by split <;> simp) rfl) hw
  | anonymize userID =>
      cases hstep
      exact h.shrinks (shrinks_update rfl (fun u => by split <;> rfl)
        (fun u => by split <;> simp) rfl) hw
  | adminSubscribe telegramID appID =>
      cases hstep
      exact h.shrinks (quietDb_adminSubscribe w.db telegramID appID).quiet.toShrinks hw
  | adminUnsubscribe telegramID appID =>
      cases hstep
      exact h.shrinks (quietDb_adminUnsubscribe w.db telegramID appID).quiet.toShrinks hw

/-- **Runs.** An invariant that respects the changes holds after every run whose
updates meet the condition. -/
theorem Respects.run {R : World → ℤ → ℤ → Prop} {I : World → Prop} (h : Respects R I)
    {w w' : World} {ops : List Op} (hw : I w) (hg : Guarded Bot.opStep (RedeemsOnly R) w ops)
    (hrun : Lib.run Bot.opStep w ops = some w') : I w' :=
  run_invariant_of_guarded (fun _ _ _ hI hR hstep => h.opStep hI hR hstep) hw hg hrun

end TelegramServer.Bot

import TelegramServer.Bot.Agreement

/-!
The intrusion defence. A personal supergroup has two members, its owner and the
bot, and `IntrusionHandler` bans whoever else joins. Neither of the two is known
to the handler for certain: the bot's own id is missing when `GetMe` failed at
start-up, and the owner is told from others by nothing but a status above
`member`.
-/

namespace TelegramServer.Bot

open Go Lib Registry

/-- The setting after start-up: `main` sets the bot's id only if `GetMe` succeeds. -/
def BotEnv.started (env : BotEnv) (self : ℤ) (getMe : Bool) : BotEnv :=
  { env with botID := if getMe then self else 0 }

/-- What the handler asks of Telegram and writes to the audit log in one update. -/
def intrusionCalls (env : BotEnv) (db : Database) (u : Update) : List BotCall :=
  ((intrusionHandle env u).run ⟨db, []⟩).2.calls

/-- The update reports that the user was let into the group, with a status below
administrator. -/
def Joins (u : Update) (chatID userID : ℤ) : Prop :=
  ∃ m member, u.chatMember = some m ∧ m.newChatMember = some member ∧
    m.chat.isGroup = true ∧ m.chat.id = chatID ∧ member.userID = userID ∧
    (member.state = .member ∨ member.state = .restricted)

/-- The handler finds an owner of the group. -/
def Watched (env : BotEnv) (db : Database) (chatID : ℤ) : Prop :=
  env.fails .findUserByChatID = false ∧ ∃ ownerID, LinkedTo db ownerID chatID

/-- Nobody is banned who is the bot or the user the group belongs to. -/
def Spares (self : ℤ) (db : Database) (calls : List BotCall) : Prop :=
  ∀ chatID userID ok, .banChatMember chatID userID ok ∈ calls →
    userID ≠ self ∧ ∀ owner ∈ db.users.rows,
      owner.personalSupergroupChatID = some chatID → userID ≠ owner.telegramID

section

variable {env : BotEnv} {db : Database} {u : Update} {chatID userID : ℤ}

theorem ban_of_joins (hjoins : Joins u chatID userID) (hwatched : Watched env db chatID)
    (hother : env.botID ≠ 0 → userID ≠ env.botID) :
    .banChatMember chatID userID env.banErr.isNone ∈ intrusionCalls env db u := by
  obtain ⟨m, member, hm, hnew, hgroup, rfl, rfl, hstate⟩ := hjoins
  obtain ⟨hfails, ownerID, howner⟩ := hwatched
  have hnotBot : ¬(env.botID ≠ 0 ∧ member.userID = env.botID) := fun h => hother h.1 h.2
  have hjoined : ¬(member.state ≠ .member ∧ member.state ≠ .restricted) :=
    fun h => hstate.elim h.1 h.2
  cases hfind : db.findUserByChatID env.planner m.chat.id with
  | error e => exact absurd howner (not_linkedTo_of_findUserByChatID hfind ownerID)
  | ok found =>
      simp only [intrusionCalls, intrusionHandle, hm, hnew, hgroup, Bool.not_true,
        Bool.false_eq_true, if_false, run_bind, run_select, hfails, hfind, hnotBot, hjoined,
        run_call, List.nil_append]
      cases env.banErr <;> simp only [run_bind, run_call, run_pure] <;> simp

/-- Whoever the handler bans has just joined a group with an owner. -/
theorem triple_intrusionHandle (env : BotEnv) (db : Database) (u : Update) :
    Triple (fun w => w = ⟨db, []⟩) (intrusionHandle env u) fun _ w =>
      ∀ chatID userID ok, .banChatMember chatID userID ok ∈ w.calls →
        Joins u chatID userID ∧ Watched env db chatID ∧
          (env.botID ≠ 0 → userID ≠ env.botID) := by
  have hnothing {Q : ℤ → ℤ → Prop} {w : World} (hw : w = ⟨db, []⟩) :
      ∀ chatID userID ok, .banChatMember chatID userID ok ∈ w.calls → Q chatID userID := by
    simp [hw]
  unfold intrusionHandle
  split
  · exact Triple.pure fun w hw => hnothing hw
  next m hm =>
    split
    · exact Triple.pure fun w hw => hnothing hw
    next hgroup =>
      refine Triple.bind (R := fun r w =>
        (∀ ownerID, r = .ok ownerID → Watched env db m.chat.id) ∧ w = ⟨db, []⟩) ?_ fun r => ?_
      · rintro w rfl
        rw [run_select]
        refine ⟨fun ownerID hr => ?_, rfl⟩
        dsimp only at hr
        split at hr
        · cases hr
        next hfails =>
          exact ⟨by simpa using hfails, ownerID, linkedTo_of_findUserByChatID hr⟩
      cases r with
      | error e => exact Triple.pure fun w hw => hnothing hw.2
      | ok ownerID =>
          dsimp only
          split
          · exact Triple.pure fun w hw => hnothing hw.2
          next member hnew =>
            split
            · exact Triple.pure fun w hw => hnothing hw.2
            next hnotBot =>
              split
              · exact Triple.pure fun w hw => hnothing hw.2
              next hjoined =>
                rintro w ⟨hwatched, rfl⟩ chatID userID ok hmem
                obtain ⟨rfl, rfl⟩ : chatID = m.chat.id ∧ userID = member.userID := by
                  cases hban : env.banErr <;>
                    simp only [hban, run_bind, run_call, run_pure] at hmem <;> simp at hmem
                  all_goals exact ⟨hmem.1, hmem.2.1⟩
                refine ⟨⟨m, member, hm, hnew, by simpa using hgroup, rfl, rfl, ?_⟩,
                  hwatched ownerID rfl, fun hbot heq => hnotBot ⟨hbot, heq⟩⟩
                by_contra hstate
                exact hjoined (not_or.mp hstate)

end

/-- The handler spares the bot and the owners of the group exactly when none of them
is reported as joining, the bot with a known id apart. -/
theorem intrusion_spares_iff (env : BotEnv) (self : ℤ) (getMe : Bool) (db : Database) (u : Update) :
    Spares self db (intrusionCalls (env.started self getMe) db u) ↔
      ∀ chatID userID, Joins u chatID userID → Watched env db chatID →
        (userID = self ∧ getMe = true ∧ self ≠ 0) ∨
          (userID ≠ self ∧ ∀ owner ∈ db.users.rows,
            owner.personalSupergroupChatID = some chatID → userID ≠ owner.telegramID) := by
  constructor
  · intro hspares chatID userID hjoins hwatched
    by_cases hbot : userID = self ∧ getMe = true ∧ self ≠ 0
    · exact .inl hbot
    · -- nothing keeps the handler from the ban
      refine .inr (hspares chatID userID _ (ban_of_joins hjoins hwatched fun hid heq => hbot ?_))
      cases getMe with
      | false => exact absurd rfl hid
      | true => exact ⟨heq, rfl, hid⟩
  · intro hcond chatID userID ok hban
    obtain ⟨hjoins, hwatched, hother⟩ := triple_intrusionHandle _ db u _ rfl chatID userID ok hban
    obtain ⟨heq, rfl, hne⟩ | hspared := hcond chatID userID hjoins hwatched
    · exact absurd heq (hother hne)
    · exact hspared

/-- The user joins the group as an ordinary member. -/
def joinedIn (chatID userID : ℤ) : Update :=
  { chatMember := some ⟨⟨chatID, .supergroup⟩, some ⟨userID, .member⟩⟩ }

/-- The row of a user who has been set up. -/
def owner : UserRow :=
  { id := 1, telegramID := 101, personalSupergroupChatID := some (-100), botIsAdmin := true }

def ownedGroup : Database :=
  { freshWorld.db with
    users := ⟨[owner], List.nodup_singleton _⟩, telegramID_nodup := List.nodup_singleton _ }

/-- The owner is banned from the group when they join it again, and so is the bot
when its id is not known. -/
theorem not_intrusion_spares :
    ¬Spares 7 ownedGroup (intrusionCalls (BotEnv.started {} 7 true) ownedGroup
        (joinedIn (-100) 101)) ∧
      ¬Spares 7 ownedGroup (intrusionCalls (BotEnv.started {} 7 false) ownedGroup
        (joinedIn (-100) 7)) := by
  have hban {getMe : Bool} {userID : ℤ} (h : getMe = true → userID ≠ 7) :
      .banChatMember (-100) userID true ∈ intrusionCalls (BotEnv.started {} 7 getMe) ownedGroup
        (joinedIn (-100) userID) := by
    refine ban_of_joins ⟨_, _, rfl, rfl, rfl, rfl, rfl, .inl rfl⟩
      ⟨rfl, 1, owner, List.mem_singleton.mpr rfl, rfl, rfl⟩ ?_
    cases getMe with
    | false => exact absurd rfl
    | true => exact fun _ => h rfl
  constructor
  · intro hspares
    exact (hspares _ _ _ (hban (by decide))).2 owner (List.mem_singleton.mpr rfl) rfl rfl
  · intro hspares
    exact (hspares _ _ _ (hban (by decide))).1 rfl

end TelegramServer.Bot

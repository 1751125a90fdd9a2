import TelegramServer.Audit.Event
import TelegramServer.Dispatch.Resolvers
import TelegramServer.Registry.Database

/-!
The Telegram bot: the poller of `internal/bot/poller.go`, the five handlers of
`internal/bot/handlers` in the order of `cmd/server/main.go`, and the topic
provisioner. Updates are handled one after the other.

A handler changes the database and calls Telegram; `World` is the database with
the log of those calls. Everything a handler does not decide itself is in its
`BotEnv`: the time, which statements fail, the answers of Telegram.
-/

namespace TelegramServer.Bot

open Go Lib Registry Dispatch Audit

/-! ### Updates -/

inductive ChatType
  | privateChat | group | supergroup | channel
  deriving DecidableEq

structure Chat where
  id : ℤ
  type : ChatType

def Chat.isGroup (c : Chat) : Bool := c.type = .group || c.type = .supergroup

structure TgUser where
  id : ℤ
  username : String := ""
  firstName : String := ""
  lastName : String := ""
  languageCode : String := ""

structure Message where
  chat : Chat
  sender : Option TgUser
  text : String

/-- `telego.ChatMember`, with the rights the promote handler reads. -/
inductive MemberState
  | creator
  | administrator (canPostMessages canPostStories canManageTopics canRestrictMembers : Bool)
  | member
  | restricted
  | left
  | kicked
  deriving DecidableEq

structure ChatMember where
  userID : ℤ
  state : MemberState

structure ChatMemberUpdated where
  chat : Chat
  newChatMember : Option ChatMember

structure Update where
  message : Option Message := none
  myChatMember : Option ChatMemberUpdated := none
  chatMember : Option ChatMemberUpdated := none

/-! ### The world of a handler -/

/-- The statements of the handlers. No update runs one of them twice. -/
inductive Stmt
  | upsertOnStart | getByTelegramID | markAgreed
  | issueToken | consumeToken | linkSupergroup | setBotIsAdmin | findUserByChatID
  | listMissingTopics | addTopic (appID : String) | getTopicID | removeTopic
  | appLookup | listApps | insertSubscription | deleteSubscription

structure BotEnv where
  now : Time := 0
  fails : Stmt → Bool := fun _ => false
  planner : Planner := .inOrder
  /-- The topic Telegram makes for an app, `none` if it refuses or answers nil. -/
  createForumTopic : String → Option ℤ := fun _ => none
  closeForumTopic : Bool := true
  /-- The error of `BanChatMember`. -/
  banErr : Option String := none
  /-- The random token, `none` if the source of randomness fails. -/
  newToken : Option String := none
  botUsername : String := ""
  botID : ℤ := 0
  tokenTTL : ℤ := 0
  /-- Go's `%q`. -/
  quote : String → String := id

inductive BotCall
  | sendMessage (chatID : ℤ) (text : String)
  | createForumTopic (chatID : ℤ) (name : String) (topicID : Option ℤ)
  | closeForumTopic (chatID topicID : ℤ) (ok : Bool)
  | banChatMember (chatID userID : ℤ) (ok : Bool)
  | audit (e : Event)

structure World where
  db : Database
  calls : List BotCall

abbrev BotM := StateM World

def query {α : Type} (env : BotEnv) (stmt : Stmt)
    (f : Database → Except RegistryErr α × Database) : BotM (Except RegistryErr α) :=
  if env.fails stmt then pure (.error .db)
  else modifyGet fun w => ((f w.db).1, { w with db := (f w.db).2 })

def select {α : Type} (env : BotEnv) (stmt : Stmt) (f : Database → Except RegistryErr α) :
    BotM (Except RegistryErr α) :=
  query env stmt fun db => (f db, db)

def exec (env : BotEnv) (stmt : Stmt) (f : Database → Database) : BotM (Except RegistryErr Unit) :=
  query env stmt fun db => (.ok (), f db)

def call (c : BotCall) : BotM Unit := modify fun w => { w with calls := w.calls ++ [c] }

def sendMessage (chatID : ℤ) (text : String) : BotM Unit := call (.sendMessage chatID text)

theorem run_query {α : Type} (env : BotEnv) (stmt : Stmt)
    (f : Database → Except RegistryErr α × Database) (w : World) :
    (query env stmt f).run w =
      if env.fails stmt then (.error .db, w) else ((f w.db).1, { w with db := (f w.db).2 }) := by
  unfold query
  split <;> rfl

theorem run_select {α : Type} (env : BotEnv) (stmt : Stmt)
    (f : Database → Except RegistryErr α) (w : World) :
    (select env stmt f).run w = (if env.fails stmt then .error .db else f w.db, w) := by
  rw [select, run_query]
  split <;> rfl

theorem run_call (c : BotCall) (w : World) :
    (call c).run w = ((), { w with calls := w.calls ++ [c] }) := rfl

/-! ### The topic provisioner -/

def ensureLoop (env : BotEnv) (userID chatID : ℤ) : List String → BotM (List String)
  | [] => return []
  | app :: rest => do
      call (.createForumTopic chatID app (env.createForumTopic app))
      match env.createForumTopic app with
      | none => ensureLoop env userID chatID rest
      | some topicID =>
          match ← query env (.addTopic app) fun db => db.addTopic userID app topicID with
          | .error _ => ensureLoop env userID chatID rest
          | .ok () =>
              let created ← ensureLoop env userID chatID rest
              return app :: created

def ensureForSubscribedApps (env : BotEnv) (userID chatID : ℤ) :
    BotM (Except RegistryErr (List String)) := do
  match ← select env .listMissingTopics fun db =>
      .ok (db.listSubscribedAppsWithoutTopic userID) with
  | .error e => return .error e
  | .ok apps =>
      let created ← ensureLoop env userID chatID apps
      return .ok created

/-- `TopicProvisioner.Close`. -/
def closeTopic (env : BotEnv) (userID chatID : ℤ) (appID : String) :
    BotM (Except RegistryErr Unit) := do
  match ← select env .getTopicID fun db => db.getTopicID userID appID with
  | .error e => return .error e
  | .ok topicID =>
      call (.closeForumTopic chatID topicID env.closeForumTopic)
      if env.closeForumTopic then exec env .removeTopic fun db => db.removeTopic userID appID
      else return .error .db

/-! ### The handlers -/

/-- The chat and the token of a group message `/start <token>`. -/
def startgroupToken (u : Update) : Option (ℤ × String) :=
  match u.message with
  | none => none
  | some m =>
      let text := trimSpace m.text
      let token := trimSpace (trimPrefix text "/start ")
      if m.chat.isGroup && hasPrefix text "/start " && token ≠ "" then some (m.chat.id, token)
      else none

/-- `StartgroupHandler.Handle`; the result says whether the poller stops here. -/
def startgroupHandle (env : BotEnv) (u : Update) : BotM Bool :=
  match startgroupToken u with
  | none => return false
  | some (chatID, token) => do
      match ← query env .consumeToken fun db => db.consumeToken env.now token with
      | .error .tokenNotFound | .error .tokenExpired =>
          sendMessage chatID ("잘못되었거나 만료된 초대 토큰입니다.\n" ++
            "개인 DM에서 /start 를 다시 입력해 새 링크를 받아주세요.")
          return true
      | .error _ => return true
      | .ok userID =>
          match ← exec env .linkSupergroup fun db => db.linkSupergroup userID chatID with
          | .error _ => return true
          | .ok () =>
              sendMessage chatID ("개인 그룹이 연결되었습니다.\n" ++ "다음 단계:\n" ++
                "1. 그룹 설정에서 Topics 를 켜주세요.\n" ++
                "2. 봇에게 Post Messages / Manage Topics / Ban Users 권한을 부여해주세요.\n" ++
                "권한이 적용되면 가입된 앱별 토픽이 자동 생성됩니다.")
              return true

def markNotAdmin (env : BotEnv) (userID chatID : ℤ) (errorCode : String) : BotM Unit := do
  match ← exec env .setBotIsAdmin fun db => db.setBotIsAdmin userID false with
  | .error _ => return ()
  | .ok () =>
      call (.audit
        { stage := .botNotAdmin, endpoint := "my_chat_member", routeStrategy := "bot",
          deliveryChannel := channelSupergroup, recipientUserID := userID,
          recipientChatID := chatID, errorCode := errorCode })

/-- Go's `%v` of a list of strings. -/
def showList (l : List String) : String := "[" ++ String.intercalate " " l ++ "]"

def sendReady (chatID : ℤ) (created : List String) : BotM Unit :=
  sendMessage chatID
    (if created = [] then "준비 완료. 알림이 활성화되었습니다."
    else "준비 완료. 생성된 토픽 " ++ toString created.length ++ "개: " ++ showList created)

/-- All three of the rights the bot asks for. -/
def MemberState.hasAllAdminRights : MemberState → Bool
  | .administrator post stories topics restrict => (post || stories) && topics && restrict
  | _ => false

/-- `PromoteHandler.Handle`. -/
def promoteHandle (env : BotEnv) (u : Update) : BotM Bool :=
  match u.myChatMember with
  | none => return false
  | some m =>
      if !m.chat.isGroup then return true
      else do
        match ← select env .findUserByChatID fun db =>
            db.findUserByChatID env.planner m.chat.id with
        | .error _ => return true
        | .ok userID =>
            match m.newChatMember.map ChatMember.state with
            | some (.administrator post stories topics restrict) =>
                if !(MemberState.administrator post stories topics restrict).hasAllAdminRights then
                  sendMessage m.chat.id ("봇 권한 중 일부가 부족합니다.\n" ++
                    "Post Messages / Manage Topics / Ban Users 모두 켜져야 토픽을 생성하고 " ++
                    "침입을 막을 수 있습니다.")
                  markNotAdmin env userID m.chat.id "intrusion_unmitigated"
                  return true
                else
                  match ← exec env .setBotIsAdmin fun db => db.setBotIsAdmin userID true with
                  | .error _ => return true
                  | .ok () =>
                      let created ← ensureForSubscribedApps env userID m.chat.id
                      sendReady m.chat.id (match created with | .ok apps => apps | .error _ => [])
                      return true
            | some .member | some .restricted | some .left | some .kicked =>
                markNotAdmin env userID m.chat.id "bot_not_admin"
                return true
            | some .creator | none => return true

/-- `IntrusionHandler.Handle`. -/
def intrusionHandle (env : BotEnv) (u : Update) : BotM Bool :=
  match u.chatMember with
  | none => return false
  | some m =>
      if !m.chat.isGroup then return true
      else do
        match ← select env .findUserByChatID fun db =>
            db.findUserByChatID env.planner m.chat.id with
        | .error _ => return true
        | .ok userID =>
            match m.newChatMember with
            | none => return true
            | some member =>
                if env.botID ≠ 0 ∧ member.userID = env.botID then return true
                else if member.state ≠ .member ∧ member.state ≠ .restricted then return true
                else
                  call (.banChatMember m.chat.id member.userID env.banErr.isNone)
                  let kick : Event :=
                    { stage := .intrusionKick, endpoint := "chat_member", routeStrategy := "bot",
                      deliveryChannel := channelSupergroup, recipientUserID := userID,
                      recipientChatID := m.chat.id,
                      details := [("intruder_id", .int member.userID)] }
                  match env.banErr with
                  | none => call (.audit kick)
                  | some banErr =>
                      call (.audit { kick with
                        stage := .intrusionUnmitigated, errorCode := "ban_failed",
                        details := kick.details ++ [("error", .str banErr)] })
                  return true

/-- `AppsHandler.toggle`. -/
def toggle (env : BotEnv) (chatID telegramID : ℤ) (appID : String) (subscribe : Bool) :
    BotM Unit := do
  if appID = "" then
    sendMessage chatID "사용: /subscribe <app_id> 또는 /unsubscribe <app_id>"
  else
    match ← select env .getByTelegramID fun db => db.getByTelegramID telegramID with
    | .error _ => sendMessage chatID "먼저 /start 후 /agree 를 진행해주세요."
    | .ok user =>
        match ← select env .appLookup fun db =>
            match db.apps.find? appID with
            | some a => .ok a
            | none => .error .db with
        | .error _ => sendMessage chatID ("앱 " ++ env.quote appID ++ " 을 찾을 수 없습니다.")
        | .ok app =>
            if !app.active then
              sendMessage chatID ("앱 " ++ env.quote appID ++ " 은 비활성 상태입니다.")
            else if gradeRank user.grade < gradeRank app.minGrade then
              sendMessage chatID "이 앱을 구독할 수 있는 등급이 아닙니다."
            else if subscribe then
              match ← query env .insertSubscription fun db => db.addSubscription user.id appID with
              | .error _ => return ()
              | .ok () =>
                  match user.personalSupergroupChatID, user.botIsAdmin with
                  | some group, true => let _ ← ensureForSubscribedApps env user.id group
                  | _, _ => pure ()
                  sendMessage chatID ("앱 " ++ env.quote appID ++
                    " 구독을 추가했습니다. 개인 그룹에 토픽이 생성되었습니다.")
            else
              match user.personalSupergroupChatID, user.botIsAdmin with
              | some group, true => let _ ← closeTopic env user.id group appID
              | _, _ => pure ()
              match ← exec env .deleteSubscription fun db =>
                  db.removeSubscription user.id appID with
              | .error _ => return ()
              | .ok () =>
                  sendMessage chatID ("앱 " ++ env.quote appID ++
                    " 구독을 해지했습니다. 토픽은 보관(archived) 처리되었습니다.")

/-- The text of the app catalogue for a user: the apps of their grade with a mark
and a hint, then the ones above it. -/
def catalogueText (db : Database) (user : UserRow) : String :=
  let apps := sortBy AppRow.id (db.apps.rows.filter AppRow.active)
  let visible := apps.filter fun a => gradeRank a.minGrade ≤ gradeRank user.grade
  let locked := apps.filter fun a => gradeRank user.grade < gradeRank a.minGrade
  let entry := fun a : AppRow =>
    if (db.subscriptions.find? (user.id, a.id)).isSome then
      "■ " ++ a.id ++ " (" ++ a.name ++ ")\n   /unsubscribe " ++ a.id ++ "\n"
    else "□ " ++ a.id ++ " (" ++ a.name ++ ")\n   /subscribe " ++ a.id ++ "\n"
  let lockedEntry := fun a : AppRow =>
    "  - " ++ a.id ++ " (" ++ a.name ++ ", requires " ++ a.minGrade ++ ")\n"
  "가입 가능한 앱 목록:\n" ++ String.join (visible.map entry) ++
    if locked = [] then ""
    else "\n등급이 부족하여 가입 불가:\n" ++ String.join (locked.map lockedEntry)

/-- `AppsHandler.list`. -/
def listApps (env : BotEnv) (chatID telegramID : ℤ) : BotM Unit := do
  match ← select env .getByTelegramID fun db => db.getByTelegramID telegramID with
  | .error _ => sendMessage chatID "먼저 DM에서 /start 와 /agree 를 진행해주세요."
  | .ok user =>
      match ← select env .listApps fun db => .ok (catalogueText db user) with
      | .error _ => return ()
      | .ok text => sendMessage chatID text

/-- `AppsHandler.Handle`. -/
def appsHandle (env : BotEnv) (u : Update) : BotM Bool :=
  match u.message with
  | none => return false
  | some m =>
      match m.sender with
      | none => return false
      | some sender =>
          let text := trimSpace m.text
          if m.chat.type ≠ .privateChat then return false
          else if text = "/apps" then do
            listApps env m.chat.id sender.id
            return true
          else if hasPrefix text "/subscribe " then do
            toggle env m.chat.id sender.id (trimSpace (trimPrefix text "/subscribe ")) true
            return true
          else if hasPrefix text "/unsubscribe " then do
            toggle env m.chat.id sender.id (trimSpace (trimPrefix text "/unsubscribe ")) false
            return true
          else return false

def displayName (u : TgUser) : String :=
  if u.username ≠ "" then u.username else trimSpace (u.firstName ++ " " ++ u.lastName)

def startgroupTokenTTL : ℤ := 30 * 60 * second

def BotEnv.ttl (env : BotEnv) : ℤ := if 0 < env.tokenTTL then env.tokenTTL else startgroupTokenTTL

def issueStartgroupDeeplink (env : BotEnv) (userID chatID : ℤ) : BotM Unit := do
  if env.botUsername = "" then
    sendMessage chatID "봇 username이 설정되지 않았습니다. 운영자에게 문의해주세요."
  else
    match env.newToken with
    | none => return ()
    | some token =>
        match ← query env .issueToken fun db => db.issueToken env.now token userID env.ttl with
        | .error _ => return ()
        | .ok () =>
            sendMessage chatID ("개인 알림용 슈퍼그룹을 만들어주세요.\n" ++ "https://t.me/" ++
              env.botUsername ++ "?startgroup=" ++ token ++ "\n" ++
              "버튼이 안 보이면 위 링크를 눌러 새 그룹을 만들고 봇을 admin으로 추가해주세요.\n" ++
              "권한: Post Messages / Manage Topics / Ban Users 모두 필요합니다.")

def handleStart (env : BotEnv) (chatID : ℤ) (sender : TgUser) : BotM Unit := do
  match ← query env .upsertOnStart fun db =>
      db.upsertOnStart sender.id (displayName sender) sender.languageCode with
  | .error _ => return ()
  | .ok user =>
      if user.personalSupergroupChatID.isSome && user.botIsAdmin then
        sendMessage chatID "이미 등록되셨습니다. 개인 그룹이 연결되어 있습니다."
      else if user.agreedAt.isNone then
        sendMessage chatID ("안녕하세요. 알림 봇입니다.\n" ++
          "본 봇은 알림 전달을 위해 Telegram 사용자 ID를 보관합니다.\n" ++
          "동의하시면 /agree 를 입력해주세요.")
      else issueStartgroupDeeplink env user.id chatID

/-- The user of `/agree`, whose row is made if there is none. -/
def agreeingUser (env : BotEnv) (sender : TgUser) : BotM (Except RegistryErr UserRow) := do
  match ← select env .getByTelegramID fun db => db.getByTelegramID sender.id with
  | .error .userNotFound =>
      query env .upsertOnStart fun db =>
        db.upsertOnStart sender.id (displayName sender) sender.languageCode
  | r => return r

def handleAgree (env : BotEnv) (chatID : ℤ) (sender : TgUser) : BotM Unit := do
  match ← agreeingUser env sender with
  | .error _ => return ()
  | .ok user =>
      match ← query env .markAgreed fun db =>
          (.ok (db.markAgreed env.now user.id).1, (db.markAgreed env.now user.id).2) with
      | .error _ => return ()
      | .ok transitioned =>
          if transitioned then
            call (.audit
              { stage := .validated, endpoint := "/agree",
                details := [("telegram_id", .int sender.id), ("user_id", .int user.id)] })
          issueStartgroupDeeplink env user.id chatID

/-- `StartHandler.Handle`. -/
def startHandle (env : BotEnv) (u : Update) : BotM Bool :=
  match u.message with
  | none => return false
  | some m =>
      match m.sender with
      | none => return false
      | some sender =>
          let text := trimSpace m.text
          if text = "/start" || hasPrefix text "/start " then do
            handleStart env m.chat.id sender
            return true
          else if text = "/agree" then do
            handleAgree env m.chat.id sender
            return true
          else return false

/-- `Poller.dispatch`: the first handler that takes the update. -/
def tryHandlers : List (BotM Bool) → BotM Unit
  | [] => return ()
  | h :: rest => do
      if !(← h) then tryHandlers rest

def dispatchUpdate (env : BotEnv) (u : Update) : BotM Unit :=
  tryHandlers [startgroupHandle env u, promoteHandle env u, intrusionHandle env u,
    appsHandle env u, startHandle env u]

end TelegramServer.Bot

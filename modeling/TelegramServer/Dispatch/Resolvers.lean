import TelegramServer.Dispatch.Types
import TelegramServer.Go.Strings
import TelegramServer.Registry.Database

/-!
The four route strategies and their Postgres resolvers
(`internal/dispatch/strategy`), on one snapshot of the registry. Each resolver is
a query followed by a loop that turns every row into a recipient or a skipped
entry.
-/

namespace TelegramServer.Dispatch

open Go Lib Registry

def resolveCodeUnknownRecipient : String := "unknown_recipient"
def resolveCodeRecipientInactive : String := "recipient_inactive"
def resolveCodeRecipientNotSubbed : String := "recipient_not_subscribed"
def resolveCodeRecipientNotLinked : String := "recipient_not_linked"
def resolveCodeTopicMissing : String := "recipient_topic_missing"
def resolveCodeBotNotAdmin : String := "bot_not_admin"
def resolveCodeGradeInsufficient : String := "grade_insufficient"

/-! ### Grades -/

def gradeRank (g : String) : ℕ :=
  let g := toLower (trimSpace g)
  if g = "admin" then 3
  else if g = "developer" ∨ g = "dev" then 2
  else if g = "user" then 1
  else 0

def normalizeGrade (g : String) : String :=
  let g := toLower (trimSpace g)
  if g = "dev" then "developer" else if g = "" then "user" else g

def maxGrade (a b : String) : String := if gradeRank b ≤ gradeRank a then a else b

/-! ### The loops -/

/-- What a loop does with one row: a recipient, or a skipped entry. -/
abbrev RowVerdict := Except ResolveError RecipientHandle

def ResolveResult.add (res : ResolveResult) : RowVerdict → ResolveResult
  | .ok rh => { res with recipients := res.recipients ++ [rh] }
  | .error e => { res with skipped := res.skipped ++ [e] }

/-- A row of a query over requested ids: the id that was asked for, the user it
stands for, and what becomes of that user. -/
structure Candidate where
  requested : ℤ
  userID : Option ℤ
  verdict : RowVerdict

/-- The loop of `ResolveDirect` and `ResolveDirectDM`: a request that matches no
user is skipped, and of several rows for one user the first counts. -/
def candidateLoop : List Candidate → List ℤ → ResolveResult → ResolveResult
  | [], _, res => res
  | c :: rest, seen, res =>
      match c.userID with
      | none =>
          candidateLoop rest seen (res.add (.error ⟨c.requested, resolveCodeUnknownRecipient⟩))
      | some userID =>
          if userID ∈ seen then candidateLoop rest seen res
          else candidateLoop rest (userID :: seen) (res.add c.verdict)

/-! ### `ResolveDirect` -/

structure DirectRow where
  userID : Option ℤ
  status : Option Status
  personalChatID : Option ℤ
  botIsAdmin : Option Bool
  subscribed : Bool
  topicID : Option ℤ

def directQuery (db : Database) (userIDs : List ℤ) (appID : String) : List DirectRow :=
  let withUser := leftJoin (fun req u => u.id = req) userIDs db.users.rows
  let withSub := leftJoin (fun p s => p.2.any (fun u => s.userID = u.id) && s.appID = appID)
    withUser db.subscriptions.rows
  let withTopic := leftJoin (fun p t => p.1.2.any (fun u => t.userID = u.id) && t.appID = appID)
    withSub db.topics.rows
  withTopic.map fun p =>
    let u := p.1.1.2
    { userID := u.map UserRow.id
      status := u.map UserRow.status
      personalChatID := u.bind UserRow.personalSupergroupChatID
      botIsAdmin := u.map UserRow.botIsAdmin
      subscribed := p.1.2.isSome
      topicID := p.2.map UserTopic.topicID }

def DirectRow.verdict (row : DirectRow) (userID : ℤ) : RowVerdict :=
  if row.status.any (· ≠ .active) then .error ⟨userID, resolveCodeRecipientInactive⟩
  else if !row.subscribed then .error ⟨userID, resolveCodeRecipientNotSubbed⟩
  else
    match row.personalChatID with
    | none => .error ⟨userID, resolveCodeRecipientNotLinked⟩
    | some chatID =>
        if row.botIsAdmin ≠ some true then .error ⟨userID, resolveCodeBotNotAdmin⟩
        else
          match row.topicID with
          | none => .error ⟨userID, resolveCodeTopicMissing⟩
          | some topicID => .ok ⟨userID, chatID, topicID, "supergroup"⟩

/-- The rows with the requested ids, read as `userIDs[idx]` and `idx++`; `none`
is Go's index panic. -/
def directCandidates (userIDs : List ℤ) : ℕ → List DirectRow → Option (List Candidate)
  | _, [] => some []
  | idx, row :: rest => do
      let requested ← userIDs[idx]?
      let cs ← directCandidates userIDs (idx + 1) rest
      return { requested := requested, userID := row.userID
               verdict := row.verdict (row.userID.getD 0) } :: cs

/-- `SELECT EXISTS(SELECT 1 FROM apps WHERE id=$1 AND active=true)`. -/
def appActive (db : Database) (appID : String) : Bool :=
  db.apps.rows.any fun a => a.id = appID && a.active

/-- `ResolveDirect`. The query has no `ORDER BY`. -/
def resolveDirect (db : Database) (planner : Planner) (userIDs : List ℤ) (appID : String) :
    Except StrategyErr ResolveResult :=
  if !appActive db appID then .error .appNotFound
  else
    match directCandidates userIDs 0 (planner.arrange (directQuery db userIDs appID)) with
    | none => .error .other
    | some cs => .ok (candidateLoop cs [] {})

def directStrategy (db : Database) (planner : Planner) : RouteStrategy where
  name := "direct"
  resolve r :=
    if r.appID = "" then .error .appNotFound
    else if r.recipients = [] then .error .emptyRecipients
    else resolveDirect db planner r.recipients r.appID

/-! ### `ResolveTopic` -/

structure TopicRow where
  userID : ℤ
  grade : String
  personalChatID : Option ℤ
  botIsAdmin : Bool
  topicID : Option ℤ

def topicQuery (db : Database) (appID : String) : List TopicRow :=
  let active := db.users.rows.filter fun u => u.status = .active
  let withUser := (db.subscriptions.rows.filter fun s => s.appID = appID).flatMap fun s =>
    (active.filter fun u => u.id = s.userID).map fun u => (s, u)
  let withTopic := leftJoin (fun p t => t.userID = p.2.id && t.appID = p.1.appID) withUser
    db.topics.rows
  sortBy TopicRow.userID (withTopic.map fun p =>
    let u := p.1.2
    { userID := u.id, grade := u.grade, personalChatID := u.personalSupergroupChatID
      botIsAdmin := u.botIsAdmin, topicID := p.2.map UserTopic.topicID })

def TopicRow.verdict (effectiveGrade : String) (row : TopicRow) : RowVerdict :=
  if gradeRank row.grade < gradeRank effectiveGrade then
    .error ⟨row.userID, resolveCodeGradeInsufficient⟩
  else
    match row.personalChatID with
    | none => .error ⟨row.userID, resolveCodeRecipientNotLinked⟩
    | some chatID =>
        if !row.botIsAdmin then .error ⟨row.userID, resolveCodeBotNotAdmin⟩
        else
          match row.topicID with
          | none => .error ⟨row.userID, resolveCodeTopicMissing⟩
          | some topicID => .ok ⟨row.userID, chatID, topicID, "supergroup"⟩

/-- `COALESCE((SELECT min_grade FROM apps WHERE id=$1), 'user')`. -/
def appMinGrade (db : Database) (appID : String) : String :=
  ((db.apps.find? appID).map AppRow.minGrade).getD "user"

def resolveTopic (db : Database) (appID requestMinGrade : String) :
    Except StrategyErr ResolveResult :=
  if !appActive db appID then .error .appNotFound
  else
    let effectiveGrade := maxGrade (appMinGrade db appID) requestMinGrade
    .ok ((topicQuery db appID).foldl (fun res row => res.add (row.verdict effectiveGrade)) {})

def topicStrategy (db : Database) : RouteStrategy where
  name := "topic"
  resolve r :=
    if r.appID = "" then .error .appNotFound
    else resolveTopic db r.appID (normalizeGrade r.minGrade)

/-! ### `ResolveBroadcast` -/

structure BroadcastRow where
  userID : ℤ
  grade : String
  personalChatID : Option ℤ
  botIsAdmin : Bool

def broadcastQuery (db : Database) : List BroadcastRow :=
  sortBy BroadcastRow.userID ((db.users.rows.filter fun u => u.status = .active).map fun u =>
    { userID := u.id, grade := u.grade, personalChatID := u.personalSupergroupChatID
      botIsAdmin := u.botIsAdmin })

def BroadcastRow.verdict (minGrade : String) (row : BroadcastRow) : RowVerdict :=
  if gradeRank row.grade < gradeRank minGrade then
    .error ⟨row.userID, resolveCodeGradeInsufficient⟩
  else
    match row.personalChatID with
    | none => .error ⟨row.userID, resolveCodeRecipientNotLinked⟩
    | some chatID =>
        if !row.botIsAdmin then .error ⟨row.userID, resolveCodeBotNotAdmin⟩
        else .ok ⟨row.userID, chatID, 0, "general"⟩

def resolveBroadcast (db : Database) (minGrade : String) : Except StrategyErr ResolveResult :=
  .ok ((broadcastQuery db).foldl (fun res row => res.add (row.verdict minGrade)) {})

def broadcastAllStrategy (db : Database) : RouteStrategy where
  name := "broadcast-all"
  resolve r := resolveBroadcast db (normalizeGrade r.minGrade)

/-! ### `ResolveDirectDM` -/

def dmVerdict (u : UserRow) : RowVerdict :=
  if u.status ≠ .active then .error ⟨u.id, resolveCodeRecipientInactive⟩
  else .ok ⟨u.id, u.telegramID, 0, "dm"⟩

/-- The rows of `unnest … LEFT JOIN users ON u.telegram_id = req.tg_id`, with
what the loop makes of each. -/
def directDMQuery (db : Database) (telegramIDs : List ℤ) : List Candidate :=
  (leftJoin (fun req u => u.telegramID = req) telegramIDs db.users.rows).map fun p =>
    { requested := p.1
      userID := p.2.map UserRow.id
      verdict :=
        match p.2 with
        | none => .error ⟨p.1, resolveCodeUnknownRecipient⟩
        | some u => dmVerdict u }

def resolveDirectDM (db : Database) (planner : Planner) (telegramIDs : List ℤ) :
    Except StrategyErr ResolveResult :=
  .ok (candidateLoop (planner.arrange (directDMQuery db telegramIDs)) [] {})

def directDMStrategy (db : Database) (planner : Planner) : RouteStrategy where
  name := "direct-dm"
  resolve r :=
    if r.recipients = [] then .error .emptyRecipients
    else resolveDirectDM db planner r.recipients

end TelegramServer.Dispatch

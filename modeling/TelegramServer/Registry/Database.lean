import TelegramServer.Go.Basic
import TelegramServer.Lib.Join
import TelegramServer.Lib.KeySort
import TelegramServer.Lib.Table
import Mathlib.Data.String.Basic

/-!
The user registry: the tables `users`, `user_subscriptions`, `user_topics`,
`pending_supergroup_tokens` and `apps` of migration 0001, and the statements of
`internal/registry` on them. The unique keys of the tables are part of their
types; a foreign key is checked where a row is inserted.
-/

namespace TelegramServer.Registry

open Go Lib

/-- The order in which Postgres returns the rows of a query without `ORDER BY`. -/
structure Planner where
  arrange : {α : Type} → List α → List α
  perm : ∀ {α : Type} (l : List α), (arrange l).Perm l

def Planner.inOrder : Planner := ⟨id, fun l => List.Perm.refl l⟩

inductive Status
  | active | paused | anonymized
  deriving DecidableEq

structure UserRow where
  id : ℤ
  telegramID : ℤ
  username : Option String := none
  grade : String := "user"
  preferredLang : Option String := none
  agreedAt : Option Time := none
  personalSupergroupChatID : Option ℤ := none
  botIsAdmin : Bool := false
  status : Status := .active
  anonymized : Bool := false
  deriving DecidableEq

structure Subscription where
  userID : ℤ
  appID : String
  deriving DecidableEq

def Subscription.key (s : Subscription) : ℤ × String := (s.userID, s.appID)

structure UserTopic where
  userID : ℤ
  appID : String
  topicID : ℤ
  deriving DecidableEq

def UserTopic.key (t : UserTopic) : ℤ × String := (t.userID, t.appID)

structure PendingToken where
  token : String
  userID : ℤ
  expiresAt : Time

structure AppRow where
  id : String
  name : String
  minGrade : String := "user"
  active : Bool := true

structure Database where
  users : Table UserRow.id
  telegramID_nodup : (users.rows.map UserRow.telegramID).Nodup
  /-- The last value of the sequence behind `users.id`. -/
  userSeq : ℤ
  subscriptions : Table Subscription.key
  topics : Table UserTopic.key
  tokens : Table PendingToken.token
  apps : Table AppRow.id

def Database.empty : Database where
  users := .empty
  telegramID_nodup := List.nodup_nil
  userSeq := 0
  subscriptions := .empty
  topics := .empty
  tokens := .empty
  apps := .empty

inductive RegistryErr
  | userNotFound | tokenNotFound | tokenExpired | topicNotFound | db
  deriving DecidableEq

/-- The error of `SetStatus` on a status it does not set. -/
inductive StatusErr
  | invalidStatus (status : String)
  deriving DecidableEq

/-- `UPDATE users SET … WHERE p`. Neither key of the table is ever set. -/
def Database.updateUsers (db : Database) (p : UserRow → Bool) (f : UserRow → UserRow)
    (hid : ∀ u, (f u).id = u.id) (htg : ∀ u, (f u).telegramID = u.telegramID) : Database where
  users := db.users.modify (fun u => if p u then f u else u) fun u => by split <;> simp [hid]
  telegramID_nodup := by
    have heq : UserRow.telegramID ∘ (fun u => if p u then f u else u) = UserRow.telegramID := by
      funext u
      simp only [Function.comp_apply]
      split <;> simp [htg]
    simp only [Table.modify]
    rw [List.map_map, heq]
    exact db.telegramID_nodup
  userSeq := db.userSeq
  subscriptions := db.subscriptions
  topics := db.topics
  tokens := db.tokens
  apps := db.apps

/-! ### `UserStore` -/

def Database.userByTelegramID (db : Database) (telegramID : ℤ) : Option UserRow :=
  db.users.rows.find? fun u => u.telegramID = telegramID

/-- `UpsertOnStart`. The sequence advances even when the row exists. -/
def Database.upsertOnStart (db : Database) (telegramID : ℤ) (username preferredLang : String) :
    Except RegistryErr UserRow × Database :=
  let id := db.userSeq + 1
  match hfind : db.userByTelegramID telegramID with
  | some u =>
      let f := fun u : UserRow => { u with username := (nullIf username "").or u.username }
      (.ok (f u),
        { db.updateUsers (fun u => u.telegramID = telegramID) f (fun _ => rfl) (fun _ => rfl) with
          userSeq := id })
  | none =>
      let row : UserRow :=
        { id := id, telegramID := telegramID, username := nullIf username "",
          preferredLang := nullIf preferredLang "" }
      if hid : id ∈ db.users.rows.map UserRow.id then
        (.error .db, { db with userSeq := id })
      else
        (.ok row,
          { db with
            users :=
              { rows := db.users.rows ++ [row]
                nodup := by
                  rw [List.map_append, List.map_singleton, ← List.concat_eq_append]
                  exact db.users.nodup.concat hid }
            telegramID_nodup := by
              rw [List.map_append, List.map_singleton, ← List.concat_eq_append]
              refine db.telegramID_nodup.concat fun hmem => ?_
              obtain ⟨u, hu, heq⟩ := List.mem_map.mp hmem
              have hnone := List.find?_eq_none.mp hfind u hu
              simp [heq, row] at hnone
            userSeq := id })

def Database.getByTelegramID (db : Database) (telegramID : ℤ) : Except RegistryErr UserRow :=
  match db.userByTelegramID telegramID with
  | some u => .ok u
  | none => .error .userNotFound

/-- `MarkAgreed`; the flag is `RowsAffected() == 1`. -/
def Database.markAgreed (db : Database) (now : Time) (userID : ℤ) : Bool × Database :=
  let p := fun u : UserRow => u.id = userID && u.agreedAt.isNone
  (db.users.rows.any p,
    db.updateUsers p (fun u => { u with agreedAt := some now }) (fun _ => rfl) (fun _ => rfl))

def Database.anonymize (db : Database) (userID : ℤ) : Database :=
  db.updateUsers (fun u => u.id = userID)
    (fun u => { u with
      username := none, preferredLang := none, personalSupergroupChatID := none,
      botIsAdmin := false, anonymized := true, status := .anonymized })
    (fun _ => rfl) (fun _ => rfl)

/-- `SetStatus`. The text is compared with the two states a user can be moved to. -/
def Database.setStatus (db : Database) (userID : ℤ) (status : String) :
    Except StatusErr Unit × Database :=
  if status ≠ "active" ∧ status ≠ "paused" then (.error (.invalidStatus status), db)
  else
    let new : Status := if status = "active" then .active else .paused
    (.ok (),
      db.updateUsers (fun u => u.id = userID && u.status ≠ .anonymized)
        (fun u => { u with status := new }) (fun _ => rfl) (fun _ => rfl))

/-! ### `SupergroupStore` -/

/-- `IssueToken`, the lifetime cut down to whole seconds. The user has to exist. -/
def Database.issueToken (db : Database) (now : Time) (token : String) (userID ttl : ℤ) :
    Except RegistryErr Unit × Database :=
  if userID ∈ db.users.rows.map UserRow.id then
    (.ok (), { db with tokens := db.tokens.insert ⟨token, userID, now + ttl.tdiv second * second⟩ })
  else (.error .db, db)

/-- `ConsumeToken`. The row is deleted whether or not it has expired. -/
def Database.consumeToken (db : Database) (now : Time) (token : String) :
    Except RegistryErr ℤ × Database :=
  match db.tokens.find? token with
  | none => (.error .tokenNotFound, db)
  | some row =>
      let db := { db with tokens := db.tokens.keep fun t => t.token ≠ token }
      if row.expiresAt < now then (.error .tokenExpired, db) else (.ok row.userID, db)

def Database.linkSupergroup (db : Database) (userID chatID : ℤ) : Database :=
  db.updateUsers (fun u => u.id = userID && u.status ≠ .anonymized)
    (fun u => { u with personalSupergroupChatID := some chatID, botIsAdmin := false })
    (fun _ => rfl) (fun _ => rfl)

def Database.setBotIsAdmin (db : Database) (userID : ℤ) (isAdmin : Bool) : Database :=
  db.updateUsers (fun u => u.id = userID) (fun u => { u with botIsAdmin := isAdmin })
    (fun _ => rfl) (fun _ => rfl)

def Database.resetLink (db : Database) (userID : ℤ) : Database :=
  db.updateUsers (fun u => u.id = userID)
    (fun u => { u with personalSupergroupChatID := none, botIsAdmin := false })
    (fun _ => rfl) (fun _ => rfl)

/-- `FindUserByChatID`: the first row of a query that may have several. -/
def Database.findUserByChatID (db : Database) (planner : Planner) (chatID : ℤ) :
    Except RegistryErr ℤ :=
  match (planner.arrange (db.users.rows.filter fun u =>
      u.personalSupergroupChatID = some chatID)).head? with
  | some u => .ok u.id
  | none => .error .userNotFound

/-! ### `UserTopicStore` and the subscription statements -/

/-- Both ends of a `(user_id, app_id)` foreign key exist. -/
def Database.references (db : Database) (userID : ℤ) (appID : String) : Bool :=
  db.users.rows.any (fun u => u.id = userID) && db.apps.rows.any fun a => a.id = appID

def Database.addTopic (db : Database) (userID : ℤ) (appID : String) (topicID : ℤ) :
    Except RegistryErr Unit × Database :=
  if db.references userID appID then
    (.ok (), { db with topics := db.topics.insert ⟨userID, appID, topicID⟩ })
  else (.error .db, db)

def Database.removeTopic (db : Database) (userID : ℤ) (appID : String) : Database :=
  { db with topics := db.topics.keep fun t => t.key ≠ (userID, appID) }

def Database.getTopicID (db : Database) (userID : ℤ) (appID : String) : Except RegistryErr ℤ :=
  match db.topics.find? (userID, appID) with
  | some t => .ok t.topicID
  | none => .error .topicNotFound

def Database.listSubscribedAppsWithoutTopic (db : Database) (userID : ℤ) : List String :=
  let joined := leftJoin (fun s t => t.userID = s.userID && t.appID = s.appID)
    db.subscriptions.rows db.topics.rows
  sortBy id ((joined.filter fun p => p.1.userID = userID && p.2.isNone).map fun p => p.1.appID)

/-- `INSERT INTO user_subscriptions … ON CONFLICT DO NOTHING`. -/
def Database.addSubscription (db : Database) (userID : ℤ) (appID : String) :
    Except RegistryErr Unit × Database :=
  if db.references userID appID then
    (.ok (), { db with subscriptions := db.subscriptions.insert ⟨userID, appID⟩ })
  else (.error .db, db)

def Database.removeSubscription (db : Database) (userID : ℤ) (appID : String) : Database :=
  { db with subscriptions := db.subscriptions.keep fun s => s.key ≠ (userID, appID) }

end TelegramServer.Registry

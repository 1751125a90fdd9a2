import TelegramServer.Auth.KeyStore
import TelegramServer.Lib.Table

/-!
The registry of apps under concurrent changes: the admin API
(`internal/api/handlers/admin_apps.go`), the forms of the admin UI that call it
(`internal/adminui/apps.go`), the issue and the revocation of keys
(`internal/adminui/keystore.go`), and the authentication that reads what they write
(`internal/auth/store.go`).

A request is checked first and then runs a fixed list of statements in one
transaction. Other transactions take their steps between any two statements, and any
transaction may be rolled back after any of them. A statement sees the committed
rows and the writes of its own transaction (`READ COMMITTED`). It takes the locks
Postgres takes for it and is not enabled while another transaction is in its way:
that one holds a conflicting lock on the row of the app, or has written the same row.
A transaction here writes rows of one app only, so its locks on `apps` are one mode.

`Auth.KeyStore` treats the same transactions as single steps, which is enough for the
life of a key (`KeyRefinement` has what the two do to the keys in common). Here their
statements matter, since the capabilities of an app and the version that stands for
them are written one after the other.
-/

namespace TelegramServer.Api

open Go Lib Registry Auth

/-! ### The tables -/

/-- A row of `apps`. -/
structure AppEntry extends AppRecord where
  name : String := ""
  description : String := ""
  minGrade : String := "user"
  createdBy : String := ""

def AppEntry.key (a : AppEntry) : String := a.id

/-- The tables, with the foreign keys of the two that refer to `apps`. -/
structure AdminDatabase where
  apps : Table AppEntry.key
  capabilities : Table AppCapability.key
  keys : Table KeyRow.keyPrefix
  capability_app : ∀ c ∈ capabilities.rows, c.appID ∈ apps.keys
  key_app : ∀ k ∈ keys.rows, k.appID ∈ apps.keys

/-- What `UPDATE app_keys SET revoked_at = now() WHERE …` makes of a row. -/
def revokeRow (appID keyPrefix : String) (k : KeyRow) : KeyRow :=
  if k.keyPrefix = keyPrefix ∧ k.appID = appID then { k with revoked := true } else k

theorem keyPrefix_revokeRow (appID keyPrefix : String) (k : KeyRow) :
    (revokeRow appID keyPrefix k).keyPrefix = k.keyPrefix := by
  unfold revokeRow
  split <;> rfl

theorem appID_revokeRow (appID keyPrefix : String) (k : KeyRow) :
    (revokeRow appID keyPrefix k).appID = k.appID := by
  unfold revokeRow
  split <;> rfl

namespace AdminDatabase

variable (db : AdminDatabase) (appID : String)

def empty : AdminDatabase := ⟨.empty, .empty, .empty, by simp [Table.empty], by simp [Table.empty]⟩

/-- The columns that authentication reads. -/
def keyView : KeyDatabase where
  apps := db.apps.map AppEntry.toAppRecord fun _ => rfl
  capabilities := db.capabilities
  keys := db.keys

def HasApp : Prop := appID ∈ db.apps.keys

instance : Decidable (db.HasApp appID) := inferInstanceAs (Decidable (_ ∈ _))

def insertApp (row : AppEntry) : AdminDatabase :=
  { db with
    apps := db.apps.insert row
    capability_app := fun c hc => Table.mem_keys_insert (db.capability_app c hc)
    key_app := fun k hk => Table.mem_keys_insert (db.key_app k hk) }

def updateApp (f : AppEntry → AppEntry) (hf : ∀ a, (f a).key = a.key) : AdminDatabase :=
  have hkeep : ∀ a : AppEntry, (if a.id = appID then f a else a).key = a.key := fun a => by
    split
    · exact hf a
    · rfl
  { db with
    apps := db.apps.modify (fun a => if a.id = appID then f a else a) hkeep
    capability_app := by
      rw [Table.keys_modify]
      exact db.capability_app
    key_app := by
      rw [Table.keys_modify]
      exact db.key_app }

/-- `DELETE FROM apps`, with the rows that refer to the app. -/
def deleteApp : AdminDatabase where
  apps := db.apps.keep fun a => a.key ≠ appID
  capabilities := db.capabilities.keep fun c => c.appID ≠ appID
  keys := db.keys.keep fun k => k.appID ≠ appID
  capability_app := by
    intro c hc
    obtain ⟨hc, hne⟩ := List.mem_filter.mp hc
    exact Table.mem_keys_keep_ne.mpr ⟨db.capability_app c hc, by simpa using hne⟩
  key_app := by
    intro k hk
    obtain ⟨hk, hne⟩ := List.mem_filter.mp hk
    exact Table.mem_keys_keep_ne.mpr ⟨db.key_app k hk, by simpa using hne⟩

def insertCapability (c : Capability) : AdminDatabase :=
  if happ : db.HasApp appID then
    { db with
      capabilities := db.capabilities.insert ⟨appID, c⟩
      capability_app := fun r hr => by
        obtain hold | rfl := Table.mem_insert hr
        · exact db.capability_app r hold
        · exact happ }
  else db

def deleteCapability (c : Capability) : AdminDatabase :=
  { db with
    capabilities := db.capabilities.keep fun r => r.key ≠ (appID, c)
    capability_app := fun r hr => db.capability_app r (List.mem_of_mem_filter hr) }

def insertKey (row : KeyRow) : AdminDatabase :=
  if happ : db.HasApp row.appID then
    { db with
      keys := db.keys.insert row
      key_app := fun k hk => by
        obtain hold | rfl := Table.mem_insert hk
        · exact db.key_app k hold
        · exact happ }
  else db

def revokeKey (keyPrefix : String) : AdminDatabase :=
  { db with
    keys := db.keys.modify (revokeRow appID keyPrefix) (keyPrefix_revokeRow appID keyPrefix)
    key_app := fun k hk => by
      obtain ⟨k', hk', rfl⟩ := List.mem_map.mp hk
      rw [appID_revokeRow]
      exact db.key_app k' hk' }

end AdminDatabase

inductive AppWrite
  | insertApp (name description minGrade createdBy : String)
  | setDescription (description : String)
  | setMinGrade (minGrade : String)
  | setActive (active : Bool)
  | bumpVersion
  | deleteApp
  | insertCapability (c : Capability)
  | deleteCapability (c : Capability)
  | insertKey (keyHash keyPrefix label : String)
  | revokeKey (keyPrefix : String)

namespace AppWrite

/-- A write to the rows of the app `appID`. -/
def apply (appID : String) (db : AdminDatabase) : AppWrite → AdminDatabase
  | .insertApp name description minGrade createdBy =>
      db.insertApp
        { id := appID, name := name, description := description, minGrade := minGrade,
          active := true, capabilitySetVersion := 1, createdBy := createdBy }
  | .setDescription d => db.updateApp appID (fun a => { a with description := d }) fun _ => rfl
  | .setMinGrade g => db.updateApp appID (fun a => { a with minGrade := g }) fun _ => rfl
  | .setActive b => db.updateApp appID (fun a => { a with active := b }) fun _ => rfl
  | .bumpVersion =>
      db.updateApp appID
        (fun a => { a with capabilitySetVersion := a.capabilitySetVersion + 1 }) fun _ => rfl
  | .deleteApp => db.deleteApp appID
  | .insertCapability c => db.insertCapability appID c
  | .deleteCapability c => db.deleteCapability appID c
  | .insertKey keyHash keyPrefix label =>
      db.insertKey { appID := appID, keyHash := keyHash, keyPrefix := keyPrefix, label := label }
  | .revokeKey keyPrefix => db.revokeKey appID keyPrefix

def insertsApp : AppWrite → Bool
  | .insertApp _ _ _ _ => true
  | _ => false

def deletesApp : AppWrite → Bool
  | .deleteApp => true
  | _ => false

/-- The prefix of the key that is inserted. -/
def newPrefix : AppWrite → Option String
  | .insertKey _ keyPrefix _ => some keyPrefix
  | _ => none

/-- The capability row that is written. -/
def capability : AppWrite → Option Capability
  | .insertCapability c | .deleteCapability c => some c
  | _ => none

def deletesCapability (c : Capability) : AppWrite → Bool
  | .deleteCapability c' => c' == c
  | _ => false

def revokes (keyPrefix : String) : AppWrite → Bool
  | .revokeKey p => p == keyPrefix
  | _ => false

end AppWrite

/-! ### Requests -/

inductive AdminErr
  /-- The code and the status of an answer of the admin API. -/
  | api (code : String) (status : ℕ)
  | appNotFound | appInactive | prefixTaken | keyNotFound
  /-- An error of the database that the caller passes on. -/
  | db
  deriving DecidableEq

def allowedCapabilities : List Capability :=
  ["messages.direct.send", "messages.direct.dm", "messages.topic.send",
    "messages.broadcast.send", "noop.invoke"]

def forbiddenCapabilities : List Capability :=
  ["apps.register", "users.promote", "users.deactivate", "audit.search", "audit.freeze"]

def validGrades : List String := ["user", "developer", "admin"]

def validateCapabilityGrant : List Capability → Option AdminErr
  | [] => none
  | c :: cs =>
      if forbiddenCapabilities.contains c then some (.api "forbidden_capability" 403)
      else if !allowedCapabilities.contains c then some (.api "unknown_capability" 400)
      else validateCapabilityGrant cs

structure CreateAppRequest where
  id : String := ""
  name : String := ""
  description : String := ""
  minGrade : String := ""
  capabilities : List Capability := []

structure PatchAppRequest where
  description : Option String := none
  minGrade : Option String := none
  active : Option Bool := none
  addCapabilities : List Capability := []
  removeCapabilities : List Capability := []

/-! ### Transactions -/

inductive AppStmt
  | insertApp (name description minGrade createdBy : String)
  /-- `SELECT EXISTS(SELECT 1 FROM apps WHERE id=$1)`. -/
  | selectExists
  /-- `SELECT 1 FROM apps WHERE id=$1 FOR UPDATE`. -/
  | lockApp
  | setDescription (description : String)
  | setMinGrade (minGrade : String)
  | setActive (active : Bool)
  | bumpVersion
  /-- `UPDATE apps SET active=false, capability_set_version = capability_set_version + 1`. -/
  | deactivate
  | deleteApp
  | insertCapability (c : Capability)
  | deleteCapability (c : Capability)
  /-- `SELECT active FROM apps WHERE id = $1`. -/
  | selectActive
  /-- `SELECT EXISTS(SELECT 1 FROM app_keys WHERE key_prefix = $1)`. -/
  | selectPrefix (keyPrefix : String)
  | insertKey (keyHash keyPrefix label : String)
  | revokeKey (keyPrefix : String)

/-- The lock modes of Postgres on a row, as far as they occur. -/
inductive LockMode
  /-- The check of a foreign key. -/
  | keyShare
  /-- `UPDATE`. -/
  | noKeyUpdate
  /-- `FOR UPDATE` and `DELETE`. -/
  | update
  deriving DecidableEq

def LockMode.conflicts : LockMode → LockMode → Bool
  | .keyShare, .keyShare | .keyShare, .noKeyUpdate | .noKeyUpdate, .keyShare => false
  | _, _ => true

/-- The stronger of the lock that is held and a new one. -/
def LockMode.join : Option LockMode → LockMode → LockMode
  | none, m | some .keyShare, m => m
  | some .noKeyUpdate, .update => .update
  | some .noKeyUpdate, _ => .noKeyUpdate
  | some .update, _ => .update

/-- An open transaction on one app: the statements to come, the writes so far and the
lock on the row of the app. -/
structure Tx where
  appID : String
  todo : List AppStmt
  writes : List AppWrite := []
  lock : Option LockMode := none

namespace Tx

variable (tx : Tx)

/-- What the transaction itself sees. -/
def view (db : AdminDatabase) : AdminDatabase := tx.writes.foldl (AppWrite.apply tx.appID) db

def inserts : Bool := tx.writes.any AppWrite.insertsApp

def deletes : Bool := tx.writes.any AppWrite.deletesApp

def writesCapability (c : Capability) : Bool := tx.writes.any fun w => w.capability == some c

def deletesCapability (c : Capability) : Bool := tx.writes.any (AppWrite.deletesCapability c)

def insertsKey (keyPrefix : String) : Bool := tx.writes.any fun w => w.newPrefix == some keyPrefix

def revokes (keyPrefix : String) : Bool := tx.writes.any (AppWrite.revokes keyPrefix)

def holdsAgainst (m : LockMode) : Bool := tx.lock.any m.conflicts

/-- The others that work on the same app. -/
def rivals (others : List Tx) : List Tx := others.filter fun t => t.appID = tx.appID

end Tx

inductive Outcome
  | waits
  | denied (err : AdminErr)
  | done (writes : List AppWrite) (lock : Option LockMode)

/-- A statement that locks the row of the app, if there is one. -/
def lockRow (db : AdminDatabase) (others : List Tx) (tx : Tx) (m : LockMode)
    (writes : List AppWrite) : Outcome :=
  if ¬db.HasApp tx.appID then .done [] tx.lock
  else if (tx.rivals others).any fun t => t.holdsAgainst m then .waits
  else .done writes (some (LockMode.join tx.lock m))

/-- The check of a foreign key to the app, for a row that is inserted. -/
def checkReference (db : AdminDatabase) (others : List Tx) (tx : Tx) (err : AdminErr)
    (writes : List AppWrite) : Outcome :=
  if tx.inserts then .done writes tx.lock
  else if ¬db.HasApp tx.appID then .denied err
  else if (tx.rivals others).any fun t => t.holdsAgainst .keyShare then .waits
  else .done writes (some (LockMode.join tx.lock .keyShare))

/-- One statement of `tx` on the committed rows `db`, with the other open
transactions. -/
def execStmt (db : AdminDatabase) (others : List Tx) (tx : Tx) : AppStmt → Outcome
  | .insertApp name description minGrade createdBy =>
      if (tx.rivals others).any fun t => t.inserts || t.deletes then .waits
      else if db.HasApp tx.appID then .denied (.api "app_already_exists" 409)
      else .done [.insertApp name description minGrade createdBy] tx.lock
  | .selectExists =>
      if (tx.view db).HasApp tx.appID then .done [] tx.lock
      else .denied (.api "app_not_found" 404)
  | .lockApp => lockRow db others tx .update []
  | .setDescription d => lockRow db others tx .noKeyUpdate [.setDescription d]
  | .setMinGrade g => lockRow db others tx .noKeyUpdate [.setMinGrade g]
  | .setActive b => lockRow db others tx .noKeyUpdate [.setActive b]
  | .bumpVersion => lockRow db others tx .noKeyUpdate [.bumpVersion]
  | .deactivate =>
      -- no row affected
      if ¬db.HasApp tx.appID then .denied (.api "app_not_found" 404)
      else lockRow db others tx .noKeyUpdate [.setActive false, .bumpVersion]
  | .deleteApp =>
      if ¬db.HasApp tx.appID then .denied (.api "app_not_found" 404)
      -- the cascade deletes every row of the app
      else if (tx.rivals others).any fun t => t.lock.isSome || !t.writes.isEmpty then .waits
      else .done [.deleteApp] (some .update)
  | .insertCapability c =>
      if (tx.rivals others).any fun t => t.deletes || t.writesCapability c then .waits
      else if ((tx.view db).capabilities.find? (tx.appID, c)).isSome then .done [] tx.lock
      else checkReference db others tx (.api "db_error" 500) [.insertCapability c]
  | .deleteCapability c =>
      if ((tx.view db).capabilities.find? (tx.appID, c)).isNone then .done [] tx.lock
      else if (tx.rivals others).any fun t => t.deletes || t.deletesCapability c then .waits
      else .done [.deleteCapability c] tx.lock
  | .selectActive =>
      match db.apps.find? tx.appID with
      | none => .denied .appNotFound
      | some a => if a.active then .done [] tx.lock else .denied .appInactive
  | .selectPrefix keyPrefix =>
      if (db.keys.find? keyPrefix).isSome then .denied .prefixTaken else .done [] tx.lock
  | .insertKey keyHash keyPrefix label =>
      if others.any fun t => t.insertsKey keyPrefix then .waits
      else
        match db.keys.find? keyPrefix with
        | some k =>
            if others.any fun t => t.appID = k.appID && t.deletes then .waits
            else .denied .prefixTaken
        | none => checkReference db others tx .db [.insertKey keyHash keyPrefix label]
  | .revokeKey keyPrefix =>
      match db.keys.find? keyPrefix with
      | none => .denied .keyNotFound
      | some k =>
          if k.appID ≠ tx.appID || k.revoked then .denied .keyNotFound
          else if (tx.rivals others).any fun t => t.deletes || t.revokes keyPrefix then .waits
          else .done [.revokeKey keyPrefix] tx.lock

/-! ### The endpoints -/

/-- `Create`: the checks, then the transaction. `body` is `none` where it does not
decode, and `createdBy` is the app of the requester. -/
def create (createdBy : String) (body : Option CreateAppRequest) : Except AdminErr Tx :=
  match body with
  | none => .error (.api "malformed_json" 400)
  | some req =>
      if req.id = "" ∨ req.name = "" then .error (.api "missing_required_fields" 400)
      else if !matchesAppID req.id then .error (.api "invalid_app_id" 400)
      else if req.minGrade ≠ "" ∧ !validGrades.contains req.minGrade then
        .error (.api "invalid_min_grade" 400)
      else
        match validateCapabilityGrant req.capabilities with
        | some err => .error err
        | none =>
            .ok
              { appID := req.id
                todo :=
                  .insertApp req.name req.description ((nullIf req.minGrade "").getD "user")
                    createdBy :: req.capabilities.map .insertCapability }

/-- The capability statements of `Patch`. -/
def capabilityStmts (req : PatchAppRequest) : List AppStmt :=
  req.addCapabilities.map .insertCapability ++ req.removeCapabilities.map .deleteCapability ++
    if req.addCapabilities ≠ [] ∨ req.removeCapabilities ≠ [] then [.bumpVersion] else []

def patch (appID : String) (body : Option PatchAppRequest) : Except AdminErr Tx :=
  match body with
  | none => .error (.api "malformed_json" 400)
  | some req =>
      if req.minGrade.any fun g => !validGrades.contains g then
        .error (.api "invalid_min_grade" 400)
      else
        match validateCapabilityGrant req.addCapabilities with
        | some err => .error err
        | none =>
            .ok
              { appID := appID
                todo :=
                  [.selectExists, .lockApp] ++ (req.description.map .setDescription).toList ++
                    (req.minGrade.map .setMinGrade).toList ++
                    (req.active.map .setActive).toList ++ capabilityStmts req }

def delete (appID : String) : Tx := { appID := appID, todo := [.lockApp, .deactivate] }

def purge (appID : String) : Tx := { appID := appID, todo := [.lockApp, .deleteApp] }

/-- `IssueKey`. -/
def issueKey (argon : Argon2) (i : Issuance) : Tx where
  appID := i.appID
  todo :=
    [.selectActive, .selectPrefix i.keyPrefix,
      .insertKey (i.row argon).keyHash i.keyPrefix i.label]

/-- `RevokeKey`, a transaction of one statement. -/
def revokeKey (appID keyPrefix : String) : Tx :=
  { appID := appID, todo := [.revokeKey keyPrefix] }

/-! ### The forms of the admin UI -/

/-- The parsed form: the values of each field, in the order they were sent. -/
abbrev Form := String → List String

def Form.has (form : Form) (field : String) : Bool := !(form field).isEmpty

/-- `r.FormValue`. -/
def Form.value (form : Form) (field : String) : String := (form field).headD ""

def grantableCapabilities : List Capability :=
  ["messages.direct.send", "messages.direct.dm", "messages.topic.send",
    "messages.broadcast.send", "noop.invoke"]

def filterGrantable (vals : List Capability) : List Capability :=
  vals.filter fun v => grantableCapabilities.contains v

/-- The request `handleAppCreate` sends. -/
def handleAppCreate (form : Form) : CreateAppRequest where
  id := form.value "id"
  name := form.value "name"
  description := form.value "description"
  minGrade := form.value "min_grade"
  capabilities := filterGrantable (form "capabilities")

/-- The capabilities of `GetApp`, `none` where there is no such app. -/
def getAppCapabilities (planner : Planner) (db : AdminDatabase) (appID : String) :
    Option (List Capability) :=
  (db.apps.find? appID).map fun _ =>
    (planner.arrange (db.capabilities.rows.filter fun c => c.appID = appID)).map
      AppCapability.capability

/-- The request `handleAppPatch` sends, `none` where it shows an error instead.
`store` is the database the UI reads, if it has one. -/
def handleAppPatch (planner : Planner) (store : Option AdminDatabase) (appID : String)
    (form : Form) : Option PatchAppRequest :=
  let req : PatchAppRequest :=
    { description := if form.has "description" then some (form.value "description") else none
      minGrade := if form.has "min_grade" then some (form.value "min_grade") else none
      active :=
        if form.value "set_active" ≠ "" then some (form.value "set_active" = "1") else none }
  if form.has "capabilities" || form.has "min_grade" then
    match store.bind fun db => getAppCapabilities planner db appID with
    | none => none
    | some capabilities =>
        let desired := filterGrantable (form "capabilities")
        let current := filterGrantable capabilities
        some { req with
          addCapabilities := desired.filter fun c => !current.contains c
          removeCapabilities := current.filter fun c => !desired.contains c }
  else some req

/-! ### Authentication -/

/-- The row that `Resolve` finds for a token. -/
def lookupKey (argon : Argon2) (planner : Planner) (db : KeyDatabase) (keyPrefix bearer : String) :
    Option (KeyRow × AppRecord) :=
  (planner.arrange (keyQuery db keyPrefix)).find? fun row =>
    argon.verify bearer row.1.keyHash = some true

def loadCapabilitiesTx (db : KeyDatabase) (appID : String) : List Capability :=
  (db.capabilities.rows.filter fun c => c.appID = appID).map AppCapability.capability

/-- How far a call of `Resolve` has got. Its transaction reads from one snapshot, the
database that was committed when the first query ran. -/
inductive ResolvePhase
  | begun (keyPrefix bearer : String)
  | matched (snapshot : AdminDatabase) (keyPrefix : String) (row : KeyRow × AppRecord)
  | ended

/-! ### Runs -/

/-- What a commit did to the ids that the audit log keeps. -/
inductive AdminEvent
  | created (appID : String)
  | purged (appID : String) (keyPrefixes : List String)
  | issued (appID keyPrefix : String)
  deriving DecidableEq

def AppWrite.event (appID : String) (db : AdminDatabase) : AppWrite → Option AdminEvent
  | .insertApp _ _ _ _ => some (.created appID)
  | .deleteApp =>
      some (.purged appID ((db.keys.rows.filter fun k => k.appID = appID).map KeyRow.keyPrefix))
  | .insertKey _ keyPrefix _ => some (.issued appID keyPrefix)
  | _ => none

/-- The events of writes that are made one after the other. -/
def events (appID : String) : AdminDatabase → List AppWrite → List AdminEvent
  | _, [] => []
  | db, w :: ws => (w.event appID db).toList ++ events appID (w.apply appID db) ws

structure AdminState where
  /-- The committed rows. -/
  db : AdminDatabase
  /-- The transactions, `none` once they have ended. -/
  txs : List (Option Tx)
  resolving : List ResolvePhase
  resolved : List RequesterIdentity
  log : List AdminEvent

def AdminState.new (db : AdminDatabase) : AdminState := ⟨db, [], [], [], []⟩

inductive AdminAction
  | create (createdBy : String) (body : Option CreateAppRequest)
  | patch (appID : String) (body : Option PatchAppRequest)
  | delete (appID : String)
  | purge (appID : String)
  | uiCreate (createdBy : String) (form : Form)
  | uiPatch (hasStore : Bool) (appID : String) (form : Form)
  | issueKey (form : IssueForm) (random : Randomness)
  | revokeKey (appID keyPrefix : String)
  /-- The next statement of the `n`-th transaction. -/
  | exec (n : ℕ)
  | commit (n : ℕ)
  /-- An error of the database, a timeout or a lost connection. -/
  | rollback (n : ℕ)
  | resolve (bearer : String)
  | lookupKey (n : ℕ)
  | loadCapabilities (n : ℕ)

namespace AdminState

variable (s : AdminState)

def start (tx : Tx) : AdminState := { s with txs := s.txs ++ [some tx] }

/-- A request that passed its checks starts its transaction. -/
def startIf (tx : Except AdminErr Tx) : AdminState :=
  match tx with
  | .error _ => s
  | .ok tx => s.start tx

/-- The open transactions other than the `n`-th. -/
def others (n : ℕ) : List Tx := (s.txs.set n none).filterMap id

def setTx (n : ℕ) (tx : Option Tx) : AdminState := { s with txs := s.txs.set n tx }

def setResolve (n : ℕ) (phase : ResolvePhase) : AdminState :=
  { s with resolving := s.resolving.set n phase }

end AdminState

def adminStep (argon : Argon2) (planner : Planner) (s : AdminState) :
    AdminAction → Option AdminState
  | .create createdBy body => some (s.startIf (Api.create createdBy body))
  | .patch appID body => some (s.startIf (Api.patch appID body))
  | .delete appID => some (s.start (Api.delete appID))
  | .purge appID => some (s.start (Api.purge appID))
  | .uiCreate createdBy form =>
      some (s.startIf (Api.create createdBy (some (handleAppCreate form))))
  | .uiPatch hasStore appID form =>
      match handleAppPatch planner (if hasStore then some s.db else none) appID form with
      | none => some s
      | some req => some (s.startIf (Api.patch appID (some req)))
  | .issueKey form random =>
      match handleKeyIssue form random with
      | .error _ => some s
      | .ok i => some (s.start (Api.issueKey argon i))
  | .revokeKey appID keyPrefix => some (s.start (Api.revokeKey appID keyPrefix))
  | .exec n =>
      match s.txs[n]? with
      | some (some tx) =>
          match tx.todo with
          | [] => none
          | stmt :: todo =>
              match execStmt s.db (s.others n) tx stmt with
              | .waits => none
              | .denied _ => some (s.setTx n none)
              | .done writes lock =>
                  some (s.setTx n (some { tx with
                    todo := todo, writes := tx.writes ++ writes, lock := lock }))
      | _ => none
  | .commit n =>
      match s.txs[n]? with
      | some (some tx) =>
          if tx.todo.isEmpty then
            some { s.setTx n none with
              db := tx.view s.db
              log := s.log ++ events tx.appID s.db tx.writes }
          else none
      | _ => none
  | .rollback n => some (s.setTx n none)
  | .resolve bearer =>
      match parseBearer bearer with
      | .error _ => some s
      | .ok keyPrefix => some { s with resolving := s.resolving ++ [.begun keyPrefix bearer] }
  | .lookupKey n =>
      match s.resolving[n]? with
      | some (.begun keyPrefix bearer) =>
          match Api.lookupKey argon planner s.db.keyView keyPrefix bearer with
          | none => some (s.setResolve n .ended)
          | some row => some (s.setResolve n (.matched s.db keyPrefix row))
      | _ => none
  | .loadCapabilities n =>
      match s.resolving[n]? with
      | some (.matched snapshot keyPrefix row) =>
          some { s.setResolve n .ended with
            resolved := s.resolved ++
              [{ appID := row.1.appID
                 capabilities := loadCapabilitiesTx snapshot.keyView row.1.appID
                 capabilitySetVer := row.2.capabilitySetVersion
                 keyPrefix := keyPrefix }] }
      | _ => none

end TelegramServer.Api

import TelegramServer.Auth.Capability
import TelegramServer.Go.Strconv
import TelegramServer.Go.Strings
import TelegramServer.Registry.Database

/-!
API keys: how the server resolves a bearer token (`internal/auth/store.go`), how
the admin UI issues and revokes keys (`internal/adminui/keys.go`, `keystore.go`)
and what the admin API does to the apps they belong to
(`internal/api/handlers/admin_apps.go`).

An issuance is a transaction of several statements on two tables, so it is a
sequence of steps here that others may come between. Postgres makes two of them
wait: an insert waits for an uncommitted row with the same prefix, and who locks an
app for a change waits for the uncommitted rows that refer to it. A step that waits
is not enabled. Every other transaction locks the row it changes and is one step.

The admin API checks more of a request than is said here (the name, the grade and
the capabilities of an app). These checks only refuse requests, and no result below
depends on a request being refused.
-/

namespace TelegramServer.Auth

open Go Lib Registry

/-! ### Bearer tokens -/

/-- `HashAPIKey` and `VerifyAPIKey`. A hash verifies the text it was made from and
no other. -/
structure Argon2 where
  hash : (salt : Bytes) → (cleartext : String) → String
  /-- `none` stands for an error: an encoding that is not one of `hash`. -/
  verify : (cleartext encoded : String) → Option Bool
  verify_hash : ∀ salt c c', verify c (hash salt c') = some (decide (c = c'))

inductive KeyErr
  | bearerMalformed | keyNotFound
  deriving DecidableEq

def bearerPrefix : String := "tg_"

def parseBearer (token : String) : Except KeyErr String :=
  if !hasPrefix token bearerPrefix then .error .bearerMalformed
  else
    match cut (trimPrefix token bearerPrefix) '_' with
    | none => .error .bearerMalformed
    | some (keyPrefix, secret) =>
        if keyPrefix = "" ∨ secret = "" then .error .bearerMalformed else .ok keyPrefix

/-! ### The tables -/

structure AppRecord where
  id : String
  active : Bool := true
  capabilitySetVersion : ℤ := 1

structure AppCapability where
  appID : String
  capability : Capability

def AppCapability.key (c : AppCapability) : String × Capability := (c.appID, c.capability)

structure KeyRow where
  appID : String
  keyHash : String
  keyPrefix : String
  label : String := ""
  /-- `revoked_at IS NOT NULL`. -/
  revoked : Bool := false

/-- The unique index of migration 0006 is the key of `keys`. -/
structure KeyDatabase where
  apps : Table AppRecord.id
  capabilities : Table AppCapability.key
  keys : Table KeyRow.keyPrefix

/-- The rows of the key lookup: `app_keys` joined with the active apps. -/
def keyQuery (db : KeyDatabase) (keyPrefix : String) : List (KeyRow × AppRecord) :=
  (db.keys.rows.filter fun k => k.keyPrefix = keyPrefix && !k.revoked).flatMap fun k =>
    (db.apps.rows.filter fun a => a.id = k.appID && a.active).map fun a => (k, a)

/-- `KeyStore.Resolve` on one snapshot. -/
def resolve (argon : Argon2) (planner : Planner) (db : KeyDatabase) (bearer : String) :
    Except KeyErr RequesterIdentity :=
  match parseBearer bearer with
  | .error err => .error err
  | .ok keyPrefix =>
      match (planner.arrange (keyQuery db keyPrefix)).find? fun row =>
          argon.verify bearer row.1.keyHash = some true with
      | none => .error .keyNotFound
      | some (k, a) =>
          .ok
            { appID := k.appID
              capabilities := (db.capabilities.rows.filter fun c => c.appID = k.appID).map
                AppCapability.capability
              capabilitySetVer := a.capabilitySetVersion
              keyPrefix := keyPrefix }

/-! ### Issuing a key -/

/-- `^[a-z0-9]{4,16}$`. -/
def matchesKeyPrefix (s : String) : Bool :=
  4 ≤ s.toList.length && s.toList.length ≤ 16 && s.toList.all isLowerAlnum

/-- `^[a-z0-9][a-z0-9_-]{2,63}$`. -/
def matchesAppID (s : String) : Bool :=
  match s.toList with
  | [] => false
  | c :: cs => isLowerAlnum c && 2 ≤ cs.length && cs.length ≤ 63 &&
      cs.all fun c => isLowerAlnum c || c == '_' || c == '-'

def keySecretBytes : ℕ := 24
def keyLabelMaxLen : ℕ := 100

/-- The randomness of one issuance. -/
structure Randomness where
  secret : Bytes
  salt : Bytes
  length_secret : secret.length = keySecretBytes

/-- A key that passed the checks of the form. -/
structure Issuance where
  appID : String
  keyPrefix : String
  label : String
  random : Randomness
  matches_keyPrefix : matchesKeyPrefix keyPrefix = true

def Issuance.plaintext (i : Issuance) : String :=
  "tg_" ++ i.keyPrefix ++ "_" ++ hexEncode i.random.secret

def Issuance.row (argon : Argon2) (i : Issuance) : KeyRow where
  appID := i.appID
  keyHash := argon.hash i.random.salt i.plaintext
  keyPrefix := i.keyPrefix
  label := i.label

structure IssueForm where
  appID : String
  keyPrefix : String
  label : String

/-- `handleKeyIssue` up to its call of `IssueKey`; an error is the message shown. -/
def handleKeyIssue (form : IssueForm) (random : Randomness) : Except String Issuance :=
  let appID := trimSpace form.appID
  let keyPrefix := trimSpace form.keyPrefix
  let label := trimSpace form.label
  if !matchesAppID appID then .error "앱 ID 형식이 올바르지 않습니다"
  else if hprefix : matchesKeyPrefix keyPrefix then
    if label.toList.length > keyLabelMaxLen then .error "label은 100자 이하여야 합니다"
    else .ok ⟨appID, keyPrefix, label, random, hprefix⟩
  else .error "prefix는 영소문자/숫자 4~16자여야 합니다"

/-! ### Transactions -/

/-- How far an issuance has got. -/
inductive IssuePhase
  | started (i : Issuance)
  | appChecked (i : Issuance)
  | prefixChecked (i : Issuance)
  /-- The row is written but not committed. -/
  | inserted (i : Issuance)
  | ended

def IssuePhase.pending : IssuePhase → Option Issuance
  | .inserted i => some i
  | _ => none

/-- What a committed transaction did to the keys. -/
inductive KeyEvent
  | issued (appID keyPrefix plaintext : String)
  | revoked (appID keyPrefix : String)
  | purged (appID : String)
  deriving DecidableEq

structure KeyState where
  db : KeyDatabase
  issuing : List IssuePhase
  history : List KeyEvent

/-- The rows that are written and not committed. -/
def KeyState.pending (s : KeyState) : List Issuance := s.issuing.filterMap IssuePhase.pending

inductive KeyAction
  | submit (form : IssueForm) (random : Randomness)
  | checkApp (n : ℕ)
  | checkPrefix (n : ℕ)
  | insert (n : ℕ)
  | commit (n : ℕ)
  | abort (n : ℕ)
  | revoke (appID keyPrefix : String)
  | createApp (appID : String) (capabilities : List Capability)
  | patchApp (appID : String) (active : Option Bool) (add remove : List Capability)
  | deleteApp (appID : String)
  | purgeApp (appID : String)

def KeyState.setPhase (s : KeyState) (n : ℕ) (phase : IssuePhase) : KeyState :=
  { s with issuing := s.issuing.set n phase }

def grant (caps : Table AppCapability.key) (appID : String) (add : List Capability) :
    Table AppCapability.key :=
  add.foldl (fun caps c => caps.insert ⟨appID, c⟩) caps

def KeyDatabase.updateApp (db : KeyDatabase) (appID : String) (active : Option Bool)
    (bump : Bool) : KeyDatabase :=
  { db with
    apps := db.apps.modify
      (fun a => if a.id = appID then
        { a with
          active := active.getD a.active
          capabilitySetVersion := a.capabilitySetVersion + if bump then 1 else 0 } else a)
      fun a => by split <;> rfl }

/-- `UPDATE app_keys SET revoked_at = now() WHERE …`. -/
def KeyDatabase.revokeKey (db : KeyDatabase) (appID keyPrefix : String) : KeyDatabase :=
  { db with
    keys := db.keys.modify
      (fun k => if k.keyPrefix = keyPrefix ∧ k.appID = appID then { k with revoked := true } else k)
      fun k => by split <;> rfl }

/-- `DELETE FROM apps`, with the rows that refer to the app. -/
def KeyDatabase.purgeApp (db : KeyDatabase) (appID : String) : KeyDatabase where
  apps := db.apps.keep fun a => a.id ≠ appID
  capabilities := db.capabilities.keep fun c => c.appID ≠ appID
  keys := db.keys.keep fun k => k.appID ≠ appID

/-- Somebody's uncommitted key holds the app's row. -/
def KeyState.appLocked (s : KeyState) (appID : String) : Bool :=
  s.pending.any fun i => i.appID = appID

def keyStep (argon : Argon2) (s : KeyState) : KeyAction → Option KeyState
  | .submit form random =>
      match handleKeyIssue form random with
      | .error _ => some s
      | .ok i => some { s with issuing := s.issuing ++ [.started i] }
  | .checkApp n =>
      match s.issuing[n]? with
      | some (.started i) =>
          match s.db.apps.find? i.appID with
          | some a => some (s.setPhase n (if a.active then .appChecked i else .ended))
          | none => some (s.setPhase n .ended)
      | _ => none
  | .checkPrefix n =>
      match s.issuing[n]? with
      | some (.appChecked i) =>
          some (s.setPhase n
            (if (s.db.keys.find? i.keyPrefix).isSome then .ended else .prefixChecked i))
      | _ => none
  | .insert n =>
      match s.issuing[n]? with
      | some (.prefixChecked i) =>
          if s.pending.any fun j => j.keyPrefix = i.keyPrefix then none
          -- the unique index and the foreign key
          else if (s.db.keys.find? i.keyPrefix).isSome || (s.db.apps.find? i.appID).isNone then
            some (s.setPhase n .ended)
          else some (s.setPhase n (.inserted i))
      | _ => none
  | .commit n =>
      match s.issuing[n]? with
      | some (.inserted i) =>
          some
            { db := { s.db with keys := s.db.keys.insert (i.row argon) }
              issuing := s.issuing.set n .ended
              history := s.history ++ [.issued i.appID i.keyPrefix i.plaintext] }
      | _ => none
  | .abort n => some (s.setPhase n .ended)
  | .revoke appID keyPrefix =>
      -- no row affected: `ErrKeyNotFound`
      if s.db.keys.rows.any fun k => k.keyPrefix = keyPrefix && k.appID = appID && !k.revoked then
        some { s with
          db := s.db.revokeKey appID keyPrefix
          history := s.history ++ [.revoked appID keyPrefix] }
      else some s
  | .createApp appID capabilities =>
      if !matchesAppID appID || (s.db.apps.find? appID).isSome then some s
      else
        some { s with db := { s.db with
          apps := s.db.apps.insert { id := appID }
          capabilities := grant s.db.capabilities appID capabilities } }
  | .patchApp appID active add remove =>
      if (s.db.apps.find? appID).isNone then some s
      else if s.appLocked appID then none
      else
        let db := s.db.updateApp appID active (add ≠ [] || remove ≠ [])
        some { s with db := { db with
          capabilities := (grant db.capabilities appID add).keep fun c =>
            !(c.appID = appID && remove.contains c.capability) } }
  | .deleteApp appID =>
      if s.appLocked appID then none
      else some { s with db := s.db.updateApp appID (some false) true }
  | .purgeApp appID =>
      if s.appLocked appID then none
      else if (s.db.apps.find? appID).isNone then some s
      else some { s with
        db := s.db.purgeApp appID, history := s.history ++ [.purged appID] }

end TelegramServer.Auth

import TelegramServer.Audit.Payload
import TelegramServer.Auth.KeyStore
import TelegramServer.Go.Url
import TelegramServer.Lib.Grouping

/-!
The console for API keys (`internal/adminui/keys.go`, `internal/adminui/keystore.go`): its page,
which lists the keys by app and by status, and the requests that issue, revoke and rename them.

The columns of `app_keys` are those the console reads; that the hash of a token is stored, and that
the token is accepted while the row is not revoked, is in `KeyStore`. So are the single steps of the
transaction that issues a key. Here it is one step, its commit: the app is as the transaction has
read it, and the unique index has the last word. `KeysRefinement` compares the two. The database is
taken to answer, and the audit events of the console are left out.
-/

namespace TelegramServer.Adminui

open Go Lib Audit
open Auth (AppRecord IssueForm Issuance Randomness matchesAppID matchesKeyPrefix keyLabelMaxLen)

/-! ### The table -/

/-- A row of `app_keys`. -/
structure KeyEntry where
  id : ℕ
  appID : String
  keyPrefix : String
  label : String
  createdAt : Time
  revokedAt : Option Time := none
  deriving DecidableEq

/-- The keys are sorted by this, the newest first. -/
def KeyEntry.order (k : KeyEntry) : Time ×ₗ ℕ := toLex (k.createdAt, k.id)

/-- The unique index of migration 0006 is the key of `keys`. -/
structure KeyTable where
  keys : Table KeyEntry.keyPrefix
  nextID : ℕ

/-- `WHERE key_prefix = … AND app_id = … AND revoked_at IS NULL`. -/
def KeyEntry.isLive (appID keyPrefix : String) (k : KeyEntry) : Bool :=
  k.keyPrefix = keyPrefix && k.appID = appID && k.revokedAt.isNone

/-- The errors of `IssueKey`. -/
inductive IssueErr
  | appNotFound | appInactive | prefixTaken

namespace KeyTable

/-- An `UPDATE` of a key that is not revoked; if there is none, `ErrKeyNotFound`. -/
def updateLive (t : KeyTable) (appID keyPrefix : String) (f : KeyEntry → KeyEntry)
    (hf : ∀ k, (f k).keyPrefix = k.keyPrefix) : Option KeyTable :=
  if t.keys.rows.any (KeyEntry.isLive appID keyPrefix) then
    some { t with
      keys := t.keys.modify (fun k => if k.isLive appID keyPrefix then f k else k)
        fun k => by split <;> simp [hf] }
  else none

def revokeKey (t : KeyTable) (now : Time) (appID keyPrefix : String) : Option KeyTable :=
  t.updateLive appID keyPrefix (fun k => { k with revokedAt := some now }) fun _ => rfl

def updateKeyLabel (t : KeyTable) (appID keyPrefix label : String) : Option KeyTable :=
  t.updateLive appID keyPrefix (fun k => { k with label := label }) fun _ => rfl

/-- `IssueKey`, where `apps` is the table that its first statement reads. -/
def issueKey (t : KeyTable) (apps : Table AppRecord.id) (i : Issuance) (createdAt : Time) :
    Except IssueErr KeyTable :=
  match apps.find? i.appID with
  | none => .error .appNotFound
  | some a =>
      if !a.active then .error .appInactive
      else if i.keyPrefix ∈ t.keys.keys then .error .prefixTaken
      else
        .ok {
          keys := t.keys.insert ⟨t.nextID, i.appID, i.keyPrefix, i.label, createdAt, none⟩
          nextID := t.nextID + 1 }

/-- The keys of an app go with it. -/
def purgeApp (t : KeyTable) (appID : String) : KeyTable :=
  { t with keys := t.keys.keep fun k => k.appID ≠ appID }

/-- `ListKeys`: `ORDER BY created_at DESC, id DESC`. -/
def listKeys (t : KeyTable) (appID : String) : List KeyEntry :=
  descending KeyEntry.order (t.keys.rows.filter fun k => appID = "" || k.appID = appID)

end KeyTable

/-! ### The requests -/

/-- What a request comes to: the banner of an error, or the table and what the operator gets. -/
abbrev ConsoleResult := Except String (KeyTable × String)

def issueErrorMessage : IssueErr → String
  | .appNotFound => "앱을 찾을 수 없습니다"
  | .appInactive => "비활성화된 앱에는 키를 발급할 수 없습니다"
  | .prefixTaken => "이미 사용 중인 prefix입니다"

/-- `handleKeyIssue`. The operator gets the token. -/
def submitIssue (t : KeyTable) (apps : Table AppRecord.id) (form : IssueForm) (random : Randomness)
    (createdAt : Time) : ConsoleResult :=
  match Auth.handleKeyIssue form random with
  | .error message => .error message
  | .ok i =>
      match t.issueKey apps i createdAt with
      | .error err => .error (issueErrorMessage err)
      | .ok t => .ok (t, i.plaintext)

def handleKeyRevoke (t : KeyTable) (now : Time) (appID keyPrefix confirm : String) :
    ConsoleResult :=
  if !matchesAppID appID then .error "앱 ID 형식이 올바르지 않습니다"
  else if !matchesKeyPrefix keyPrefix then .error "prefix 형식이 올바르지 않습니다"
  else if confirm ≠ "1" then .error "폐기하려면 확인 단계를 거쳐야 합니다"
  else
    match t.revokeKey now appID keyPrefix with
    | none => .error "이미 폐기되었거나 존재하지 않는 키입니다"
    | some t => .ok (t, "/keys?revoked=1")

def handleKeyLabel (t : KeyTable) (appID keyPrefix label : String) : ConsoleResult :=
  if !matchesAppID appID then .error "앱 ID 형식이 올바르지 않습니다"
  else if !matchesKeyPrefix keyPrefix then .error "prefix 형식이 올바르지 않습니다"
  else if (trimSpace label).toList.length > keyLabelMaxLen then
    .error "label은 100자 이하여야 합니다"
  else
    match t.updateKeyLabel appID keyPrefix (trimSpace label) with
    | none => .error "이미 폐기되었거나 존재하지 않는 키입니다"
    | some t => .ok (t, "/keys?labeled=1")

inductive ConsoleAction
  | issue (apps : Table AppRecord.id) (form : IssueForm) (random : Randomness) (createdAt : Time)
  | revoke (appID keyPrefix confirm : String) (now : Time)
  | label (appID keyPrefix label : String)
  | purgeApp (appID : String)

/-- The table after a request, which is the old one after an error. -/
def settle (t : KeyTable) : ConsoleResult → KeyTable
  | .ok (t, _) => t
  | .error _ => t

def consoleStep (t : KeyTable) : ConsoleAction → KeyTable
  | .issue apps form random createdAt => settle t (submitIssue t apps form random createdAt)
  | .revoke appID keyPrefix confirm now => settle t (handleKeyRevoke t now appID keyPrefix confirm)
  | .label appID keyPrefix label => settle t (handleKeyLabel t appID keyPrefix label)
  | .purgeApp appID => t.purgeApp appID

def runConsole (t : KeyTable) (actions : List ConsoleAction) : KeyTable :=
  actions.foldl consoleStep t

/-! ### The page -/

inductive KeysGrouping
  | key | app
  deriving DecidableEq

inductive KeysStatus
  | active | revoked | all
  deriving DecidableEq

structure KeysView where
  group : KeysGrouping
  status : KeysStatus
  app : String
  showNew : Bool

/-- The filters `keysPageData` reads from the request. -/
def readKeysView (q : QueryValues) : KeysView where
  group := if q.get (utf8 "group") = utf8 "app" then .app else .key
  status :=
    if q.get (utf8 "status") = utf8 "revoked" then .revoked
    else if q.get (utf8 "status") = utf8 "all" then .all
    else .active
  -- bytes that are no text are no id of an app either
  app := ((fromUtf8 (q.get (utf8 "app"))).filter fun app => matchesAppID app).getD ""
  showNew := q.get (utf8 "new") ≠ []

def filterKeysByStatus (keys : List KeyEntry) (status : KeysStatus) : List KeyEntry :=
  if status = .all then keys
  else
    let wantRevoked := decide (status = .revoked)
    keys.filter fun k => k.revokedAt.isSome == wantRevoked

structure KeyGroup where
  appID : String
  keys : List KeyEntry

/-- The state of the loop of `groupKeysByApp`. -/
structure GroupIndex where
  index : String → Option ℕ
  groups : List KeyGroup

/-- The position of the app's group, which is made if there is none. -/
def GroupIndex.position (s : GroupIndex) (appID : String) : ℕ × GroupIndex :=
  match s.index appID with
  | some i => (i, s)
  | none =>
      (s.groups.length,
        { index := Function.update s.index appID (some s.groups.length)
          groups := s.groups ++ [⟨appID, []⟩] })

def GroupIndex.add (s : GroupIndex) (k : KeyEntry) : GroupIndex :=
  let (i, s) := s.position k.appID
  { s with groups := s.groups.modify i fun g => { g with keys := g.keys ++ [k] } }

def groupKeysByApp (keys : List KeyEntry) : List KeyGroup :=
  (keys.foldl GroupIndex.add ⟨fun _ => none, []⟩).groups

structure KeysPage where
  view : KeysView
  keys : List KeyEntry
  keyGroups : List KeyGroup := []

def keysPageData (t : KeyTable) (view : KeysView) : KeysPage :=
  let keys := filterKeysByStatus (t.listKeys view.app) view.status
  { view := view
    keys := keys
    keyGroups := if view.group = .app then groupKeysByApp keys else [] }

/-! ### The groups -/

section Groups

variable {keys seen : List KeyEntry} {s : GroupIndex} {k : KeyEntry}

def groupOf (keys : List KeyEntry) (k : KeyEntry) : KeyGroup where
  appID := k.appID
  keys := keys.filter fun k' => k'.appID = k.appID

/-- What the loop has made of the keys it has seen. -/
structure GroupIndex.Of (seen : List KeyEntry) (s : GroupIndex) : Prop where
  groups : s.groups = (distinctOn KeyEntry.appID seen).map (groupOf seen)
  index : ∀ app i, s.index app = some i ↔ s.groups[i]?.map KeyGroup.appID = some app

theorem GroupIndex.Of.appIDs (h : s.Of seen) :
    s.groups.map KeyGroup.appID = (distinctOn KeyEntry.appID seen).map KeyEntry.appID := by
  rw [h.groups, List.map_map]
  rfl

theorem GroupIndex.Of.isSome_index (h : s.Of seen) (app : String) :
    (s.index app).isSome ↔ ∃ k ∈ seen, k.appID = app := by
  have hmem : (s.index app).isSome ↔ app ∈ s.groups.map KeyGroup.appID := by
    rw [Option.isSome_iff_exists, List.mem_iff_getElem?]
    simp only [h.index, List.getElem?_map]
  rw [hmem, h.appIDs, List.mem_map]
  constructor
  · rintro ⟨k, hk, rfl⟩
    exact ⟨k, mem_of_mem_distinctOn hk, rfl⟩
  · rintro ⟨k, hk, rfl⟩
    exact exists_mem_distinctOn hk

/-- A key whose app has a group goes to the end of it. -/
theorem GroupIndex.Of.add_known (h : s.Of seen) {i : ℕ} (hi : s.index k.appID = some i) :
    (s.add k).Of (seen ++ [k]) := by
  have hknown : ∃ a ∈ seen, a.appID = k.appID :=
    (h.isSome_index k.appID).mp (by rw [hi]; rfl)
  have hadd : s.add k = { s with
      groups := s.groups.modify i fun g => { g with keys := g.keys ++ [k] } } := by
    rw [GroupIndex.add, GroupIndex.position, hi]
  have happs : (s.add k).groups.map KeyGroup.appID = s.groups.map KeyGroup.appID := by
    rw [hadd]
    refine List.ext_getElem? fun j => ?_
    simp only [List.getElem?_map, List.getElem?_modify]
    cases s.groups[j]? with
    | none => rfl
    | some g => by_cases hj : i = j <;> simp [hj]
  refine ⟨?_, fun app j => ?_⟩
  · rw [hadd, distinctOn_concat, if_pos hknown, List.append_nil]
    refine List.ext_getElem? fun j => ?_
    have hgroup := congrArg (fun l : List KeyGroup => l[j]?) h.groups
    simp only [List.getElem?_map] at hgroup
    simp only [List.getElem?_modify, List.getElem?_map, hgroup]
    cases hj : (distinctOn KeyEntry.appID seen)[j]? with
    | none => simp
    | some a =>
        -- only the group at `i` has the app of `k`
        have hsame : i = j ↔ k.appID = a.appID := by
          have happ : s.groups[j]?.map KeyGroup.appID = some a.appID := by
            rw [hgroup, hj]
            rfl
          constructor
          · rintro rfl
            exact Option.some.inj (((h.index _ _).mp hi).symm.trans happ)
          · intro heq
            exact Option.some.inj (hi.symm.trans ((h.index _ _).mpr (heq ▸ happ)))
        by_cases hkey : k.appID = a.appID
        · simp [hsame.mpr hkey, groupOf, hkey]
        · simp [mt hsame.mp hkey, groupOf, hkey]
  · have hindex : (s.add k).index = s.index := by rw [hadd]
    rw [hindex, h.index, ← List.getElem?_map, ← List.getElem?_map, happs]

theorem modify_concat (groups : List KeyGroup) (g : KeyGroup) (f : KeyGroup → KeyGroup) :
    (groups ++ [g]).modify groups.length f = groups ++ [f g] := by
  induction groups with
  | nil => rfl
  | cons g' groups ih => simp [ih]

theorem appID_concat (groups : List KeyGroup) (g : KeyGroup) (i : ℕ) :
    (groups ++ [g])[i]?.map KeyGroup.appID =
      if i = groups.length then some g.appID else groups[i]?.map KeyGroup.appID := by
  split
  · next hi => simp [hi]
  · next hi =>
      obtain hlt | hgt := Nat.lt_or_gt_of_ne hi
      · rw [List.getElem?_append_left hlt]
      · rw [List.getElem?_eq_none (by simpa using hgt), List.getElem?_eq_none hgt.le]

/-- A key of an app without a group opens one. -/
theorem GroupIndex.Of.add_new (h : s.Of seen) (hi : s.index k.appID = none) :
    (s.add k).Of (seen ++ [k]) := by
  have hnew : ¬∃ a ∈ seen, a.appID = k.appID := by
    rw [← h.isSome_index, hi]
    simp
  have hadd : s.add k = {
      index := Function.update s.index k.appID (some s.groups.length)
      groups := s.groups ++ [⟨k.appID, [k]⟩] } := by
    rw [GroupIndex.add, GroupIndex.position, hi]
    simp only [modify_concat, List.nil_append]
  refine ⟨?_, fun app i => ?_⟩
  · have hgroups : (s.add k).groups = s.groups ++ [⟨k.appID, [k]⟩] := by rw [hadd]
    rw [hgroups, distinctOn_concat, if_neg hnew, List.map_append, h.groups]
    congr 1
    · refine List.map_congr_left fun a ha => ?_
      have hne : ¬k.appID = a.appID := fun heq => hnew ⟨a, mem_of_mem_distinctOn ha, heq.symm⟩
      simp [groupOf, hne]
    · have hnone : seen.filter (fun a => a.appID = k.appID) = [] :=
        List.filter_eq_nil_iff.mpr fun a ha heq => hnew ⟨a, ha, of_decide_eq_true heq⟩
      simp [groupOf, hnone]
  · rw [hadd]
    simp only [appID_concat, Function.update_apply]
    by_cases happ : app = k.appID <;> by_cases hlast : i = s.groups.length
    · simp [happ, hlast]
    · simp only [happ, hlast, if_true, if_false, ← h.index, hi, Option.some.injEq, reduceCtorEq,
        iff_false]
      exact Ne.symm hlast
    · simp only [happ, hlast, if_true, if_false, h.index, Option.some.injEq, Ne.symm happ,
        iff_false]
      simp
    · simp only [happ, hlast, if_false, h.index]

theorem of_foldl_add (hs : s.Of seen) (keys : List KeyEntry) :
    (keys.foldl GroupIndex.add s).Of (seen ++ keys) := by
  induction keys generalizing s seen with
  | nil => simpa using hs
  | cons k keys ih =>
      have hstep : (s.add k).Of (seen ++ [k]) := by
        cases hi : s.index k.appID with
        | none => exact hs.add_new hi
        | some i => exact hs.add_known hi
      simpa using ih hstep

/-- The groups come in the order in which the apps are first seen. -/
theorem groupKeysByApp_eq (keys : List KeyEntry) :
    groupKeysByApp keys = (distinctOn KeyEntry.appID keys).map (groupOf keys) := by
  have hempty : GroupIndex.Of [] ⟨fun _ => none, []⟩ := ⟨rfl, by simp⟩
  exact (of_foldl_add hempty keys).groups

/-- The keys of a page by app. -/
structure GroupsOf (keys : List KeyEntry) (groups : List KeyGroup) : Prop where
  apps : (groups.map KeyGroup.appID).Nodup
  covers : ∀ k ∈ keys, k.appID ∈ groups.map KeyGroup.appID
  keys : ∀ g ∈ groups, g.keys ≠ [] ∧ g.keys = keys.filter fun k => k.appID = g.appID
  /-- The app with the newest key is first. -/
  ordered : groups.Pairwise fun g g' => ∀ k' ∈ g'.keys, ∃ k ∈ g.keys, k'.order ≤ k.order

theorem groupsOf_groupKeysByApp (hkeys : keys.Pairwise fun k k' => k'.order ≤ k.order) :
    GroupsOf keys (groupKeysByApp keys) := by
  have happs : (groupKeysByApp keys).map KeyGroup.appID =
      (distinctOn KeyEntry.appID keys).map KeyEntry.appID := by
    rw [groupKeysByApp_eq, List.map_map]
    rfl
  refine ⟨?_, fun k hk => ?_, fun g hg => ?_, ?_⟩
  · rw [happs]
    exact nodup_distinctOn
  · rw [happs]
    obtain ⟨a, ha, heq⟩ : ∃ a ∈ distinctOn KeyEntry.appID keys, a.appID = k.appID :=
      exists_mem_distinctOn hk
    exact heq ▸ List.mem_map_of_mem ha
  · rw [groupKeysByApp_eq] at hg
    obtain ⟨a, ha, rfl⟩ := List.mem_map.mp hg
    exact ⟨List.ne_nil_of_mem (a := a)
      (List.mem_filter.mpr ⟨mem_of_mem_distinctOn ha, decide_eq_true rfl⟩), rfl⟩
  · rw [groupKeysByApp_eq, List.pairwise_map]
    have hfirst := hkeys.sublist (distinctOn_sublist KeyEntry.appID keys)
    refine hfirst.imp_of_mem fun {a b} ha hb hle k' hk' => ?_
    -- the first key of each group is its newest
    obtain ⟨hk', happ⟩ := List.mem_filter.mp hk'
    have hgroup : keys.Pairwise fun k k' => k.appID = k'.appID → k'.order ≤ k.order := by
      refine hkeys.imp ?_
      intro k k' hle _
      exact hle
    have hrefl (k : KeyEntry) : k.order ≤ k.order := le_rfl
    have hnewest := rel_of_mem_distinctOn hrefl hgroup hb hk' (of_decide_eq_true happ).symm
    exact ⟨a, List.mem_filter.mpr ⟨mem_of_mem_distinctOn ha, decide_eq_true rfl⟩,
      hnewest.trans hle⟩

end Groups

/-! ### What a page shows -/

def KeysStatus.admits : KeysStatus → KeyEntry → Bool
  | .active, k => k.revokedAt.isNone
  | .revoked, k => k.revokedAt.isSome
  | .all, _ => true

theorem filterKeysByStatus_eq (keys : List KeyEntry) (status : KeysStatus) :
    filterKeysByStatus keys status = keys.filter status.admits := by
  cases status with
  | all => exact (List.filter_eq_self.mpr fun _ _ => rfl).symm
  | active =>
      refine List.filter_congr fun k _ => ?_
      simp only [KeysStatus.admits]
      cases k.revokedAt <;> rfl
  | revoked =>
      refine List.filter_congr fun k _ => ?_
      simp only [KeysStatus.admits]
      cases k.revokedAt <;> rfl

/-- The page has the keys that its filters ask for, and no others. -/
structure KeysListed (t : KeyTable) (page : KeysPage) : Prop where
  mem : ∀ k, k ∈ page.keys ↔ k ∈ t.keys.rows ∧ (page.view.app = "" ∨ k.appID = page.view.app) ∧
    page.view.status.admits k = true
  once : (page.keys.map KeyEntry.keyPrefix).Nodup
  newestFirst : page.keys.Pairwise fun k k' => k'.order ≤ k.order
  grouped : page.view.group = .app → GroupsOf page.keys page.keyGroups

theorem keysListed (t : KeyTable) (view : KeysView) : KeysListed t (keysPageData t view) := by
  have hsub : (filterKeysByStatus (t.listKeys view.app) view.status).Sublist
      (t.listKeys view.app) := by
    rw [filterKeysByStatus_eq]
    exact List.filter_sublist
  have hsorted := (pairwise_le_descending _ _).sublist hsub
  refine ⟨fun k => ?_, ?_, hsorted, fun hgroup => ?_⟩
  · simp only [keysPageData, filterKeysByStatus_eq, KeyTable.listKeys, List.mem_filter,
      mem_descending, Bool.or_eq_true, decide_eq_true_eq, and_assoc]
  · have hrows : ((t.listKeys view.app).map KeyEntry.keyPrefix).Nodup :=
      ((descending_perm _ _).map _).nodup_iff.mpr
        (t.keys.nodup.sublist (List.filter_sublist.map _))
    exact hrows.sublist (hsub.map _)
  · have hgroups : (keysPageData t view).keyGroups = groupKeysByApp (keysPageData t view).keys :=
      if_pos hgroup
    rw [hgroups]
    exact groupsOf_groupKeysByApp hsorted

/-- **The page lists the keys.** Whatever the query of a request is, the page has each key of the
app and the status it names exactly once, the newest first, and by app it has the same keys, in one
group for each app. -/
theorem keysPage_exact (t : KeyTable) (query : Bytes) :
    KeysListed t (keysPageData t (readKeysView (parseQuery query))) :=
  keysListed t _

/-! ### Revocations -/

section Revocation

variable {t t' : KeyTable} {k : KeyEntry} {now : Time} {appID keyPrefix : String}

end Revocation

end TelegramServer.Adminui

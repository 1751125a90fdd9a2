import TelegramServer.Api.AdminApps

/-!
What the pieces of a transaction do. A write is described by what it does to the row
of its app and to the capabilities, and a statement by what it has found and what it
writes.
-/

namespace TelegramServer.Api

open Lib Registry Auth

/-! ### What a write does -/

namespace AdminDatabase

variable (db : AdminDatabase) (a : String)

def version : Option ℤ := (db.apps.find? a).map fun row => row.capabilitySetVersion

/-- The pair is in `app_capabilities`. -/
def Grants (c : Capability) : Prop := (a, c) ∈ db.capabilities.keys

theorem hasApp_iff : db.HasApp a ↔ (db.version a).isSome := by
  simp [version, HasApp]

theorem find?_updateApp (appID : String) (f : AppEntry → AppEntry)
    (hf : ∀ row, (f row).key = row.key) :
    (db.updateApp appID f hf).apps.find? a =
      if a = appID then (db.apps.find? a).map f else db.apps.find? a := by
  simp only [updateApp, Table.find?_modify]
  cases hrow : db.apps.find? a with
  | none => simp
  | some row =>
      have hid : row.id = a := (Table.find?_eq_some.mp hrow).2
      by_cases ha : a = appID <;> simp [hid, ha]

end AdminDatabase

namespace AppWrite

variable {db : AdminDatabase} {a appID : String} {c : Capability} {w : AppWrite}

def bumps : AppWrite → Bool
  | .bumpVersion => true
  | _ => false

def changesCapabilities (w : AppWrite) : Bool := w.capability.isSome

/-- A write to rows that refer to the app. -/
def refers : AppWrite → Bool
  | .insertCapability _ | .deleteCapability _ | .insertKey _ _ _ | .revokeKey _ => true
  | _ => false

def versionAfter (v : Option ℤ) : AppWrite → Option ℤ
  | .insertApp _ _ _ _ => v.or (some 1)
  | .bumpVersion => v.map (· + 1)
  | .deleteApp => none
  | _ => v

/-- What a write makes of the row of its app. -/
def rowAfter (appID : String) (row : Option AppEntry) : AppWrite → Option AppEntry
  | .insertApp name description minGrade createdBy =>
      row.or (some
        { id := appID, name := name, description := description, minGrade := minGrade,
          active := true, capabilitySetVersion := 1, createdBy := createdBy })
  | .setDescription d => row.map fun a => { a with description := d }
  | .setMinGrade g => row.map fun a => { a with minGrade := g }
  | .setActive b => row.map fun a => { a with active := b }
  | .bumpVersion => row.map fun a => { a with capabilitySetVersion := a.capabilitySetVersion + 1 }
  | .deleteApp => none
  | _ => row

theorem neither_of_refers (h : w.refers = true) : w.insertsApp = false ∧ w.deletesApp = false := by
  cases w <;> simp_all [refers, insertsApp, deletesApp]

theorem find?_apply (w : AppWrite) :
    (w.apply appID db).apps.find? a =
      if a = appID then w.rowAfter appID (db.apps.find? a) else db.apps.find? a := by
  cases w with
  | insertApp name description minGrade createdBy =>
      simp only [apply, AdminDatabase.insertApp, Table.find?_insert, AppEntry.key, rowAfter,
        eq_comm (a := appID)]
      by_cases ha : a = appID <;> simp [ha]
  | deleteApp => exact Table.find?_keep_ne db.apps appID a
  | setDescription | setMinGrade | setActive | bumpVersion =>
      exact AdminDatabase.find?_updateApp db a appID _ (by intro; rfl)
  | insertCapability | insertKey =>
      simp only [apply, AdminDatabase.insertCapability, AdminDatabase.insertKey, rowAfter, ite_self]
      split <;> rfl
  | deleteCapability | revokeKey =>
      simp only [rowAfter, ite_self]
      rfl

theorem version_rowAfter (row : Option AppEntry) (w : AppWrite) :
    (w.rowAfter appID row).map (·.capabilitySetVersion) =
      w.versionAfter (row.map (·.capabilitySetVersion)) := by
  cases w <;> cases row <;> rfl

theorem version_apply (w : AppWrite) :
    (w.apply appID db).version a =
      if a = appID then w.versionAfter (db.version a) else db.version a := by
  rw [AdminDatabase.version, find?_apply]
  split
  · exact version_rowAfter _ w
  · rfl

theorem hasApp_of_apply (h : (w.apply appID db).HasApp a) :
    db.HasApp a ∨ a = appID ∧ w.insertsApp = true := by
  rw [AdminDatabase.hasApp_iff, version_apply] at h
  rw [AdminDatabase.hasApp_iff]
  split at h
  · next ha => cases w <;> simp_all [versionAfter, insertsApp]
  · exact .inl h

theorem hasApp_apply (hw : a = appID → w.deletesApp = false) (h : db.HasApp a) :
    (w.apply appID db).HasApp a := by
  rw [AdminDatabase.hasApp_iff] at h ⊢
  rw [version_apply]
  split
  · next ha => cases w <;> simp_all [versionAfter, deletesApp]
  · exact h

theorem grants_apply_of_ne (hne : a ≠ appID) :
    (w.apply appID db).Grants a c ↔ db.Grants a c := by
  cases w with
  | insertCapability c' =>
      simp only [apply, AdminDatabase.insertCapability]
      split
      · simp [AdminDatabase.Grants, Table.mem_keys_insert_iff, AppCapability.key, hne]
      · rfl
  | deleteCapability c' =>
      simp only [apply, AdminDatabase.deleteCapability, AdminDatabase.Grants,
        Table.mem_keys_keep_ne]
      simp [hne]
  | deleteApp =>
      simp only [apply, AdminDatabase.deleteApp, AdminDatabase.Grants, Table.keys, Table.keep,
        List.mem_map, List.mem_filter, AppCapability.key, Prod.mk.injEq]
      constructor
      · rintro ⟨r, ⟨hr, -⟩, hkey⟩
        exact ⟨r, hr, hkey⟩
      · rintro ⟨r, hr, rfl, rfl⟩
        exact ⟨r, ⟨hr, by simpa using hne⟩, rfl, rfl⟩
  | insertKey =>
      simp only [apply, AdminDatabase.insertKey]
      split <;> rfl
  | _ => rfl

theorem grants_apply_of_quiet (hchange : w.changesCapabilities = false)
    (hdelete : w.deletesApp = false) :
    (w.apply appID db).Grants a c ↔ db.Grants a c := by
  cases w with
  | insertCapability | deleteCapability => simp [changesCapabilities, capability] at hchange
  | deleteApp => simp [deletesApp] at hdelete
  | insertKey =>
      simp only [apply, AdminDatabase.insertKey]
      split <;> rfl
  | _ => rfl

/-- What a write makes of a capability of its app. -/
def grantAfter (c : Capability) (granted : Prop) : AppWrite → Prop
  | .insertCapability c' => granted ∨ c = c'
  | .deleteCapability c' => granted ∧ c ≠ c'
  | _ => granted

theorem grants_apply (happ : db.HasApp appID) (hdelete : w.deletesApp = false) :
    (w.apply appID db).Grants appID c ↔ w.grantAfter c (db.Grants appID c) := by
  cases w with
  | insertCapability c' =>
      simp only [apply, AdminDatabase.insertCapability, dif_pos happ, AdminDatabase.Grants,
        Table.mem_keys_insert_iff, AppCapability.key, Prod.mk.injEq, true_and, grantAfter]
  | deleteCapability c' =>
      simp only [apply, AdminDatabase.deleteCapability, AdminDatabase.Grants,
        Table.mem_keys_keep_ne, ne_eq, Prod.mk.injEq, true_and, grantAfter]
  | deleteApp => cases hdelete
  | _ => exact grants_apply_of_quiet rfl rfl

/-- A write to the keys. It is the only one of its transaction. -/
def lone : AppWrite → Bool
  | .deleteApp | .insertKey _ _ _ | .revokeKey _ => true
  | _ => false

theorem keys_apply (hw : w.lone = false) : (w.apply appID db).keys = db.keys := by
  cases w with
  | deleteApp | insertKey | revokeKey => cases hw
  | insertCapability =>
      simp only [apply, AdminDatabase.insertCapability]
      split <;> rfl
  | _ => rfl

theorem keys_apply_revokeKey (keyPrefix : String) :
    ((revokeKey keyPrefix).apply appID db).keys.keys = db.keys.keys :=
  Table.keys_modify _ _ (keyPrefix_revokeRow appID _)

theorem mem_keys_apply {p : String} (h : p ∈ (w.apply appID db).keys.keys) :
    p ∈ db.keys.keys ∨ w.newPrefix = some p := by
  cases w with
  | deleteApp =>
      obtain ⟨k, hk, hkey⟩ := List.mem_map.mp h
      exact .inl (List.mem_map.mpr ⟨k, List.mem_of_mem_filter hk, hkey⟩)
  | insertKey =>
      simp only [apply, AdminDatabase.insertKey] at h
      split at h
      · exact (Table.mem_keys_insert_iff.mp h).imp_right fun hp => congrArg some hp.symm
      · exact .inl h
  | revokeKey =>
      rw [keys_apply_revokeKey] at h
      exact .inl h
  | _ =>
      rw [keys_apply (by rfl)] at h
      exact .inl h

/-- Writes that do not delete the app count its version up. -/
theorem foldl_versionAfter {ws : List AppWrite} (hws : ws.any deletesApp = false) (v : ℤ) :
    ws.foldl versionAfter (some v) = some (v + ws.countP bumps) := by
  induction ws generalizing v with
  | nil => simp
  | cons w ws ih =>
      rw [List.any_cons, Bool.or_eq_false_iff] at hws
      rw [List.foldl_cons]
      cases w with
      | bumpVersion =>
          simp only [versionAfter, Option.map_some, ih hws.2, List.countP_cons, bumps]
          push_cast
          ring_nf
      | deleteApp => simp [deletesApp] at hws
      | _ => simp [versionAfter, bumps, ih hws.2]

end AppWrite

namespace Tx

variable {tx : Tx} {db : AdminDatabase} {a : String} {c : Capability}

def refers (tx : Tx) : Bool := tx.writes.any AppWrite.refers

def changesCapabilities (tx : Tx) : Bool := tx.writes.any AppWrite.changesCapabilities

/-- What every write of the transaction keeps. -/
theorem view_rec {P : AdminDatabase → Prop} (hdb : P db)
    (hwrite : ∀ db' w, w ∈ tx.writes → P db' → P (w.apply tx.appID db')) : P (tx.view db) :=
  List.foldlRecOn tx.writes _ hdb fun db' h w hw => hwrite db' w hw h

theorem version_view_of_ne (hne : a ≠ tx.appID) : (tx.view db).version a = db.version a := by
  refine view_rec (P := fun db' => db'.version a = db.version a) rfl fun db' w _ h => ?_
  rw [AppWrite.version_apply, if_neg hne, h]

theorem version_view :
    (tx.view db).version tx.appID =
      tx.writes.foldl AppWrite.versionAfter (db.version tx.appID) := by
  refine (List.foldl_hom (fun db => AdminDatabase.version db tx.appID) ?_).symm
  intro db w
  rw [AppWrite.version_apply, if_pos rfl]

theorem find?_view :
    (tx.view db).apps.find? tx.appID =
      tx.writes.foldl (AppWrite.rowAfter tx.appID) (db.apps.find? tx.appID) := by
  refine (List.foldl_hom (fun db : AdminDatabase => db.apps.find? tx.appID) ?_).symm
  intro db w
  rw [AppWrite.find?_apply, if_pos rfl]

theorem hasApp_of_view (h : (tx.view db).HasApp a) :
    db.HasApp a ∨ a = tx.appID ∧ tx.inserts = true := by
  revert h
  refine view_rec (P := fun db' => db'.HasApp a → db.HasApp a ∨ a = tx.appID ∧ tx.inserts = true)
    .inl fun db' w hw ih h => ?_
  obtain hold | ⟨ha, hins⟩ := AppWrite.hasApp_of_apply h
  · exact ih hold
  · exact .inr ⟨ha, List.any_eq_true.mpr ⟨w, hw, hins⟩⟩

theorem hasApp_view (hdel : a = tx.appID → tx.deletes = false) (h : db.HasApp a) :
    (tx.view db).HasApp a := by
  refine view_rec (P := fun db' => db'.HasApp a) h fun db' w hw ih => ?_
  refine AppWrite.hasApp_apply (fun ha => ?_) ih
  exact Bool.eq_false_iff.mpr fun hwd =>
    (Bool.eq_false_iff.mp (hdel ha)) (List.any_eq_true.mpr ⟨w, hw, hwd⟩)

theorem grants_view_of_ne (hne : a ≠ tx.appID) : (tx.view db).Grants a c ↔ db.Grants a c := by
  refine view_rec (P := fun db' => db'.Grants a c ↔ db.Grants a c) .rfl fun db' w _ h => ?_
  rw [AppWrite.grants_apply_of_ne hne, h]

theorem grants_view_of_quiet (hchange : tx.changesCapabilities = false)
    (hdel : tx.deletes = false) : (tx.view db).Grants a c ↔ db.Grants a c := by
  refine view_rec (P := fun db' => db'.Grants a c ↔ db.Grants a c) .rfl fun db' w hw h => ?_
  have hw₁ : w.changesCapabilities = false := Bool.eq_false_iff.mpr fun hwc =>
    (Bool.eq_false_iff.mp hchange) (List.any_eq_true.mpr ⟨w, hw, hwc⟩)
  have hw₂ : w.deletesApp = false := Bool.eq_false_iff.mpr fun hwd =>
    (Bool.eq_false_iff.mp hdel) (List.any_eq_true.mpr ⟨w, hw, hwd⟩)
  rw [AppWrite.grants_apply_of_quiet hw₁ hw₂, h]

/-- Whether a capability is granted after the transaction depends on whether it was before. -/
theorem grants_view (happ : db.HasApp tx.appID) (hdel : tx.deletes = false) :
    (tx.view db).Grants tx.appID c ↔
      tx.writes.foldl (AppWrite.grantAfter c) (db.Grants tx.appID c) := by
  unfold view
  unfold deletes at hdel
  generalize tx.writes = ws at hdel ⊢
  induction ws generalizing db with
  | nil => rfl
  | cons w ws ih =>
      rw [List.any_cons, Bool.or_eq_false_iff] at hdel
      have happ' : (w.apply tx.appID db).HasApp tx.appID :=
        AppWrite.hasApp_apply (fun _ => hdel.1) happ
      rw [List.foldl_cons, List.foldl_cons, ih happ' hdel.2, AppWrite.grants_apply happ hdel.1]

theorem mem_keys_view {p : String} (h : p ∈ (tx.view db).keys.keys) :
    p ∈ db.keys.keys ∨ tx.insertsKey p = true := by
  revert h
  refine view_rec (P := fun db' => p ∈ db'.keys.keys → p ∈ db.keys.keys ∨ tx.insertsKey p = true)
    .inl fun db' w hw ih h => ?_
  obtain hold | hnew := AppWrite.mem_keys_apply h
  · exact ih hold
  · exact .inr (List.any_eq_true.mpr ⟨w, hw, by simp [hnew]⟩)

theorem keys_view_of_not_lone (h : ∀ w ∈ tx.writes, w.lone = false) :
    (tx.view db).keys = db.keys := by
  refine view_rec (P := fun db' => db'.keys = db.keys) rfl fun db' w hw ih => ?_
  rw [AppWrite.keys_apply (h w hw), ih]

/-- The transaction after one more statement. -/
def after (tx : Tx) (todo : List AppStmt) (writes : List AppWrite) (lock : Option LockMode) : Tx :=
  { tx with todo := todo, writes := tx.writes ++ writes, lock := lock }

section after

variable (tx : Tx) (todo : List AppStmt) (ws : List AppWrite) (lock : Option LockMode)

@[simp] theorem appID_after : (tx.after todo ws lock).appID = tx.appID := rfl
@[simp] theorem todo_after : (tx.after todo ws lock).todo = todo := rfl
@[simp] theorem writes_after : (tx.after todo ws lock).writes = tx.writes ++ ws := rfl
@[simp] theorem lock_after : (tx.after todo ws lock).lock = lock := rfl

@[simp] theorem inserts_after :
    (tx.after todo ws lock).inserts = (tx.inserts || ws.any AppWrite.insertsApp) :=
  List.any_append

@[simp] theorem deletes_after :
    (tx.after todo ws lock).deletes = (tx.deletes || ws.any AppWrite.deletesApp) :=
  List.any_append

@[simp] theorem refers_after :
    (tx.after todo ws lock).refers = (tx.refers || ws.any AppWrite.refers) :=
  List.any_append

@[simp] theorem changesCapabilities_after :
    (tx.after todo ws lock).changesCapabilities =
      (tx.changesCapabilities || ws.any AppWrite.changesCapabilities) :=
  List.any_append

@[simp] theorem insertsKey_after (p : String) :
    (tx.after todo ws lock).insertsKey p =
      (tx.insertsKey p || ws.any fun w => w.newPrefix == some p) :=
  List.any_append

end after

theorem refers_of_changesCapabilities (h : tx.changesCapabilities = true) : tx.refers = true := by
  obtain ⟨w, hw, hchange⟩ := List.any_eq_true.mp h
  refine List.any_eq_true.mpr ⟨w, hw, ?_⟩
  cases w <;> simp_all [AppWrite.changesCapabilities, AppWrite.capability, AppWrite.refers]

end Tx

/-! ### What a statement does -/

namespace AppStmt

def insertsApp : AppStmt → Bool
  | .insertApp _ _ _ _ => true
  | _ => false

def changesCapabilities : AppStmt → Bool
  | .insertCapability _ | .deleteCapability _ => true
  | _ => false

/-- The writes of the statement, where it finds the rows it is about. -/
def writes : AppStmt → List AppWrite
  | .insertApp name description minGrade createdBy =>
      [.insertApp name description minGrade createdBy]
  | .setDescription description => [.setDescription description]
  | .setMinGrade minGrade => [.setMinGrade minGrade]
  | .setActive active => [.setActive active]
  | .bumpVersion => [.bumpVersion]
  | .deactivate => [.setActive false, .bumpVersion]
  | .deleteApp => [.deleteApp]
  | .insertCapability c => [.insertCapability c]
  | .deleteCapability c => [.deleteCapability c]
  | .insertKey keyHash keyPrefix label => [.insertKey keyHash keyPrefix label]
  | .revokeKey keyPrefix => [.revokeKey keyPrefix]
  | .selectExists | .lockApp | .selectActive | .selectPrefix _ => []

/-- The lock that the statement takes on the row of the app. -/
def rowLock : AppStmt → Option LockMode
  | .lockApp => some .update
  | .setDescription _ | .setMinGrade _ | .setActive _ | .bumpVersion | .deactivate =>
      some .noKeyUpdate
  | _ => none

/-- What a statement has found that is refused. -/
def Refused (db : AdminDatabase) (tx : Tx) : AppStmt → Prop
  | .insertApp _ _ _ _ => db.HasApp tx.appID
  | .selectExists => ¬(tx.view db).HasApp tx.appID
  | .deactivate | .deleteApp | .insertCapability _ => ¬db.HasApp tx.appID
  | .selectActive => ∀ a ∈ db.apps.find? tx.appID, a.active = false
  | .selectPrefix keyPrefix => keyPrefix ∈ db.keys.keys
  | .insertKey _ keyPrefix _ => keyPrefix ∈ db.keys.keys ∨ ¬db.HasApp tx.appID
  | .revokeKey keyPrefix =>
      ∀ k ∈ db.keys.find? keyPrefix, k.appID ≠ tx.appID ∨ k.revoked = true
  | _ => False

/-- What a statement has found that is done without writing or locking anything. -/
def Idle (db : AdminDatabase) (tx : Tx) : AppStmt → Prop
  | .selectExists | .selectActive | .selectPrefix _ => True
  | .lockApp | .setDescription _ | .setMinGrade _ | .setActive _ | .bumpVersion =>
      ¬db.HasApp tx.appID
  | .insertCapability c => (tx.view db).Grants tx.appID c
  | .deleteCapability c => ¬(tx.view db).Grants tx.appID c
  | _ => False

end AppStmt

/-- What the transaction has written and what it may still write. -/
def Tx.planned (tx : Tx) : List AppWrite := tx.writes ++ tx.todo.flatMap AppStmt.writes

/-- A row that refers to the app may be inserted, and this is the lock afterwards. -/
inductive References (db : AdminDatabase) (others : List Tx) (tx : Tx) : Option LockMode → Prop
  /-- The row of the app is one of the transaction's own. -/
  | own (hins : tx.inserts = true) : References db others tx tx.lock
  | shared (happ : db.HasApp tx.appID)
      (hrivals : ∀ t ∈ tx.rivals others, t.holdsAgainst .keyShare = false) :
      References db others tx (some (LockMode.join tx.lock .keyShare))

/-- What comes of a statement: what it has found, what it writes and which lock it leaves. -/
inductive Executed (db : AdminDatabase) (others : List Tx) (tx : Tx) : AppStmt → Outcome → Prop
  | waits {stmt : AppStmt} : Executed db others tx stmt .waits
  | refused {stmt : AppStmt} {err : AdminErr} (hstmt : stmt.Refused db tx) :
      Executed db others tx stmt (.denied err)
  | idle {stmt : AppStmt} (hstmt : stmt.Idle db tx) : Executed db others tx stmt (.done [] tx.lock)
  | lockRow {stmt : AppStmt} {m : LockMode} (hstmt : stmt.rowLock = some m)
      (happ : db.HasApp tx.appID) (hrivals : ∀ t ∈ tx.rivals others, t.holdsAgainst m = false) :
      Executed db others tx stmt (.done stmt.writes (some (LockMode.join tx.lock m)))
  | insertApp {name description minGrade createdBy : String} (hfree : ¬db.HasApp tx.appID)
      (hrivals : ∀ t ∈ tx.rivals others, t.inserts = false) :
      Executed db others tx (.insertApp name description minGrade createdBy)
        (.done [.insertApp name description minGrade createdBy] tx.lock)
  | deleteApp (hrivals : ∀ t ∈ tx.rivals others, t.lock = none ∧ t.writes = []) :
      Executed db others tx .deleteApp (.done [.deleteApp] (some .update))
  | insertCapability {c : Capability} {lock : Option LockMode}
      (href : References db others tx lock) :
      Executed db others tx (.insertCapability c) (.done [.insertCapability c] lock)
  | deleteCapability {c : Capability} (hrow : (tx.view db).Grants tx.appID c)
      (hrivals : ∀ t ∈ tx.rivals others, t.deletes = false) :
      Executed db others tx (.deleteCapability c) (.done [.deleteCapability c] tx.lock)
  | insertKey {keyHash keyPrefix label : String} {lock : Option LockMode}
      (hfree : keyPrefix ∉ db.keys.keys) (hothers : ∀ t ∈ others, t.insertsKey keyPrefix = false)
      (href : References db others tx lock) :
      Executed db others tx (.insertKey keyHash keyPrefix label)
        (.done [.insertKey keyHash keyPrefix label] lock)
  | revokeKey {keyPrefix : String} {k : KeyRow} (hrow : db.keys.find? keyPrefix = some k)
      (happ : k.appID = tx.appID) (hrivals : ∀ t ∈ tx.rivals others, t.deletes = false) :
      Executed db others tx (.revokeKey keyPrefix) (.done [.revokeKey keyPrefix] tx.lock)

section Executed

variable {db : AdminDatabase} {others : List Tx} {tx : Tx} {stmt : AppStmt}
  {ws : List AppWrite} {lock : Option LockMode}

theorem executed_lockRow {m : LockMode} (hlock : stmt.rowLock = some m)
    (hidle : ¬db.HasApp tx.appID → stmt.Idle db tx) :
    Executed db others tx stmt (lockRow db others tx m stmt.writes) := by
  unfold lockRow
  split
  · next hnone => exact .idle (hidle hnone)
  · next happ =>
      split
      · exact .waits
      · next hrivals => exact .lockRow hlock (not_not.mp happ) (by simpa using hrivals)

theorem executed_checkReference {err : AdminErr}
    (hrefused : ¬db.HasApp tx.appID → stmt.Refused db tx)
    (hdone : ∀ {lock}, References db others tx lock → Executed db others tx stmt (.done ws lock)) :
    Executed db others tx stmt (checkReference db others tx err ws) := by
  unfold checkReference
  split
  · next hins => exact hdone (.own hins)
  · split
    · next hnone => exact .refused (hrefused hnone)
    · next happ =>
        split
        · exact .waits
        · next hrivals => exact hdone (.shared (not_not.mp happ) (by simpa using hrivals))

theorem left_false_of_not_any {p q : Tx → Bool} {ts : List Tx}
    (h : ¬ts.any (fun t => p t || q t) = true) : ∀ t ∈ ts, p t = false := by
  intro t ht
  have hnot := List.any_eq_false.mp (Bool.not_eq_true _ ▸ h) t ht
  simp only [Bool.or_eq_true, not_or, Bool.not_eq_true] at hnot
  exact hnot.1

/-- **Inversion.** The one place that looks into `execStmt`. -/
theorem executed (db : AdminDatabase) (others : List Tx) (tx : Tx) (stmt : AppStmt) :
    Executed db others tx stmt (execStmt db others tx stmt) := by
  have hfound (c : Capability) : ((tx.view db).capabilities.find? (tx.appID, c)).isSome = true ↔
      (tx.view db).Grants tx.appID c := Table.isSome_find?
  cases stmt with
  | insertApp name description minGrade createdBy =>
      simp only [execStmt]
      split
      · exact .waits
      · next hrivals =>
          split
          · next happ => exact .refused happ
          · next hfree => exact .insertApp hfree (left_false_of_not_any hrivals)
  | lockApp | setDescription | setMinGrade | setActive | bumpVersion =>
      exact executed_lockRow rfl id
  | deactivate =>
      simp only [execStmt]
      split
      · next hnone => exact .refused hnone
      · next happ => exact executed_lockRow rfl fun hnone => absurd hnone happ
  | deleteApp =>
      simp only [execStmt]
      split
      · next hnone => exact .refused hnone
      · split
        · exact .waits
        · next hrivals => exact .deleteApp (by simpa using hrivals)
  | insertCapability c =>
      simp only [execStmt]
      split
      · exact .waits
      · split
        · next hthere => exact .idle ((hfound c).mp hthere)
        · exact executed_checkReference id .insertCapability
  | deleteCapability c =>
      simp only [execStmt]
      split
      · next hgone =>
          refine .idle fun hgrants => ?_
          rw [← hfound, Option.isNone_iff_eq_none.mp hgone] at hgrants
          cases hgrants
      · next hrow =>
          split
          · exact .waits
          · next hrivals =>
              refine .deleteCapability ((hfound c).mp ?_) (left_false_of_not_any hrivals)
              rwa [Bool.not_eq_true, Option.isNone_eq_false_iff] at hrow
  | selectExists =>
      simp only [execStmt]
      split
      · exact .idle trivial
      · next hgone => exact .refused hgone
  | selectActive =>
      simp only [execStmt]
      split
      · next hnone => exact .refused (by simp [AppStmt.Refused, hnone])
      · next a hrow =>
          split
          · exact .idle trivial
          · next hactive => exact .refused (by simpa [AppStmt.Refused, hrow] using hactive)
  | selectPrefix keyPrefix =>
      simp only [execStmt]
      split
      · next htaken => exact .refused (Table.isSome_find?.mp htaken)
      · exact .idle trivial
  | insertKey keyHash keyPrefix label =>
      simp only [execStmt]
      split
      · exact .waits
      · next hothers =>
          split
          · next k hrow =>
              split
              · exact .waits
              · have htaken : keyPrefix ∈ db.keys.keys := Table.isSome_find?.mp (by simp [hrow])
                exact .refused (.inl htaken)
          · next hfree =>
              refine executed_checkReference .inr fun href => .insertKey ?_ (by simpa using hothers)
                href
              rw [← Table.isSome_find?, hfree]
              simp
  | revokeKey keyPrefix =>
      simp only [execStmt]
      split
      · next hnone => exact .refused (by simp [AppStmt.Refused, hnone])
      · next k hrow =>
          split
          · next hkey => exact .refused (by simpa [AppStmt.Refused, hrow] using hkey)
          · next hkey =>
              split
              · exact .waits
              · next hrivals =>
                  refine .revokeKey hrow ?_ (left_false_of_not_any hrivals)
                  by_contra hne
                  exact hkey (by simp [hne])

theorem executed_of_done (h : execStmt db others tx stmt = .done ws lock) :
    Executed db others tx stmt (.done ws lock) :=
  h ▸ executed db others tx stmt

/-- It writes all it is about, or nothing. -/
theorem Executed.writes (h : Executed db others tx stmt (.done ws lock)) :
    ws = [] ∨ ws = stmt.writes := by
  cases h with
  | idle => exact .inl rfl
  | _ => exact .inr rfl

/-- A prefix that is written was free. -/
theorem Executed.newPrefix {p : String} (h : Executed db others tx stmt (.done ws lock))
    (hp : (ws.any fun w => w.newPrefix == some p) = true) :
    p ∉ db.keys.keys ∧ ∀ t ∈ others, t.insertsKey p = false := by
  cases h with
  | @insertKey _ keyPrefix _ _ hfree hothers _ =>
      obtain rfl : keyPrefix = p := by simpa [AppWrite.newPrefix] using hp
      exact ⟨hfree, hothers⟩
  | lockRow hstmt => cases stmt <;> simp_all [AppStmt.writes, AppStmt.rowLock, AppWrite.newPrefix]
  | _ => simp [AppWrite.newPrefix] at hp

/-- A statement never adds to what was planned. -/
theorem Executed.planned {todo : List AppStmt} (h : Executed db others tx stmt (.done ws lock))
    (htodo : tx.todo = stmt :: todo) : (tx.after todo ws lock).planned.Sublist tx.planned := by
  simp only [Tx.planned, Tx.writes_after, Tx.todo_after, htodo, List.flatMap_cons,
    List.append_assoc]
  refine List.Sublist.append_left (List.Sublist.append_right ?_ _) _
  obtain rfl | rfl := h.writes
  · exact List.nil_sublist _
  · exact List.Sublist.refl _

end Executed

end TelegramServer.Api

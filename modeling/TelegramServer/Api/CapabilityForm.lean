import TelegramServer.Api.PatchEffect

/-!
The capability checkboxes of the admin UI. The form sends the state that is wanted;
`handleAppPatch` turns it into a list to add and a list to remove, and `Patch` carries
them out. Both lists are cut down to the capabilities the UI may grant, so that the
others an app has are neither added nor removed.

That the lists say what the form wanted is a fact about one reading of the database.
It is still right when the patch commits if nobody else has changed the app in between.
-/

namespace TelegramServer.Api

open Lib Registry Auth

/-! ### The two lists -/

section Lists

variable {planner : Planner} {db : AdminDatabase} {appID : String} {form : Form}
  {req : PatchAppRequest} {c : Capability}

theorem mem_getAppCapabilities {caps : List Capability}
    (h : getAppCapabilities planner db appID = some caps) : c ∈ caps ↔ db.Grants appID c := by
  obtain ⟨row, -, rfl⟩ := Option.map_eq_some_iff.mp h
  simp only [List.mem_map, (planner.perm _).mem_iff, List.mem_filter, decide_eq_true_eq,
    AdminDatabase.Grants, Table.keys]
  constructor
  · rintro ⟨r, ⟨hr, happ⟩, rfl⟩
    exact ⟨r, hr, Prod.ext happ rfl⟩
  · rintro ⟨r, hr, hkey⟩
    obtain ⟨happ, hcap⟩ := Prod.mk.inj hkey
    exact ⟨r, ⟨hr, happ⟩, hcap⟩

/-- The form has the checkboxes on it. An unchecked form still sends the grade. -/
def Form.full (form : Form) : Bool := form.has "capabilities" || form.has "min_grade"

/-- The lists of the full form are the two differences of what is wanted and what there
is, both cut down to what may be granted. -/
theorem handleAppPatch_full (hfull : form.full = true)
    (h : handleAppPatch planner (some db) appID form = some req) :
    db.HasApp appID ∧
      (∀ c, c ∈ req.addCapabilities ↔
        c ∈ form "capabilities" ∧ c ∈ grantableCapabilities ∧ ¬db.Grants appID c) ∧
      ∀ c, c ∈ req.removeCapabilities ↔
        db.Grants appID c ∧ c ∈ grantableCapabilities ∧ c ∉ form "capabilities" := by
  simp only [handleAppPatch, Option.bind_some] at h
  rw [← Form.full, if_pos hfull] at h
  split at h
  · cases h
  · next caps hcaps =>
      have hmem (c : Capability) := mem_getAppCapabilities (c := c) hcaps
      have happ : db.HasApp appID := by
        obtain ⟨row, hrow, -⟩ := Option.map_eq_some_iff.mp hcaps
        exact Table.isSome_find?.mp (by rw [hrow]; rfl)
      obtain rfl := Option.some.inj h
      refine ⟨happ, fun c => ?_, fun c => ?_⟩
      · simp only [filterGrantable, List.mem_filter, List.contains_iff_mem, Bool.not_eq_true',
          Bool.eq_false_iff, ne_eq, hmem]
        tauto
      · simp only [filterGrantable, List.mem_filter, List.contains_iff_mem, Bool.not_eq_true',
          Bool.eq_false_iff, ne_eq, hmem]
        tauto

/-- Without the database the full form shows an error. -/
theorem handleAppPatch_none (hfull : form.full = true) :
    handleAppPatch planner none appID form = none := by
  simp only [handleAppPatch, Option.bind_none]
  rw [← Form.full, if_pos hfull]

/-- The small form has no lists. -/
theorem handleAppPatch_mini {store : Option AdminDatabase} (hmini : form.full = false)
    (h : handleAppPatch planner store appID form = some req) :
    req.addCapabilities = [] ∧ req.removeCapabilities = [] := by
  simp only [handleAppPatch] at h
  rw [if_neg (by rw [← Form.full, hmini]; exact Bool.false_ne_true)] at h
  obtain rfl := Option.some.inj h
  exact ⟨rfl, rfl⟩

/-- Nothing that the UI may grant is refused by the API. -/
theorem validateCapabilityGrant_of_grantable {caps : List Capability}
    (h : ∀ c ∈ caps, c ∈ grantableCapabilities) : validateCapabilityGrant caps = none := by
  induction caps with
  | nil => rfl
  | cons c caps ih =>
      have hall : ∀ c ∈ grantableCapabilities,
          forbiddenCapabilities.contains c = false ∧ allowedCapabilities.contains c = true := by
        decide
      obtain ⟨hforbidden, hallowed⟩ := hall c (h c (List.mem_cons_self ..))
      rw [validateCapabilityGrant, hforbidden, hallowed]
      exact ih fun c' hc' => h c' (List.mem_cons_of_mem c hc')

/-- A request without capabilities that may not be granted fails for its grade or not
at all. -/
theorem patch_error_of_grantable {err : AdminErr}
    (h : ∀ c ∈ req.addCapabilities, c ∈ grantableCapabilities)
    (herr : patch appID (some req) = .error err) : err = .api "invalid_min_grade" 400 := by
  simp only [patch, validateCapabilityGrant_of_grantable h] at herr
  split at herr
  · exact (Except.error.inj herr).symm
  · cases herr

end Lists

/-! ### The capabilities the lists do not name -/

/-- The capability is in neither of the lists. -/
def PatchAppRequest.LeavesAlone (req : PatchAppRequest) (c : Capability) : Prop :=
  c ∉ req.addCapabilities ∧ c ∉ req.removeCapabilities

theorem unwritten_of_leavesAlone {req : PatchAppRequest} {c : Capability}
    (h : req.LeavesAlone c) :
    ∀ w ∈ (patchStmts req).flatMap AppStmt.writes, w.capability ≠ some c := by
  intro w hw hcap
  obtain ⟨stmt, hstmt, hmem⟩ := List.mem_flatMap.mp hw
  simp only [patchStmts, capabilityStmts, List.mem_append, Option.mem_toList,
    Option.map_eq_some_iff, List.mem_map, List.mem_ite_nil_right, List.mem_singleton] at hstmt
  obtain ((⟨_, -, rfl⟩ | ⟨_, -, rfl⟩) | ⟨_, -, rfl⟩) |
    ((⟨c', hc', rfl⟩ | ⟨c', hc', rfl⟩) | ⟨-, rfl⟩) := hstmt
  all_goals
    obtain rfl := List.mem_singleton.mp hmem
    cases hcap
  · exact h.1 hc'
  · exact h.2 hc'

theorem foldl_grantAfter_of_unwritten {c : Capability} {ws : List AppWrite}
    (h : ∀ w ∈ ws, w.capability ≠ some c) (granted : Prop) :
    ws.foldl (AppWrite.grantAfter c) granted ↔ granted := by
  induction ws generalizing granted with
  | nil => rfl
  | cons w ws ih =>
      rw [List.foldl_cons, ih (fun w' hw' => h w' (List.mem_cons_of_mem w hw'))]
      have hw := h w (List.mem_cons_self ..)
      cases w <;> simp_all [AppWrite.grantAfter, AppWrite.capability, eq_comm]

section Runs

variable {argon : Argon2} {planner : Planner} {s s' : AdminState} {action : AdminAction}
  {req : PatchAppRequest} {appID : String} {n : ℕ} {c : Capability}

/-- The `n`-th transaction plans no writes but those in `ws`. -/
structure PlansWithin (ws : List AppWrite) (n : ℕ) (s : AdminState) : Prop where
  index : n < s.txs.length
  planned : ∀ tx, s.Open n tx → tx.planned ⊆ ws

theorem PlansWithin.step {ws : List AppWrite} (h : PlansWithin ws n s)
    (hstep : adminStep argon planner s action = some s') : PlansWithin ws n s' := by
  have hindex := adminStep_index_lt hstep h.index
  cases adminStep_effect hstep with
  | quiet _ htxs _ =>
      refine ⟨hindex, fun tx hopen => h.planned tx ?_⟩
      rwa [AdminState.Open, htxs] at hopen
  | start tx' _ _ htxs _ =>
      refine ⟨hindex, fun tx hopen => ?_⟩
      obtain ⟨hlast, -⟩ | ⟨-, hopen⟩ := open_of_append htxs hopen
      · exact absurd h.index (hlast ▸ lt_irrefl _)
      · exact h.planned tx hopen
  | finish m _ htxs _ =>
      refine ⟨hindex, fun tx hopen => ?_⟩
      exact h.planned tx (open_of_set_none htxs hopen).2
  | exec m t stmt todo ws' lock hm htodo hexec _ htxs _ =>
      refine ⟨hindex, fun tx hopen => ?_⟩
      obtain ⟨rfl, rfl⟩ | ⟨-, hopen⟩ := open_of_set_some htxs hopen
      · exact fun w hw => h.planned t hm ((hexec.planned htodo).subset hw)
      · exact h.planned tx hopen
  | commit m t _ _ _ _ htxs _ =>
      refine ⟨hindex, fun tx hopen => ?_⟩
      exact h.planned tx (open_of_set_none htxs hopen).2

/-- What the lists do not name, the commit does not change. -/
theorem PatchInv.grants_iff (h : PatchInv appID req n s)
    (hplans : PlansWithin ((patchStmts req).flatMap AppStmt.writes) n s)
    (hstep : adminStep argon planner s (.commit n) = some s') (hc : req.LeavesAlone c) :
    s'.db.Grants appID c ↔ s.db.Grants appID c := by
  obtain ⟨tx, hopen, htodo, hdb⟩ := commit_eq_some hstep
  rw [hdb]
  cases h.stage tx hopen with
  | begun | found => cases htodo
  | locked happID hrow =>
      subst happID
      rw [Tx.grants_view hrow.present hrow.deletes_eq_false]
      apply foldl_grantAfter_of_unwritten
      intro w hw
      exact unwritten_of_leavesAlone hc w
        (hplans.planned tx hopen (List.mem_append_left _ hw))

/-- The app is there and has what it had in `db₀`, and the `n`-th transaction is that of the
patch. -/
structure FormInv (appID : String) (req : PatchAppRequest) (n : ℕ) (db₀ : AdminDatabase)
    (s : AdminState) : Prop where
  admin : AdminInv s
  locks : LockInv s
  patch : PatchInv appID req n s
  plans : PlansWithin ((patchStmts req).flatMap AppStmt.writes) n s
  version : s.db.version appID = db₀.version appID
  grants : ∀ c, s.db.Grants appID c ↔ db₀.Grants appID c

/-- The action changes neither the version of the app nor its capabilities. -/
def LeavesApp (argon : Argon2) (planner : Planner) (appID : String) (s : AdminState)
    (action : AdminAction) : Prop :=
  ∀ s', adminStep argon planner s action = some s' →
    s'.db.version appID = s.db.version appID ∧
      ∀ c, s'.db.Grants appID c ↔ s.db.Grants appID c

theorem leavesApp_of_rows (h : ∀ m, action ≠ .commit m) :
    LeavesApp argon planner appID s action := by
  intro s' hstep
  obtain ⟨hdb, -⟩ | ⟨m, -, hcommit, -⟩ := adminStep_rows hstep
  · exact ⟨by rw [hdb], fun c => by rw [hdb]⟩
  · exact absurd hcommit (h m)

theorem PatchStage.appID_eq {db : AdminDatabase} {tx : Tx} (h : PatchStage appID req db tx) :
    tx.appID = appID := by
  cases h with
  | begun | found => rfl
  | locked happID _ => exact happID

variable {db₀ : AdminDatabase}

theorem FormInv.hasApp (h : FormInv appID req n db₀ s) (happ : db₀.HasApp appID) :
    s.db.HasApp appID := by
  rw [AdminDatabase.hasApp_iff, h.version]
  exact (AdminDatabase.hasApp_iff _ _).mp happ

theorem FormInv.step (happ : db₀.HasApp appID) (h : FormInv appID req n db₀ s)
    (hleaves : LeavesApp argon planner appID s action)
    (hstep : adminStep argon planner s action = some s') : FormInv appID req n db₀ s' := by
  have hfinds : FindsRow n s action := by
    intro _ tx htx _
    have hopen : s.Open n tx := Option.join_eq_some_iff.mp htx
    rw [(h.patch.stage tx hopen).appID_eq]
    exact h.hasApp happ
  obtain ⟨hversion, hgrants⟩ := hleaves s' hstep
  exact ⟨(adminStep_effect hstep).adminInv h.admin, (adminStep_effect hstep).lockInv h.locks,
    h.patch.step h.admin h.locks hfinds hstep, h.plans.step hstep, hversion.trans h.version,
    fun c => (hgrants c).trans (h.grants c)⟩

/-- As long as the app is there, no statement of a patch is denied. -/
theorem PatchStage.not_denied {db : AdminDatabase} {others : List Tx} {tx : Tx} {stmt : AppStmt}
    {todo : List AppStmt} (h : PatchStage appID req db tx) (happ : db.HasApp appID)
    (htodo : tx.todo = stmt :: todo) (err : AdminErr) :
    execStmt db others tx stmt ≠ .denied err := by
  intro hdenied
  have hrefused : stmt.Refused db tx := by
    have hexec := executed db others tx stmt
    rw [hdenied] at hexec
    cases hexec
    assumption
  cases h with
  | begun =>
      obtain ⟨rfl, -⟩ := List.cons.inj htodo
      exact hrefused happ
  | found =>
      obtain ⟨rfl, -⟩ := List.cons.inj htodo
      exact hrefused
  | locked _ hrow =>
      have hpatches : stmt.patches = true := by
        have hmem : stmt ∈ patchStmts req := by
          rw [hrow.split, htodo]
          simp
        exact patches_of_mem_patchStmts hmem
      cases stmt with
      | insertCapability c => exact hrefused hrow.present
      | setDescription | setMinGrade | setActive | bumpVersion | deleteCapability => exact hrefused
      | _ => cases hpatches

end Runs

/-! ### The form -/

/-- The set of capabilities of the app. -/
def AdminDatabase.capabilitySet (db : AdminDatabase) (appID : String) : Set Capability :=
  {c | db.Grants appID c}

/-- The capabilities the UI may grant. -/
def grantable : Set Capability := {c | c ∈ grantableCapabilities}

/-- The checkboxes that were sent. -/
def Form.desired (form : Form) : Set Capability := {c | c ∈ form "capabilities"}

/-- The form is sent in the state `s₀`, the request passes the checks of `Patch`, and nobody has
changed the app when the run has got to `s`. -/
structure FormSent (argon : Argon2) (planner : Planner) (appID : String) (form : Form)
    (hasStore : Bool) (between : List AdminAction) (s₀ s : AdminState) : Prop where
  request : ∃ req tx, handleAppPatch planner (if hasStore then some s₀.db else none) appID form =
    some req ∧ patch appID (some req) = .ok tx
  reached : run (adminStep argon planner) s₀ (.uiPatch hasStore appID form :: between) = some s
  unchanged : Guarded (adminStep argon planner) (LeavesApp argon planner appID) s₀
    (.uiPatch hasStore appID form :: between)

/-- What comes of a form that is sent in the state `s₀`. -/
structure FormHonoured (argon : Argon2) (planner : Planner) (appID : String) (form : Form)
    (s₀ : AdminState) : Prop where
  /-- `Patch` may refuse the grade, never the capabilities. -/
  accepted : ∀ (hasStore : Bool) req err,
    handleAppPatch planner (if hasStore then some s₀.db else none) appID form = some req →
    patch appID (some req) = .error err → err = .api "invalid_min_grade" 400
  /-- Its transaction is not refused either. -/
  undenied : form.full = true → ∀ hasStore between s,
    FormSent argon planner appID form hasStore between s₀ s → ∀ tx stmt todo err,
    s.Open s₀.txs.length tx → tx.todo = stmt :: todo →
    execStmt s.db (s.others s₀.txs.length) tx stmt ≠ .denied err
  /-- The commit of the full form. -/
  saved : form.full = true → ∀ hasStore between s s',
    FormSent argon planner appID form hasStore between s₀ s →
    adminStep argon planner s (.commit s₀.txs.length) = some s' →
    s'.db.capabilitySet appID =
        (s₀.db.capabilitySet appID \ grantable) ∪ (form.desired ∩ grantable) ∧
      ∃ v, s₀.db.version appID = some v ∧
        (form.desired ∩ grantable ≠ s₀.db.capabilitySet appID ∩ grantable →
          s'.db.version appID = some (v + 1)) ∧
        (form.desired ∩ grantable = s₀.db.capabilitySet appID ∩ grantable →
          s'.db.version appID = some v)
  /-- The commit of the small form. -/
  small : form.full = false → ∀ hasStore between s s',
    FormSent argon planner appID form hasStore between s₀ s →
    adminStep argon planner s (.commit s₀.txs.length) = some s' →
    s'.db.capabilitySet appID = s₀.db.capabilitySet appID ∧
      s'.db.version appID = s₀.db.version appID

section Form

variable {argon : Argon2} {planner : Planner} {db : AdminDatabase} {s₀ s s' : AdminState}
  {appID : String} {form : Form} {req : PatchAppRequest} {tx : Tx} {hasStore : Bool}
  {before between : List AdminAction}

theorem plansWithin_start
    (htx : tx = { appID := appID, todo := .selectExists :: .lockApp :: patchStmts req }) :
    PlansWithin ((patchStmts req).flatMap AppStmt.writes) s₀.txs.length (s₀.start tx) := by
  refine ⟨by simp [AdminState.start], fun t hopen => ?_⟩
  obtain ⟨-, rfl⟩ | ⟨hlt, -⟩ := open_of_append rfl hopen
  · rw [htx]
    exact fun w hw => hw
  · exact absurd hlt (lt_irrefl _)

theorem uiPatch_step
    (hreq : handleAppPatch planner (if hasStore then some s₀.db else none) appID form = some req)
    (hok : patch appID (some req) = .ok tx) :
    adminStep argon planner s₀ (.uiPatch hasStore appID form) = some (s₀.start tx) := by
  simp only [adminStep, hreq, hok]
  rfl

/-- What the run has kept where the full form was sent. -/
theorem FormSent.formInv (h : FormSent argon planner appID form hasStore between s₀ s)
    (hbefore : run (adminStep argon planner) (.new db) before = some s₀)
    (hfull : form.full = true) :
    ∃ req, handleAppPatch planner (some s₀.db) appID form = some req ∧ s₀.db.HasApp appID ∧
      FormInv appID req s₀.txs.length s₀.db s := by
  obtain ⟨req, tx, hreq, hok⟩ := h.request
  obtain ⟨_, heq, -, htx⟩ := patch_ok hok
  obtain rfl := Option.some.inj heq
  obtain ⟨s₁, hstart, hrest⟩ := run_cons_eq_some.mp h.reached
  have hguard := h.unchanged.2 s₁ hstart
  have hs₁ := Option.some.inj ((uiPatch_step hreq hok).symm.trans hstart)
  have hreach := run_concat hbefore hstart
  have hstore : hasStore = true := by
    cases hasStore with
    | true => rfl
    | false => cases (handleAppPatch_none hfull).symm.trans hreq
  subst hstore
  have happ := (handleAppPatch_full hfull hreq).1
  refine ⟨req, hreq, happ, ?_⟩
  refine run_invariant_of_guarded (fun _ _ _ => FormInv.step happ) ?_ hguard hrest
  subst hs₁
  exact ⟨adminInv_of_run hreach, lockInv_of_run hreach, patchInv_start htx,
    plansWithin_start htx, rfl, fun _ => .rfl⟩

/-- The lists are empty if what is wanted is what there is. -/
theorem handleAppPatch_idle (hfull : form.full = true)
    (h : handleAppPatch planner (some db) appID form = some req) :
    (req.addCapabilities ≠ [] ∨ req.removeCapabilities ≠ []) ↔
      form.desired ∩ grantable ≠ db.capabilitySet appID ∩ grantable := by
  obtain ⟨-, hadd, hremove⟩ := handleAppPatch_full hfull h
  rw [← not_iff_not, not_or, not_not, not_not, not_not, List.eq_nil_iff_forall_not_mem,
    List.eq_nil_iff_forall_not_mem, Set.ext_iff, ← forall_and]
  refine forall_congr' fun c => ?_
  rw [hadd, hremove]
  simp only [Form.desired, grantable, AdminDatabase.capabilitySet, Set.mem_inter_iff,
    Set.mem_ofPred_eq]
  tauto

/-- The commit of the full form. -/
theorem FormInv.saved (h : FormInv appID req s₀.txs.length s₀.db s) (hfull : form.full = true)
    (hreq : handleAppPatch planner (some s₀.db) appID form = some req)
    (hcommit : adminStep argon planner s (.commit s₀.txs.length) = some s') :
    s'.db.capabilitySet appID =
      (s₀.db.capabilitySet appID \ grantable) ∪ (form.desired ∩ grantable) := by
  obtain ⟨-, hadd, hremove⟩ := handleAppPatch_full hfull hreq
  have heffect := h.patch.tookEffect h.admin hcommit
  ext c
  simp only [AdminDatabase.capabilitySet, grantable, Form.desired, Set.mem_union, Set.mem_sdiff,
    Set.mem_inter_iff, Set.mem_ofPred_eq]
  by_cases hc : c ∈ req.removeCapabilities
  · have hgone := heffect.revoked c hc
    have hwas := (hremove c).mp hc
    tauto
  · by_cases hc' : c ∈ req.addCapabilities
    · have hnew := heffect.granted c hc' hc
      have hwas := (hadd c).mp hc'
      tauto
    · rw [h.patch.grants_iff h.plans hcommit ⟨hc', hc⟩, h.grants]
      rw [hadd] at hc'
      rw [hremove] at hc
      tauto

theorem FormInv.version_saved (h : FormInv appID req s₀.txs.length s₀.db s)
    (hcommit : adminStep argon planner s (.commit s₀.txs.length) = some s') :
    ∃ v, s₀.db.version appID = some v ∧ s'.db.version appID =
      some (v + if req.addCapabilities ≠ [] ∨ req.removeCapabilities ≠ [] then 1 else 0) := by
  obtain ⟨row, row', hrow, hrow', -, -, -, hversion⟩ := (h.patch.tookEffect h.admin hcommit).row
  refine ⟨row.capabilitySetVersion, ?_, ?_⟩
  · rw [← h.version, AdminDatabase.version, hrow, Option.map_some]
  · rw [AdminDatabase.version, hrow', Option.map_some, hversion]

/-- A transaction that only sets fields of the row. -/
theorem Tx.view_of_sets (h : ∀ w ∈ tx.writes, w.capability = none ∧ w.bumps = false ∧
      w.insertsApp = false ∧ w.deletesApp = false) :
    (tx.view db).capabilitySet appID = db.capabilitySet appID ∧
      (tx.view db).version appID = db.version appID := by
  refine Tx.view_rec (P := fun db' => db'.capabilitySet appID = db.capabilitySet appID ∧
    db'.version appID = db.version appID) ⟨rfl, rfl⟩ ?_
  rintro db' w hw ⟨hcaps, hversion⟩
  obtain ⟨hcap, hbump, hins, hdel⟩ := h w hw
  constructor
  · rw [← hcaps]
    ext c
    exact AppWrite.grants_apply_of_quiet (by rw [AppWrite.changesCapabilities, hcap]; rfl) hdel
  · rw [AppWrite.version_apply, hversion]
    split
    · cases w <;> simp_all [AppWrite.versionAfter, AppWrite.bumps, AppWrite.insertsApp,
        AppWrite.deletesApp]
    · rfl

theorem sets_of_mem_patchStmts (hadd : req.addCapabilities = [])
    (hremove : req.removeCapabilities = []) {w : AppWrite}
    (hw : w ∈ (patchStmts req).flatMap AppStmt.writes) :
    w.capability = none ∧ w.bumps = false ∧ w.insertsApp = false ∧ w.deletesApp = false := by
  obtain ⟨stmt, hstmt, hmem⟩ := List.mem_flatMap.mp hw
  simp only [patchStmts, capabilityStmts, hadd, hremove, List.mem_append, Option.mem_toList,
    Option.map_eq_some_iff, List.map_nil, List.not_mem_nil, ne_eq, not_true_eq_false, or_self,
    if_false, or_false] at hstmt
  obtain (⟨_, -, rfl⟩ | ⟨_, -, rfl⟩) | ⟨_, -, rfl⟩ := hstmt
  all_goals
    obtain rfl := List.mem_singleton.mp hmem
    exact ⟨rfl, rfl, rfl, rfl⟩

/-- The commit of the small form. -/
theorem FormSent.small (h : FormSent argon planner appID form hasStore between s₀ s)
    (hmini : form.full = false)
    (hcommit : adminStep argon planner s (.commit s₀.txs.length) = some s') :
    s'.db.capabilitySet appID = s.db.capabilitySet appID ∧
      s'.db.version appID = s.db.version appID := by
  obtain ⟨req, tx, hreq, hok⟩ := h.request
  obtain ⟨_, heq, -, htx⟩ := patch_ok hok
  obtain rfl := Option.some.inj heq
  obtain ⟨hadd, hremove⟩ := handleAppPatch_mini hmini hreq
  obtain ⟨s₁, hstart, hrest⟩ := run_cons_eq_some.mp h.reached
  obtain rfl := Option.some.inj ((uiPatch_step hreq hok).symm.trans hstart)
  have hplans := run_invariant (fun _ _ _ h hstep => PlansWithin.step h hstep)
    (plansWithin_start htx) hrest
  obtain ⟨t, hopen, -, hdb⟩ := commit_eq_some hcommit
  rw [hdb]
  refine Tx.view_of_sets fun w hw => sets_of_mem_patchStmts hadd hremove ?_
  exact hplans.planned t hopen (List.mem_append_left _ hw)

theorem FormSent.kept (h : FormSent argon planner appID form hasStore between s₀ s) :
    s.db.capabilitySet appID = s₀.db.capabilitySet appID ∧
      s.db.version appID = s₀.db.version appID := by
  refine run_invariant_of_guarded (I := fun s => s.db.capabilitySet appID =
    s₀.db.capabilitySet appID ∧ s.db.version appID = s₀.db.version appID) ?_ ⟨rfl, rfl⟩
    h.unchanged h.reached
  rintro s action s' ⟨hcaps, hversion⟩ hleaves hstep
  obtain ⟨hversion', hgrants⟩ := hleaves s' hstep
  refine ⟨?_, hversion'.trans hversion⟩
  rw [← hcaps]
  ext c
  exact hgrants c

/-- **The checkboxes that were sent are the capabilities the app has.** Those the UI may not
grant stay as they were. -/
theorem uiPatch_honoured (argon : Argon2) (planner : Planner) (db : AdminDatabase)
    {before : List AdminAction} {s₀ : AdminState} (appID : String) (form : Form)
    (hbefore : run (adminStep argon planner) (.new db) before = some s₀) :
    FormHonoured argon planner appID form s₀ where
  accepted := by
    intro hasStore req err hreq herr
    refine patch_error_of_grantable (fun c hc => ?_) herr
    cases hfull : form.full with
    | false =>
        rw [(handleAppPatch_mini hfull hreq).1] at hc
        cases hc
    | true =>
        cases hasStore with
        | true => exact (((handleAppPatch_full hfull hreq).2.1 c).mp hc).2.1
        | false => cases (handleAppPatch_none hfull).symm.trans hreq
  undenied := by
    intro hfull hasStore between s hsent tx stmt todo err hopen htodo
    obtain ⟨req, -, happ, hinv⟩ := hsent.formInv hbefore hfull
    exact (hinv.patch.stage tx hopen).not_denied (hinv.hasApp happ) htodo err
  saved := by
    intro hfull hasStore between s s' hsent hcommit
    obtain ⟨req, hreq, -, hinv⟩ := hsent.formInv hbefore hfull
    obtain ⟨v, hv, hv'⟩ := hinv.version_saved hcommit
    have hidle := handleAppPatch_idle hfull hreq
    refine ⟨hinv.saved hfull hreq hcommit, v, hv, fun hne => ?_, fun heq => ?_⟩
    · rw [hv', if_pos (hidle.mpr hne)]
    · rw [hv', if_neg (fun h => hidle.mp h heq), add_zero]
  small := by
    intro hmini hasStore between s s' hsent hcommit
    obtain ⟨hcaps, hversion⟩ := hsent.small hmini hcommit
    exact ⟨hcaps.trans hsent.kept.1, hversion.trans hsent.kept.2⟩

end Form

def createPings : List AdminAction :=
  [.create "" (some { id := "pings", name := "Pings", capabilities := ["noop.invoke"] }),
    .exec 0, .exec 0, .commit 0]

/-- One box is sent twice, another one is not on the page. -/
def pingsForm : Form
  | "capabilities" => ["messages.direct.send", "apps.register", "messages.direct.send"]
  | "min_grade" => ["user"]
  | _ => []

theorem pingsForm_honoured :
    ∃ s₀ s s', run (adminStep plainArgon .inOrder) (.new .empty) createPings = some s₀ ∧
      FormSent plainArgon .inOrder "pings" pingsForm true (List.replicate 7 (.exec 1)) s₀ s ∧
      adminStep plainArgon .inOrder s (.commit s₀.txs.length) = some s' ∧
      FormHonoured plainArgon .inOrder "pings" pingsForm s₀ := by
  have hfinal : ((run (adminStep plainArgon .inOrder) (.new .empty) createPings).bind fun s₀ =>
      (run (adminStep plainArgon .inOrder) s₀
        (.uiPatch true "pings" pingsForm :: List.replicate 7 (.exec 1))).bind
        fun s => adminStep plainArgon .inOrder s (.commit s₀.txs.length)).isSome = true := by
    decide +kernel
  obtain ⟨s', hfinal⟩ := Option.isSome_iff_exists.mp hfinal
  obtain ⟨s₀, hbefore, hfinal⟩ := Option.bind_eq_some_iff.mp hfinal
  obtain ⟨s, hafter, hcommit⟩ := Option.bind_eq_some_iff.mp hfinal
  have hrequest : ((run (adminStep plainArgon .inOrder) (.new .empty) createPings).all fun s₀ =>
      (handleAppPatch .inOrder (some s₀.db) "pings" pingsForm).any fun req =>
        (patch "pings" (some req)).toOption.isSome) = true := by
    decide +kernel
  rw [hbefore, Option.all_some, Option.any_eq_true] at hrequest
  obtain ⟨req, hreq, hok⟩ := hrequest
  have hsent : FormSent plainArgon .inOrder "pings" pingsForm true (List.replicate 7 (.exec 1))
      s₀ s := by
    refine ⟨?_, hafter, guarded_of_forall (fun action haction s => leavesApp_of_rows ?_) s₀⟩
    · cases hpatch : patch "pings" (some req) with
      | error err =>
          rw [hpatch] at hok
          cases hok
      | ok tx => exact ⟨req, tx, hreq, hpatch⟩
    · rintro m rfl
      simp at haction
  exact ⟨s₀, s, s', hbefore, hsent, hcommit,
    uiPatch_honoured plainArgon .inOrder .empty "pings" pingsForm hbefore⟩

end TelegramServer.Api

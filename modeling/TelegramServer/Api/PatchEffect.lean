import TelegramServer.Api.AppLocks
import TelegramServer.Auth.KeyLifecycle

/-!
What a patch that answers 200 has done. `Patch` asks whether the app exists, asks for
its row (`FOR UPDATE`) and then updates; none of the statements checks that it has
found a row. A purge that commits between the first two leaves a patch that updates
nothing and answers 200 all the same.

A patch that finds its row holds it until the commit. From then on each statement does
what it says, and what it has done lasts: the effect of the statements so far is part
of the stage a transaction is in (`PatchStage`), and `commit_of_locked` carries it
over the commits of the others.
-/

namespace TelegramServer.Api

open Lib Registry Auth

/-! ### What is asked for -/

/-- The app has what the request supplied, and `db` are the rows just before the commit. -/
structure TookEffect (appID : String) (req : PatchAppRequest) (db db' : AdminDatabase) : Prop where
  row : ∃ row row', db.apps.find? appID = some row ∧ db'.apps.find? appID = some row' ∧
    (∀ d ∈ req.description, row'.description = d) ∧ (∀ g ∈ req.minGrade, row'.minGrade = g) ∧
    (∀ b ∈ req.active, row'.active = b) ∧
    row'.capabilitySetVersion = row.capabilitySetVersion +
      if req.addCapabilities ≠ [] ∨ req.removeCapabilities ≠ [] then 1 else 0
  granted : ∀ c ∈ req.addCapabilities, c ∉ req.removeCapabilities → db'.Grants appID c
  revoked : ∀ c ∈ req.removeCapabilities, ¬db'.Grants appID c

/-- What a patch owes its caller. It came in the state `s₀`, so that its transaction is the next
one there, and the run has got to `s`. -/
structure PatchHonoured (argon : Argon2) (planner : Planner) (appID : String)
    (body : Option PatchAppRequest) (s₀ s : AdminState) : Prop where
  /-- A request that fails its checks does nothing. -/
  refused : ∀ err, patch appID body = .error err →
    adminStep argon planner s₀ (.patch appID body) = some s₀
  /-- Until it commits, nothing it does changes the tables. -/
  unwritten : ∀ action s', action = .patch appID body ∨ action = .exec s₀.txs.length ∨
    action = .rollback s₀.txs.length → adminStep argon planner s action = some s' → s'.db = s.db
  /-- Once it is over, it does not commit any more. -/
  ended : s.txs[s₀.txs.length]? = some none → ∀ later s',
    run (adminStep argon planner) s later = some s' →
    adminStep argon planner s' (.commit s₀.txs.length) = none
  /-- Its commit, which is answered with 200. -/
  committed : ∀ tx req s', patch appID body = .ok tx → body = some req →
    adminStep argon planner s (.commit s₀.txs.length) = some s' → TookEffect appID req s.db s'.db

def AdminAction.executes (n : ℕ) : AdminAction → Bool
  | .exec m => m == n
  | _ => false

/-- The next statement is the `FOR UPDATE`. -/
def Tx.asksForRow (tx : Tx) : Bool :=
  match tx.todo with
  | .lockApp :: _ => true
  | _ => false

/-- When the `n`-th transaction asks for the row of its app, the row is there. -/
def FindsRow (n : ℕ) (s : AdminState) (action : AdminAction) : Prop :=
  action.executes n = true → ∀ tx ∈ s.txs[n]?.join, tx.asksForRow = true → s.db.HasApp tx.appID

instance (n : ℕ) (s : AdminState) (action : AdminAction) : Decidable (FindsRow n s action) :=
  inferInstanceAs (Decidable (_ → ∀ tx ∈ s.txs[n]?.join, _ → s.db.HasApp tx.appID))

/-! ### The statements of a patch -/

/-- The statements after the `FOR UPDATE`. -/
def patchStmts (req : PatchAppRequest) : List AppStmt :=
  (req.description.map .setDescription).toList ++ (req.minGrade.map .setMinGrade).toList ++
    (req.active.map .setActive).toList ++ capabilityStmts req

namespace AppStmt

def patches : AppStmt → Bool
  | .setDescription _ | .setMinGrade _ | .setActive _ | .bumpVersion | .insertCapability _
  | .deleteCapability _ => true
  | _ => false

def rowWrites (stmt : AppStmt) : List AppWrite := stmt.writes.filter AppWrite.updatesRow

/-- Whether the capability is granted after the statement, if that is what it is about. -/
def decides (c : Capability) : AppStmt → Option Bool
  | .insertCapability c' => if c = c' then some true else none
  | .deleteCapability c' => if c = c' then some false else none
  | _ => none

end AppStmt

/-- What the last of the statements about a capability says. -/
def lastDecision (c : Capability) (stmts : List AppStmt) : Option Bool :=
  stmts.reverse.findSome? (AppStmt.decides c)

/-- The row a patch makes. -/
def PatchAppRequest.onRow (req : PatchAppRequest) (row : AppEntry) : AppEntry :=
  { row with
    description := req.description.getD row.description
    minGrade := req.minGrade.getD row.minGrade
    active := req.active.getD row.active
    capabilitySetVersion := row.capabilitySetVersion +
      if req.addCapabilities ≠ [] ∨ req.removeCapabilities ≠ [] then 1 else 0 }

section Statements

variable {db : AdminDatabase} {others : List Tx} {tx : Tx} {stmt : AppStmt}
  {stmts done todo : List AppStmt} {ws : List AppWrite} {lock : Option LockMode}
  {req : PatchAppRequest} {c : Capability}

theorem patches_of_mem_patchStmts (h : stmt ∈ patchStmts req) : stmt.patches = true := by
  simp only [patchStmts, capabilityStmts, List.mem_append, Option.mem_toList,
    Option.map_eq_some_iff, List.mem_map, List.mem_ite_nil_right, List.mem_singleton] at h
  obtain ((⟨_, -, rfl⟩ | ⟨_, -, rfl⟩) | ⟨_, -, rfl⟩) |
    ((⟨_, -, rfl⟩ | ⟨_, -, rfl⟩) | ⟨-, rfl⟩) := h <;> rfl

/-- All the updates of the row. -/
theorem flatMap_rowWrites_patchStmts (req : PatchAppRequest) :
    (patchStmts req).flatMap AppStmt.rowWrites =
      (req.description.map .setDescription).toList ++ (req.minGrade.map .setMinGrade).toList ++
        (req.active.map .setActive).toList ++
        if req.addCapabilities ≠ [] ∨ req.removeCapabilities ≠ [] then [.bumpVersion] else [] := by
  have hcapabilities : (capabilityStmts req).flatMap AppStmt.rowWrites =
      if req.addCapabilities ≠ [] ∨ req.removeCapabilities ≠ [] then [.bumpVersion] else [] := by
    have hadd : (req.addCapabilities.map AppStmt.insertCapability).flatMap AppStmt.rowWrites = [] :=
      List.flatMap_eq_nil_iff.mpr (by simp [AppStmt.rowWrites, AppStmt.writes, AppWrite.updatesRow])
    have hremove :
        (req.removeCapabilities.map AppStmt.deleteCapability).flatMap AppStmt.rowWrites = [] :=
      List.flatMap_eq_nil_iff.mpr (by simp [AppStmt.rowWrites, AppStmt.writes, AppWrite.updatesRow])
    rw [capabilityStmts, List.flatMap_append, List.flatMap_append, hadd, hremove]
    split <;> rfl
  rw [patchStmts, List.flatMap_append, hcapabilities]
  congr 1
  rcases req with ⟨_ | _, _ | _, _ | _, _, _⟩ <;> rfl

theorem foldl_rowAfter_patchStmts (appID : String) (req : PatchAppRequest) (row : AppEntry) :
    ((patchStmts req).flatMap AppStmt.rowWrites).foldl (AppWrite.rowAfter appID) (some row) =
      some (req.onRow row) := by
  rw [flatMap_rowWrites_patchStmts, List.foldl_append]
  unfold PatchAppRequest.onRow
  split <;> rcases req with ⟨_ | _, _ | _, _ | _, _, _⟩ <;> simp [AppWrite.rowAfter]

/-- The other writes of a transaction that does not insert the app leave its row alone. -/
theorem foldl_rowAfter_filter {appID : String} (hws : ws.any AppWrite.insertsApp = false)
    (row : Option AppEntry) :
    (ws.filter AppWrite.updatesRow).foldl (AppWrite.rowAfter appID) row =
      ws.foldl (AppWrite.rowAfter appID) row := by
  induction ws generalizing row with
  | nil => rfl
  | cons w ws ih =>
      rw [List.any_cons, Bool.or_eq_false_iff] at hws
      rw [List.filter_cons, List.foldl_cons]
      split
      · exact ih hws.2 _
      · next hrow =>
          have hkeep : w.rowAfter appID row = row := by
            cases w <;> simp_all [AppWrite.rowAfter, AppWrite.updatesRow, AppWrite.insertsApp]
          rw [hkeep]
          exact ih hws.2 row

theorem findSome?_ite {α : Type*} (cs : List Capability) (c : Capability) (b : α) :
    cs.findSome? (fun c' => if c = c' then some b else none) =
      if c ∈ cs then some b else none := by
  induction cs with
  | nil => rfl
  | cons c' cs ih =>
      rw [List.findSome?_cons, ih]
      by_cases hc : c = c' <;> simp [hc]

theorem lastDecision_append :
    lastDecision c (done ++ todo) = (lastDecision c todo).or (lastDecision c done) := by
  rw [lastDecision, List.reverse_append, List.findSome?_append]
  rfl

theorem lastDecision_singleton : lastDecision c [stmt] = stmt.decides c := by
  rw [lastDecision, List.reverse_singleton, List.findSome?_singleton]

theorem lastDecision_eq_none (h : ∀ stmt ∈ stmts, stmt.decides c = none) :
    lastDecision c stmts = none :=
  List.findSome?_eq_none_iff.mpr fun stmt hstmt => h stmt (List.mem_reverse.mp hstmt)

/-- The removals come last. -/
theorem lastDecision_patchStmts (c : Capability) (req : PatchAppRequest) :
    lastDecision c (patchStmts req) =
      if c ∈ req.removeCapabilities then some false
      else if c ∈ req.addCapabilities then some true else none := by
  have hadd : lastDecision c (req.addCapabilities.map .insertCapability) =
      if c ∈ req.addCapabilities then some true else none := by
    rw [lastDecision, ← List.map_reverse, List.findSome?_map]
    exact (findSome?_ite req.addCapabilities.reverse c true).trans (by simp)
  have hremove : lastDecision c (req.removeCapabilities.map .deleteCapability) =
      if c ∈ req.removeCapabilities then some false else none := by
    rw [lastDecision, ← List.map_reverse, List.findSome?_map]
    exact (findSome?_ite req.removeCapabilities.reverse c false).trans (by simp)
  rw [patchStmts, capabilityStmts, lastDecision_append, lastDecision_append, lastDecision_append,
    hadd, hremove, lastDecision_eq_none, lastDecision_eq_none, Option.none_or, Option.or_none]
  · split <;> rfl
  · rcases req with ⟨_ | _, _ | _, _ | _, _, _⟩ <;> simp [AppStmt.decides]
  · split <;> simp [AppStmt.decides]

theorem Tx.view_after : (tx.after todo ws lock).view db =
    ws.foldl (AppWrite.apply tx.appID) (tx.view db) :=
  List.foldl_append

/-- A statement of a patch that finds the app does what it says. -/
theorem Executed.patches (todo : List AppStmt) (hstmt : stmt.patches = true)
    (happ : db.HasApp tx.appID) (hview : (tx.view db).HasApp tx.appID)
    (h : Executed db others tx stmt (.done ws lock)) :
    ws.filter AppWrite.updatesRow = stmt.rowWrites ∧
      ∀ c, ((tx.after todo ws lock).view db).Grants tx.appID c ↔
        (stmt.decides c).elim ((tx.view db).Grants tx.appID c) (· = true) := by
  cases h with
  | insertApp | deleteApp | insertKey | revokeKey => cases hstmt
  | lockRow hlock =>
      refine ⟨rfl, fun c => ?_⟩
      rw [Tx.view_after]
      cases stmt with
      | setDescription | setMinGrade | setActive | bumpVersion =>
          rw [AppStmt.writes, List.foldl_cons, List.foldl_nil]
          exact AppWrite.grants_apply_of_quiet rfl rfl
      | lockApp | deactivate => cases hstmt
      | _ => cases hlock
  | idle hidle =>
      cases stmt with
      | setDescription | setMinGrade | setActive | bumpVersion => exact absurd happ hidle
      | insertCapability c' | deleteCapability c' =>
          refine ⟨rfl, fun c => ?_⟩
          rw [Tx.view_after, AppStmt.decides]
          by_cases hc : c = c'
          · simpa [hc, AppStmt.Idle] using hidle
          · simp [hc]
      | _ => cases hstmt
  | insertCapability | deleteCapability =>
      refine ⟨rfl, fun c => ?_⟩
      rw [Tx.view_after, List.foldl_cons, List.foldl_nil, AppWrite.grants_apply hview rfl,
        AppStmt.decides, AppWrite.grantAfter]
      split <;> simp_all

end Statements

/-! ### The stages of a patch -/

/-- The transaction holds the row of its app and has executed `done`. -/
structure HoldsRow (req : PatchAppRequest) (db : AdminDatabase) (tx : Tx) (done : List AppStmt) :
    Prop where
  split : patchStmts req = done ++ tx.todo
  lock : tx.lock = some .update
  present : db.HasApp tx.appID
  row : tx.writes.filter AppWrite.updatesRow = done.flatMap AppStmt.rowWrites
  capabilities : ∀ c b, lastDecision c done = some b →
    ((tx.view db).Grants tx.appID c ↔ b = true)

/-- How far the transaction of a patch has got. -/
inductive PatchStage (appID : String) (req : PatchAppRequest) (db : AdminDatabase) : Tx → Prop
  | begun : PatchStage appID req db
      { appID := appID, todo := .selectExists :: .lockApp :: patchStmts req }
  | found : PatchStage appID req db { appID := appID, todo := .lockApp :: patchStmts req }
  | locked {tx : Tx} {done : List AppStmt} (happID : tx.appID = appID)
      (h : HoldsRow req db tx done) : PatchStage appID req db tx

section Stages

variable {argon : Argon2} {planner : Planner} {s s' : AdminState} {action : AdminAction}
  {db : AdminDatabase} {others : List Tx} {tx t : Tx} {stmt : AppStmt}
  {done todo : List AppStmt} {ws : List AppWrite} {lock : Option LockMode}
  {req : PatchAppRequest} {appID : String} {n : ℕ}

theorem HoldsRow.deletes_eq_false (h : HoldsRow req db tx done) : tx.deletes = false := by
  refine Bool.eq_false_iff.mpr fun hdel => ?_
  obtain ⟨w, hw, hwd⟩ := List.any_eq_true.mp hdel
  have hrow : w ∈ done.flatMap AppStmt.rowWrites := by
    rw [← h.row]
    refine List.mem_filter.mpr ⟨hw, ?_⟩
    cases w <;> simp_all [AppWrite.deletesApp, AppWrite.updatesRow]
  obtain ⟨stmt, hstmt, hmem⟩ := List.mem_flatMap.mp hrow
  have hpatches : stmt.patches = true :=
    patches_of_mem_patchStmts (h.split ▸ List.mem_append_left _ hstmt)
  have hwrites := List.mem_of_mem_filter hmem
  cases stmt <;> simp_all [AppStmt.patches, AppStmt.writes, AppWrite.deletesApp]

/-- **Step.** One of its own statements. -/
theorem HoldsRow.exec (h : HoldsRow req db tx done) (htodo : tx.todo = stmt :: todo)
    (hexec : Executed db others tx stmt (.done ws lock)) :
    HoldsRow req db (tx.after todo ws lock) (done ++ [stmt]) := by
  have hmem : stmt ∈ patchStmts req := by
    rw [h.split, htodo]
    simp
  have hview : (tx.view db).HasApp tx.appID :=
    Tx.hasApp_view (fun _ => h.deletes_eq_false) h.present
  obtain ⟨hrow, hcaps⟩ := hexec.patches todo (patches_of_mem_patchStmts hmem) h.present hview
  refine ⟨?_, ?_, h.present, ?_, ?_⟩
  · rw [h.split, htodo, Tx.todo_after, List.append_assoc]
    rfl
  · cases hexec.locks with
    | keep _ => exact h.lock
    | take m _ _ => rw [Tx.lock_after, h.lock, LockMode.update_join]
  · rw [Tx.writes_after, List.filter_append, h.row, hrow, List.flatMap_append,
      List.flatMap_singleton]
  · intro c b hb
    rw [lastDecision_append, lastDecision_singleton] at hb
    rw [Tx.appID_after, hcaps c]
    cases hdecides : stmt.decides c with
    | none =>
        rw [hdecides] at hb
        exact h.capabilities c b hb
    | some b' =>
        rw [hdecides] at hb
        obtain rfl : b' = b := Option.some.inj hb
        rfl

/-- **Step.** The commit of another transaction, which keeps the app and its capabilities. -/
theorem HoldsRow.commit (h : HoldsRow req db tx done) {db' : AdminDatabase}
    (hkept : db'.HasApp tx.appID ∧ ∀ c, db'.Grants tx.appID c ↔ db.Grants tx.appID c) :
    HoldsRow req db' tx done := by
  refine ⟨h.split, h.lock, hkept.1, h.row, fun c b hb => ?_⟩
  have hdel := h.deletes_eq_false
  rw [Tx.grants_view hkept.1 hdel, propext (hkept.2 c), ← Tx.grants_view h.present hdel]
  exact h.capabilities c b hb

/-- What has been done when nothing is left to do. -/
theorem HoldsRow.tookEffect (h : HoldsRow req db tx done) (htodo : tx.todo = [])
    (hins : tx.inserts = false) : TookEffect tx.appID req db (tx.view db) := by
  obtain rfl : patchStmts req = done := by rw [h.split, htodo, List.append_nil]
  have hcaps := h.capabilities
  simp only [lastDecision_patchStmts] at hcaps
  refine ⟨?_, fun c hadd hremove => ?_, fun c hremove => ?_⟩
  · obtain ⟨row, hrow⟩ := Option.isSome_iff_exists.mp (Table.isSome_find?.mpr h.present)
    refine ⟨row, req.onRow row, hrow, ?_, ?_, ?_, ?_, rfl⟩
    · rw [Tx.find?_view, hrow, ← foldl_rowAfter_filter hins, h.row, foldl_rowAfter_patchStmts]
    · intro d hd
      simp [PatchAppRequest.onRow, Option.mem_def.mp hd]
    · intro g hg
      simp [PatchAppRequest.onRow, Option.mem_def.mp hg]
    · intro b hb
      simp [PatchAppRequest.onRow, Option.mem_def.mp hb]
  · rw [hcaps c true (by rw [if_neg hremove, if_pos hadd])]
  · rw [hcaps c false (if_pos hremove)]
    simp

/-- The `n`-th transaction is that of the patch, as long as it is open. -/
structure PatchInv (appID : String) (req : PatchAppRequest) (n : ℕ) (s : AdminState) : Prop where
  index : n < s.txs.length
  stage : ∀ tx, s.Open n tx → PatchStage appID req s.db tx

theorem patchInv_start
    (htx : tx = { appID := appID, todo := .selectExists :: .lockApp :: patchStmts req }) :
    PatchInv appID req s.txs.length (s.start tx) := by
  refine ⟨by simp [AdminState.start], fun t hopen => ?_⟩
  obtain ⟨-, rfl⟩ | ⟨hlt, -⟩ := open_of_append rfl hopen
  · rw [htx]
    exact .begun
  · exact absurd hlt (lt_irrefl _)

/-- Only its own statements move a transaction on. -/
theorem open_of_not_executes (h : adminStep argon planner s action = some s')
    (hn : action.executes n = false) (hlt : n < s.txs.length) (hopen : s'.Open n tx) :
    s.Open n tx := by
  cases adminStep_move h with
  | refuse | resolve | miss | found | load => exact hopen
  | start tx' _ =>
      obtain ⟨rfl, -⟩ | ⟨-, hopen⟩ := open_of_append rfl hopen
      · exact absurd hlt (lt_irrefl _)
      · exact hopen
  | exec m =>
      obtain ⟨rfl, -⟩ | ⟨-, hopen⟩ := open_of_set_some rfl hopen
      · simp [AdminAction.executes] at hn
      · exact hopen
  | finish m | commit m => exact (open_of_set_none rfl hopen).2

/-- **Step.** One of its own statements, if it finds the row where it asks for it. -/
theorem PatchStage.exec (h : PatchStage appID req db tx)
    (hfinds : tx.asksForRow = true → db.HasApp tx.appID) (htodo : tx.todo = stmt :: todo)
    (hexec : Executed db others tx stmt (.done ws lock)) :
    PatchStage appID req db (tx.after todo ws lock) := by
  cases h with
  | begun =>
      obtain ⟨rfl, rfl⟩ := List.cons.inj htodo
      cases hexec with
      | idle => exact .found
      | lockRow hstmt => cases hstmt
  | found =>
      obtain ⟨rfl, rfl⟩ := List.cons.inj htodo
      have happ := hfinds rfl
      cases hexec with
      | idle hnone => exact absurd happ hnone
      | lockRow hstmt =>
          obtain rfl := Option.some.inj hstmt
          have hrow : HoldsRow req db
              { appID := appID, todo := patchStmts req, lock := some .update } [] := by
            refine ⟨rfl, rfl, happ, rfl, fun c b hb => ?_⟩
            cases hb
          exact .locked rfl hrow
  | locked happID h => exact .locked happID (h.exec htodo hexec)

/-- **Step.** A step of a run. -/
theorem PatchInv.step (hinv : AdminInv s) (hlocks : LockInv s) (hfinds : FindsRow n s action)
    (hstep : adminStep argon planner s action = some s') (h : PatchInv appID req n s) :
    PatchInv appID req n s' := by
  have hindex := adminStep_index_lt hstep h.index
  cases adminStep_effect hstep with
  | quiet hdb htxs _ =>
      refine ⟨hindex, fun tx hopen => ?_⟩
      rw [AdminState.Open, htxs] at hopen
      exact hdb ▸ h.stage tx hopen
  | start tx' _ hdb htxs _ =>
      refine ⟨hindex, fun tx hopen => ?_⟩
      obtain ⟨hlast, -⟩ | ⟨-, hopen⟩ := open_of_append htxs hopen
      · exact absurd h.index (hlast ▸ lt_irrefl _)
      · exact hdb ▸ h.stage tx hopen
  | finish m hdb htxs _ =>
      refine ⟨hindex, fun tx hopen => ?_⟩
      exact hdb ▸ h.stage tx (open_of_set_none htxs hopen).2
  | exec m t stmt todo ws lock hm htodo hexec hdb htxs _ =>
      refine ⟨hindex, fun tx hopen => ?_⟩
      rw [hdb]
      obtain ⟨rfl, rfl⟩ | ⟨-, hopen'⟩ := open_of_set_some htxs hopen
      · have hown : action.executes n = true := by
          by_contra hnot
          have hsame := open_of_not_executes hstep (Bool.eq_false_iff.mpr hnot) h.index hopen
          rw [AdminState.Open, hm] at hsame
          have htx : t = t.after todo ws lock := by simpa using hsame
          have hlength := congrArg (fun tx => tx.todo.length) htx
          simp [htodo] at hlength
        refine (h.stage t hm).exec (fun hasks => hfinds hown t ?_ hasks) htodo hexec
        rw [hm]
        rfl
      · exact h.stage tx hopen'
  | commit m t _ hm htodo hdb htxs _ =>
      refine ⟨hindex, fun tx hopen => ?_⟩
      obtain ⟨hne, hopen⟩ := open_of_set_none htxs hopen
      rw [hdb]
      cases h.stage tx hopen with
      | begun => exact .begun
      | found => exact .found
      | locked happID hrow =>
          refine .locked happID (hrow.commit ?_)
          exact commit_of_locked hinv hlocks hne hopen hm hrow.lock hrow.present htodo

/-- **Run.** A patch that finds the row where it asks for it. -/
theorem patchInv_of_run {actions : List AdminAction} (hinv : AdminInv s) (hlocks : LockInv s)
    (h : PatchInv appID req n s)
    (hguard : Guarded (adminStep argon planner) (FindsRow n) s actions)
    (hrun : run (adminStep argon planner) s actions = some s') :
    AdminInv s' ∧ PatchInv appID req n s' := by
  have hall : AdminInv s' ∧ LockInv s' ∧ PatchInv appID req n s' := by
    refine run_invariant_of_guarded
      (I := fun s => AdminInv s ∧ LockInv s ∧ PatchInv appID req n s) ?_ ⟨hinv, hlocks, h⟩
      hguard hrun
    rintro s action s' ⟨hinv, hlocks, h⟩ hfinds hstep
    exact ⟨(adminStep_effect hstep).adminInv hinv, (adminStep_effect hstep).lockInv hlocks,
      h.step hinv hlocks hfinds hstep⟩
  exact ⟨hall.1, hall.2.2⟩

/-- The commit of a patch that finds the row where it asks for it. -/
theorem PatchInv.tookEffect (hinv : AdminInv s) (h : PatchInv appID req n s)
    (hstep : adminStep argon planner s (.commit n) = some s') :
    TookEffect appID req s.db s'.db := by
  obtain ⟨tx, hopen, htodo, hdb⟩ := commit_eq_some hstep
  rw [hdb]
  cases h.stage tx hopen with
  | begun | found => cases htodo
  | locked happID hrow =>
      have hins : tx.inserts = false := Bool.eq_false_iff.mpr fun hins =>
        (hinv.each hopen).fresh hins hrow.present
      exact happID ▸ hrow.tookEffect htodo hins

/-- **A patch that answers 200 took effect**, in every run in which it finds the row of the app
where it asks for it. -/
theorem patch_honoured (argon : Argon2) (planner : Planner) (db : AdminDatabase)
    {before after : List AdminAction} {s₀ s : AdminState} (appID : String)
    (body : Option PatchAppRequest)
    (hbefore : run (adminStep argon planner) (.new db) before = some s₀)
    (hafter : run (adminStep argon planner) s₀ (.patch appID body :: after) = some s)
    (hguard : Guarded (adminStep argon planner) (FindsRow s₀.txs.length) s₀
      (.patch appID body :: after)) :
    PatchHonoured argon planner appID body s₀ s where
  refused := by
    intro err herr
    rw [adminStep, herr]
    rfl
  unwritten := by
    intro action s' hown hstep
    obtain ⟨hdb, -⟩ | ⟨n, -, rfl, -⟩ := adminStep_rows hstep
    · exact hdb
    · simp at hown
  ended := by
    intro hended later s' hlater
    exact commit_eq_none hended hlater
  committed := by
    intro tx req s' hok hbody hcommit
    obtain ⟨req', hreq, -, htx⟩ := patch_ok hok
    obtain rfl : req' = req := Option.some.inj (hreq.symm.trans hbody)
    obtain ⟨s₁, hstart, hrest⟩ := run_cons_eq_some.mp hafter
    have hreach := run_concat hbefore hstart
    have hs₁ : s₁ = s₀.start tx := by
      rw [adminStep, hok] at hstart
      exact (Option.some.inj hstart).symm
    have hinit : PatchInv appID req' s₀.txs.length s₁ := hs₁ ▸ patchInv_start htx
    obtain ⟨hinv, hpatch⟩ := patchInv_of_run (adminInv_of_run hreach) (lockInv_of_run hreach)
      hinit (hguard.2 s₁ hstart) hrest
    exact hpatch.tookEffect hinv hcommit

end Stages

def createNews : List AdminAction :=
  [.create "" (some { id := "news", name := "News" }), .exec 0, .commit 0]

def describeNews : Option PatchAppRequest := some { description := some "Daily news" }

/-- The purge comes when the patch holds the row. -/
def purgeTooLate : List AdminAction := [.exec 1, .exec 1, .purge "news", .exec 1]

theorem purgeTooLate_honoured :
    ∃ s₀ s s', run (adminStep plainArgon .inOrder) (.new .empty) createNews = some s₀ ∧
      run (adminStep plainArgon .inOrder) s₀ (.patch "news" describeNews :: purgeTooLate) =
        some s ∧
      PatchHonoured plainArgon .inOrder "news" describeNews s₀ s ∧
      adminStep plainArgon .inOrder s (.commit s₀.txs.length) = some s' := by
  have hfinal : ((run (adminStep plainArgon .inOrder) (.new .empty) createNews).bind fun s₀ =>
      (run (adminStep plainArgon .inOrder) s₀ (.patch "news" describeNews :: purgeTooLate)).bind
        fun s => adminStep plainArgon .inOrder s (.commit s₀.txs.length)).isSome = true := by
    decide +kernel
  obtain ⟨s', hfinal⟩ := Option.isSome_iff_exists.mp hfinal
  obtain ⟨s₀, hbefore, hfinal⟩ := Option.bind_eq_some_iff.mp hfinal
  obtain ⟨s, hafter, hcommit⟩ := Option.bind_eq_some_iff.mp hfinal
  have hguard : ((run (adminStep plainArgon .inOrder) (.new .empty) createNews).all fun s₀ =>
      Guarded (adminStep plainArgon .inOrder) (FindsRow s₀.txs.length) s₀
        (.patch "news" describeNews :: purgeTooLate)) = true := by
    decide +kernel
  rw [hbefore, Option.all_some, decide_eq_true_eq] at hguard
  exact ⟨s₀, s, s', hbefore, hafter,
    patch_honoured plainArgon .inOrder .empty "news" describeNews hbefore hafter hguard, hcommit⟩

/-- The purge commits after the patch has seen the app and before it asks for its row. -/
def purgeBetween : List AdminAction :=
  [.exec 1, .purge "news", .exec 2, .exec 2, .commit 2, .exec 1, .exec 1]

/-- The patch answers 200, and there is no such app. -/
theorem purgeBetween_not_honoured :
    ∃ s₀ s, run (adminStep plainArgon .inOrder) (.new .empty) createNews = some s₀ ∧
      run (adminStep plainArgon .inOrder) s₀ (.patch "news" describeNews :: purgeBetween) =
        some s ∧
      ¬PatchHonoured plainArgon .inOrder "news" describeNews s₀ s := by
  have hfinal : ((run (adminStep plainArgon .inOrder) (.new .empty) createNews).bind fun s₀ =>
      (run (adminStep plainArgon .inOrder) s₀ (.patch "news" describeNews :: purgeBetween)).bind
        fun s => adminStep plainArgon .inOrder s (.commit s₀.txs.length)).map
          (fun s' => s'.db.version "news") = some none := by
    decide +kernel
  obtain ⟨s', hfinal, hgone⟩ := Option.map_eq_some_iff.mp hfinal
  obtain ⟨s₀, hbefore, hfinal⟩ := Option.bind_eq_some_iff.mp hfinal
  obtain ⟨s, hafter, hcommit⟩ := Option.bind_eq_some_iff.mp hfinal
  refine ⟨s₀, s, hbefore, hafter, fun h => ?_⟩
  obtain ⟨row, row', -, hrow', -⟩ := (h.committed _ _ s' rfl rfl hcommit).row
  rw [AdminDatabase.version, hrow'] at hgone
  cases hgone

end TelegramServer.Api

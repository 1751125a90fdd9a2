import TelegramServer.Api.AppSteps

/-!
What holds of the open transactions at any point of a run. The invariant says what a
transaction can still rely on when it commits: the app it writes about is there, and
the version of the app is bumped after its capabilities have changed. No other
transaction can have taken the row of the app away in the meantime, because two that
work on the same app keep apart.
-/

namespace TelegramServer.Api

open Go Lib Registry Auth

/-- After a change of the capabilities there is still a bump of the version to come. -/
def BumpsAfter : List AppStmt → Prop
  | [] => True
  | stmt :: rest =>
      stmt.insertsApp = true ∨
        (stmt.changesCapabilities = true → .bumpVersion ∈ rest) ∧ BumpsAfter rest

theorem BumpsAfter.append {stmts rest : List AppStmt}
    (hstmts : ∀ stmt ∈ stmts, stmt.changesCapabilities = true → .bumpVersion ∈ rest)
    (hrest : BumpsAfter rest) : BumpsAfter (stmts ++ rest) := by
  induction stmts with
  | nil => exact hrest
  | cons stmt stmts ih =>
      refine .inr ⟨fun hchange => ?_, ih fun stmt' h => hstmts stmt' (.tail _ h)⟩
      exact List.mem_append_right _ (hstmts stmt (.head _) hchange)

/-- An open transaction, with respect to the committed rows. -/
structure TxInv (db : AdminDatabase) (tx : Tx) : Prop where
  fresh : tx.inserts = true → ¬db.HasApp tx.appID
  present : tx.refers = true → db.HasApp tx.appID ∨ tx.inserts = true
  bumped : tx.changesCapabilities = true →
    tx.inserts = true ∨ .bumpVersion ∈ tx.todo ∨ .bumpVersion ∈ tx.writes
  program : tx.inserts = true ∨ BumpsAfter tx.todo
  locked : tx.deletes = true → tx.lock = some .update

/-- Two open transactions on the same app. -/
structure Apart (tx tx' : Tx) : Prop where
  inserts : tx.inserts = true → tx'.inserts = false
  deletes : tx.deletes = true → tx'.refers = true → tx'.inserts = true

structure AdminInv (s : AdminState) : Prop where
  each : ∀ {n tx}, s.Open n tx → TxInv s.db tx
  apart : ∀ {n m tx tx'}, n ≠ m → s.Open n tx → s.Open m tx' → tx.appID = tx'.appID → Apart tx tx'

theorem adminInv_new (db : AdminDatabase) : AdminInv (.new db) where
  each h := by simp [AdminState.Open, AdminState.new] at h
  apart _ h := by simp [AdminState.Open, AdminState.new] at h

section Invariant

variable {argon : Argon2} {planner : Planner} {s s' : AdminState} {action : AdminAction}
  {db : AdminDatabase} {others : List Tx} {tx t : Tx} {stmt : AppStmt} {todo : List AppStmt}
  {ws : List AppWrite} {lock : Option LockMode}

theorem capabilityStmts_bumpsAfter (req : PatchAppRequest) : BumpsAfter (capabilityStmts req) := by
  unfold capabilityStmts
  split
  · refine BumpsAfter.append (fun _ _ _ => List.mem_singleton_self _) ?_
    exact .inr ⟨by simp [AppStmt.changesCapabilities], trivial⟩
  · next hnone =>
      push Not at hnone
      simp [hnone.1, hnone.2, BumpsAfter]

theorem create_ok {createdBy : String} {body : Option CreateAppRequest}
    (h : create createdBy body = .ok tx) :
    ∃ req, body = some req ∧ validateCapabilityGrant req.capabilities = none ∧
      tx = { appID := req.id
             todo :=
               .insertApp req.name req.description ((nullIf req.minGrade "").getD "user")
                 createdBy :: req.capabilities.map .insertCapability } := by
  unfold create at h
  split at h
  · cases h
  · next req =>
      split_ifs at h
      split at h
      · cases h
      · next hgrant => exact ⟨req, rfl, hgrant, (Except.ok.inj h).symm⟩

theorem patch_ok {appID : String} {body : Option PatchAppRequest}
    (h : patch appID body = .ok tx) :
    ∃ req, body = some req ∧ validateCapabilityGrant req.addCapabilities = none ∧
      tx = { appID := appID
             todo :=
               [.selectExists, .lockApp] ++ (req.description.map .setDescription).toList ++
                 (req.minGrade.map .setMinGrade).toList ++
                 (req.active.map .setActive).toList ++ capabilityStmts req } := by
  unfold patch at h
  split at h
  · cases h
  · next req =>
      split_ifs at h
      split at h
      · cases h
      · next hgrant => exact ⟨req, rfl, hgrant, (Except.ok.inj h).symm⟩

/-- A transaction that starts has written nothing and holds no lock. -/
theorem Starts.fresh (h : Starts argon tx) : tx.writes = [] ∧ tx.lock = none := by
  cases h with
  | create h =>
      obtain ⟨req, -, -, rfl⟩ := create_ok h
      exact ⟨rfl, rfl⟩
  | patch h =>
      obtain ⟨req, -, -, rfl⟩ := patch_ok h
      exact ⟨rfl, rfl⟩
  | _ => exact ⟨rfl, rfl⟩

theorem Starts.writes_eq_nil (h : Starts argon tx) : tx.writes = [] := h.fresh.1

theorem Starts.bumpsAfter (h : Starts argon tx) : BumpsAfter tx.todo := by
  cases h with
  | create h =>
      obtain ⟨req, -, -, rfl⟩ := create_ok h
      exact .inl rfl
  | patch h =>
      obtain ⟨req, -, -, rfl⟩ := patch_ok h
      refine BumpsAfter.append (fun stmt hstmt hchange => ?_) (capabilityStmts_bumpsAfter req)
      -- none of the statements before them changes the capabilities
      simp only [List.mem_append, List.mem_cons, Option.mem_toList,
        Option.map_eq_some_iff, List.not_mem_nil, or_false] at hstmt
      obtain (((rfl | rfl) | ⟨_, -, rfl⟩) | ⟨_, -, rfl⟩) | ⟨_, -, rfl⟩ := hstmt <;> cases hchange
  | _ => simp [Api.delete, Api.purge, Api.issueKey, Api.revokeKey, BumpsAfter,
      AppStmt.changesCapabilities]

theorem Starts.txInv (h : Starts argon tx) : TxInv db tx where
  fresh hins := by simp [Tx.inserts, h.writes_eq_nil] at hins
  present href := by simp [Tx.refers, h.writes_eq_nil] at href
  bumped hchange := by simp [Tx.changesCapabilities, h.writes_eq_nil] at hchange
  program := .inr h.bumpsAfter
  locked hdel := by simp [Tx.deletes, h.writes_eq_nil] at hdel

theorem References.present (h : References db others tx lock) :
    db.HasApp tx.appID ∨ tx.inserts = true := by
  cases h with
  | own hins => exact .inr hins
  | shared happ _ => exact .inl happ

theorem LockMode.update_join (m : LockMode) : LockMode.join (some .update) m = .update := by
  cases m <;> rfl

theorem References.lock_update (h : References db others tx lock) (hlock : tx.lock = some .update) :
    lock = some .update := by
  cases h with
  | own => exact hlock
  | shared => rw [hlock, LockMode.update_join]

/-- Who deletes the app holds its row, so the check would have waited. -/
theorem References.rivals (h : References db others tx lock) :
    tx.inserts = true ∨ ∀ t ∈ tx.rivals others, t.deletes = true → t.lock ≠ some .update := by
  cases h with
  | own hins => exact .inl hins
  | shared _ hrivals =>
      refine .inr fun t ht _ hlock => ?_
      have hfree := hrivals t ht
      rw [Tx.holdsAgainst, hlock] at hfree
      cases hfree

/-- What a statement means for the invariant. -/
inductive TxEffect (db : AdminDatabase) (others : List Tx) (tx : Tx) :
    AppStmt → List AppWrite → Option LockMode → Prop
  /-- It reads, locks or changes the row of the app, if there is one. -/
  | update {stmt : AppStmt} {ws : List AppWrite} {lock : Option LockMode}
      (hinsert : stmt.insertsApp = false)
      (hws : ws.any AppWrite.insertsApp = false ∧ ws.any AppWrite.deletesApp = false ∧
        ws.any AppWrite.refers = false ∧ ws.any AppWrite.changesCapabilities = false)
      (hbump : stmt = .bumpVersion → .bumpVersion ∈ ws ∨ ¬db.HasApp tx.appID)
      (hlock : tx.lock = some .update → lock = some .update) : TxEffect db others tx stmt ws lock
  | insertApp {name description minGrade createdBy : String} (hfree : ¬db.HasApp tx.appID)
      (hrivals : ∀ t ∈ tx.rivals others, t.inserts = false) :
      TxEffect db others tx (.insertApp name description minGrade createdBy)
        [.insertApp name description minGrade createdBy] tx.lock
  | refer {stmt : AppStmt} {w : AppWrite} {lock : Option LockMode} (hw : w.refers = true)
      (hbump : stmt ≠ .bumpVersion)
      (hinsert : stmt.insertsApp = false)
      (hchange : w.changesCapabilities = stmt.changesCapabilities)
      (happ : db.HasApp tx.appID ∨ tx.inserts = true)
      (hrivals : tx.inserts = true ∨
        ∀ t ∈ tx.rivals others, t.deletes = true → t.lock ≠ some .update)
      (hlock : tx.lock = some .update → lock = some .update) : TxEffect db others tx stmt [w] lock
  | deleteApp (hrivals : ∀ t ∈ tx.rivals others, t.writes = []) :
      TxEffect db others tx .deleteApp [.deleteApp] (some .update)

theorem Executed.txEffect (h : Executed db others tx stmt (.done ws lock)) :
    TxEffect db others tx stmt ws lock := by
  cases h with
  | idle hstmt =>
      refine .update ?_ ⟨rfl, rfl, rfl, rfl⟩ (fun hbump => .inr ?_) id
      · cases stmt <;> simp_all [AppStmt.Idle, AppStmt.insertsApp]
      · subst hbump
        exact hstmt
  | @lockRow stmt m hstmt =>
      refine .update ?_ ?_ (fun hbump => .inl (hbump ▸ List.mem_singleton_self _)) fun hlock => ?_
      · cases stmt <;> simp_all [AppStmt.rowLock, AppStmt.insertsApp]
      · cases stmt with
        | insertApp | deleteApp | insertCapability | deleteCapability | insertKey | revokeKey =>
            cases hstmt
        | _ => exact ⟨rfl, rfl, rfl, rfl⟩
      · rw [hlock, LockMode.update_join]
  | insertApp hfree hrivals => exact .insertApp hfree hrivals
  | deleteApp hrivals => exact .deleteApp fun t ht => (hrivals t ht).2
  | insertCapability href =>
      exact .refer rfl (by simp) rfl rfl href.present href.rivals href.lock_update
  | insertKey _ _ href =>
      exact .refer rfl (by simp) rfl rfl href.present href.rivals href.lock_update
  | @deleteCapability c hrow hrivals =>
      -- the row that is deleted refers to an app that the transaction sees
      obtain ⟨row, hmem, hkey⟩ := List.mem_map.mp hrow
      have hview : (tx.view db).HasApp tx.appID :=
        (Prod.mk.inj hkey).1 ▸ (tx.view db).capability_app row hmem
      refine .refer rfl (by simp) rfl rfl ((Tx.hasApp_of_view hview).imp_right And.right)
        (.inr fun t ht hdel => ?_) id
      rw [hrivals t ht] at hdel
      cases hdel
  | revokeKey hrow happ hrivals =>
      refine .refer rfl (by simp) rfl rfl (.inl ?_) (.inr fun t ht hdel => ?_) id
      · exact happ ▸ db.key_app _ (Table.find?_eq_some.mp hrow).1
      · rw [hrivals t ht] at hdel
        cases hdel

theorem TxEffect.txInv (hex : TxEffect db others tx stmt ws lock) (htodo : tx.todo = stmt :: todo)
    (h : TxInv db tx) : TxInv db (tx.after todo ws lock) := by
  have hprogram : tx.inserts = true ∨ stmt.insertsApp = true ∨
      (stmt.changesCapabilities = true → .bumpVersion ∈ todo) ∧ BumpsAfter todo := by
    simpa only [htodo, BumpsAfter] using h.program
  have hbumped : tx.changesCapabilities = true → tx.inserts = true ∨
      (stmt = .bumpVersion ∨ .bumpVersion ∈ todo) ∨ .bumpVersion ∈ tx.writes := by
    simpa only [htodo, List.mem_cons, eq_comm (a := AppStmt.bumpVersion)] using h.bumped
  cases hex with
  | update hinsert hws hbump hlock =>
      obtain ⟨hws₁, hws₂, hws₃, hws₄⟩ := hws
      refine ⟨by simpa [hws₁] using h.fresh, by simpa [hws₁, hws₃] using h.present, ?_, ?_, ?_⟩
      · intro hchange
        rw [Tx.changesCapabilities_after, hws₄, Bool.or_false] at hchange
        simp only [Tx.inserts_after, hws₁, Bool.or_false, Tx.todo_after, Tx.writes_after,
          List.mem_append]
        obtain hins | (hstmt | hin) | hin := hbumped hchange
        · exact .inl hins
        · obtain hin | hnone := hbump hstmt
          · exact .inr (.inr (.inr hin))
          · have happ := h.present (Tx.refers_of_changesCapabilities hchange)
            exact .inl (happ.resolve_left hnone)
        · exact .inr (.inl hin)
        · exact .inr (.inr (.inl hin))
      · simp only [Tx.inserts_after, hws₁, Bool.or_false]
        obtain hins | hins | ⟨-, hrest⟩ := hprogram
        · exact .inl hins
        · rw [hinsert] at hins
          cases hins
        · exact .inr hrest
      · intro hdel
        rw [Tx.deletes_after, hws₂, Bool.or_false] at hdel
        exact hlock (h.locked hdel)
  | insertApp hfree hrivals =>
      refine ⟨fun _ => hfree, fun _ => .inr ?_, fun _ => .inl ?_, .inl ?_, ?_⟩
      iterate 3 simp [AppWrite.insertsApp]
      simpa [AppWrite.deletesApp] using h.locked
  | @refer stmt w lock hw hbump hinsert hchange happ hrivals hlock =>
      obtain ⟨hins, hdel⟩ := AppWrite.neither_of_refers hw
      refine ⟨by simpa [hins] using h.fresh, by simpa [hins, hw] using happ, ?_, ?_, ?_⟩
      · intro hchange'
        simp only [Tx.changesCapabilities_after, List.any_cons, List.any_nil, Bool.or_false,
          Bool.or_eq_true] at hchange'
        simp only [Tx.inserts_after, List.any_cons, List.any_nil, hins, Bool.or_false,
          Tx.todo_after, Tx.writes_after, List.mem_append]
        obtain hold | hnew := hchange'
        · obtain hins | (hstmt | hin) | hin := hbumped hold
          · exact .inl hins
          · exact absurd hstmt hbump
          · exact .inr (.inl hin)
          · exact .inr (.inr (.inl hin))
        · obtain hins' | hins' | ⟨hbump', -⟩ := hprogram
          · exact .inl hins'
          · rw [hinsert] at hins'
            cases hins'
          · exact .inr (.inl (hbump' (hchange ▸ hnew)))
      · simp only [Tx.inserts_after, List.any_cons, List.any_nil, hins, Bool.or_false]
        obtain hins' | hins' | ⟨-, hrest⟩ := hprogram
        · exact .inl hins'
        · rw [hinsert] at hins'
          cases hins'
        · exact .inr hrest
      · intro hdel'
        simp only [Tx.deletes_after, List.any_cons, List.any_nil, hdel, Bool.or_false] at hdel'
        exact hlock (h.locked hdel')
  | deleteApp hrivals =>
      refine ⟨by simpa [AppWrite.insertsApp] using h.fresh,
        by simpa [AppWrite.insertsApp, AppWrite.refers] using h.present, ?_, ?_, fun _ => rfl⟩
      · intro hchange
        have hchange' : tx.changesCapabilities = true := by
          simpa [AppWrite.changesCapabilities, AppWrite.capability] using hchange
        simpa [AppWrite.insertsApp] using hbumped hchange'
      · simpa [AppWrite.insertsApp, AppStmt.insertsApp, AppStmt.changesCapabilities] using hprogram

/-- A statement keeps its transaction apart from the others on the same app. -/
theorem TxEffect.apart (hex : TxEffect db others tx stmt ws lock) (ht : t ∈ tx.rivals others)
    (hinv : TxInv db t) (h : Apart tx t) (h' : Apart t tx) :
    Apart (tx.after todo ws lock) t ∧ Apart t (tx.after todo ws lock) := by
  cases hex with
  | update hinsert hws hbump hlock =>
      obtain ⟨hws₁, hws₂, hws₃, -⟩ := hws
      constructor
      · exact ⟨by simpa [hws₁] using h.inserts, by simpa [hws₂] using h.deletes⟩
      · exact ⟨by simpa [hws₁] using h'.inserts, by simpa [hws₁, hws₃] using h'.deletes⟩
  | insertApp hfree hrivals =>
      have hnot := hrivals t ht
      constructor
      · exact ⟨fun _ => hnot, by simpa [AppWrite.deletesApp] using h.deletes⟩
      · exact ⟨by simp [hnot], by simp [AppWrite.insertsApp]⟩
  | @refer stmt w lock hw hbump hinsert hchange happ hrivals hlock =>
      obtain ⟨hins, hdel⟩ := AppWrite.neither_of_refers hw
      constructor
      · exact ⟨by simpa [hins] using h.inserts, by simpa [hdel] using h.deletes⟩
      · refine ⟨by simpa [hins] using h'.inserts, fun htdel _ => ?_⟩
        -- who deletes the app holds its row, so the statement would have waited
        obtain hown | hnone := hrivals
        · simp [hown]
        · exact absurd (hinv.locked htdel) (hnone t ht htdel)
  | deleteApp hrivals =>
      have hnil := hrivals t ht
      constructor
      · exact ⟨by simp [Tx.inserts, hnil], by simp [Tx.refers, hnil]⟩
      · exact ⟨by simp [Tx.inserts, hnil], by simp [Tx.deletes, hnil]⟩

/-- A commit of a transaction on the same app, or of one on another app, takes nothing
away from an open one. -/
theorem TxInv.commit (h : TxInv db t) (hown : tx.appID = t.appID → Apart tx t ∧ Apart t tx) :
    TxInv (tx.view db) t where
  fresh hins happ := by
    obtain hold | ⟨ha, hins'⟩ := Tx.hasApp_of_view happ
    · exact h.fresh hins hold
    · have hnot := (hown ha.symm).1.inserts hins'
      rw [hins] at hnot
      cases hnot
  present href := by
    obtain happ | hins := h.present href
    · by_cases hins : t.inserts = true
      · exact .inr hins
      · refine .inl (Tx.hasApp_view (fun ha => ?_) happ)
        exact Bool.eq_false_iff.mpr fun hdel => hins ((hown ha.symm).1.deletes hdel href)
    · exact .inr hins
  bumped := h.bumped
  program := h.program
  locked := h.locked

theorem AdminEffect.adminInv (heff : AdminEffect argon s action s') (h : AdminInv s) :
    AdminInv s' := by
  have hopen : OpenInv TxInv Apart s' := by
    refine heff.openInv ?_ ?_ TxInv.commit ⟨h.each, h.apart⟩
    · intro db tx htx
      have hnil := htx.writes_eq_nil
      refine ⟨htx.txInv, fun t => ⟨?_, ?_⟩⟩
      · exact ⟨by simp [Tx.inserts, hnil], by simp [Tx.deletes, hnil]⟩
      · exact ⟨by simp [Tx.inserts, hnil], by simp [Tx.refers, hnil]⟩
    · intro db others tx stmt todo ws lock htodo hexec htx
      have hex := hexec.txEffect
      exact ⟨hex.txInv htodo htx, fun t ht hinv => hex.apart ht hinv⟩
  exact ⟨hopen.each, hopen.pairs⟩

/-- The invariant holds at every point of a run. -/
theorem adminInv_of_run {actions : List AdminAction}
    (hrun : run (adminStep argon planner) (.new db) actions = some s) : AdminInv s :=
  run_invariant (fun _ _ _ h hstep => (adminStep_effect hstep).adminInv h) (adminInv_new db) hrun

/-- What the requests plan, their transactions keep to. -/
theorem planned_of_run {P : List AppWrite → Prop}
    (hsub : ∀ {ws ws' : List AppWrite}, ws'.Sublist ws → P ws → P ws')
    (hstart : ∀ {tx}, Starts argon tx → P tx.planned) {actions : List AdminAction} {n : ℕ}
    (hrun : run (adminStep argon planner) (.new db) actions = some s) (hopen : s.Open n tx) :
    P tx.planned := by
  suffices h : ∀ {n tx}, s.Open n tx → P tx.planned from h hopen
  refine run_invariant (I := fun s => ∀ {n tx}, s.Open n tx → P tx.planned) ?_ ?_ hrun
  · intro s action s' h hstep n tx hn
    cases adminStep_effect hstep with
    | quiet _ htxs _ =>
        rw [AdminState.Open, htxs] at hn
        exact h hn
    | finish m _ htxs _ => exact h (open_of_set_none htxs hn).2
    | commit m _ _ _ _ _ htxs _ => exact h (open_of_set_none htxs hn).2
    | start tx' htx' _ htxs _ =>
        obtain ⟨-, rfl⟩ | ⟨-, hn⟩ := open_of_append htxs hn
        · exact hstart htx'
        · exact h hn
    | exec m tx' stmt todo ws lock hopen htodo hexec _ htxs _ =>
        obtain ⟨-, rfl⟩ | ⟨-, hn⟩ := open_of_set_some htxs hn
        · exact hsub (hexec.planned htodo) (h hopen)
        · exact h hn
  · intro n tx hn
    simp [AdminState.Open, AdminState.new] at hn

/-! ### What is planned -/

/-- A write that is the only one of its transaction, or writes of which none is, with no
capability among them that must not be granted. -/
def WellPlanned (ws : List AppWrite) : Prop :=
  (∃ w, w.lone = true ∧ ws = [w]) ∨
    ∀ w ∈ ws, w.lone = false ∧ ∀ c, w = .insertCapability c → c ∈ allowedCapabilities

theorem WellPlanned.sublist {ws ws' : List AppWrite} (hsub : ws'.Sublist ws)
    (h : WellPlanned ws) : WellPlanned ws' := by
  obtain ⟨w, hlone, rfl⟩ | hall := h
  · obtain rfl | rfl := List.sublist_singleton.mp hsub
    · exact .inr (by simp)
    · exact .inl ⟨w, hlone, rfl⟩
  · exact .inr fun w hw => hall w (hsub.subset hw)

theorem mem_allowed_of_validateCapabilityGrant {caps : List Capability} {c : Capability}
    (h : validateCapabilityGrant caps = none) (hc : c ∈ caps) : c ∈ allowedCapabilities := by
  induction caps with
  | nil => cases hc
  | cons c' caps ih =>
      simp only [validateCapabilityGrant] at h
      split_ifs at h with _ hallowed
      obtain rfl | hc := List.mem_cons.mp hc
      · simpa using hallowed
      · exact ih h hc

theorem planned_create {createdBy : String} {body : Option CreateAppRequest}
    (h : create createdBy body = .ok tx) {w : AppWrite} (hw : w ∈ tx.planned) :
    w.lone = false ∧ ∀ c, w = .insertCapability c → c ∈ allowedCapabilities := by
  obtain ⟨req, -, hgrant, rfl⟩ := create_ok h
  simp only [Tx.planned, List.nil_append, List.flatMap_cons, AppStmt.writes, List.flatMap_map,
    List.singleton_append, List.mem_cons, List.mem_flatMap, List.not_mem_nil, or_false] at hw
  obtain rfl | ⟨c, hc, rfl⟩ := hw
  · exact ⟨rfl, by simp⟩
  · refine ⟨rfl, fun c' hc' => ?_⟩
    obtain rfl := AppWrite.insertCapability.inj hc'
    exact mem_allowed_of_validateCapabilityGrant hgrant hc

theorem planned_patch {appID : String} {body : Option PatchAppRequest}
    (h : patch appID body = .ok tx) {w : AppWrite} (hw : w ∈ tx.planned) :
    w.lone = false ∧ ∀ c, w = .insertCapability c → c ∈ allowedCapabilities := by
  obtain ⟨req, -, hgrant, rfl⟩ := patch_ok h
  simp only [Tx.planned, List.nil_append, List.mem_flatMap, List.mem_append, List.mem_cons,
    Option.mem_toList, Option.map_eq_some_iff, List.not_mem_nil, or_false, capabilityStmts,
    List.mem_map, List.mem_ite_nil_right] at hw
  obtain ⟨stmt, hstmt, hw⟩ := hw
  obtain ((((rfl | rfl) | ⟨_, -, rfl⟩) | ⟨_, -, rfl⟩) | ⟨_, -, rfl⟩) |
    ((⟨c, hc, rfl⟩ | ⟨c, hc, rfl⟩) | ⟨-, rfl⟩) := hstmt
  case inl.inl.inl.inl.inl | inl.inl.inl.inl.inr => cases hw
  case inr.inl.inl =>
    obtain rfl := List.mem_singleton.mp hw
    refine ⟨rfl, fun c' hc' => ?_⟩
    obtain rfl := AppWrite.insertCapability.inj hc'
    exact mem_allowed_of_validateCapabilityGrant hgrant hc
  -- the others write no capability
  all_goals
    obtain rfl := List.mem_singleton.mp hw
    exact ⟨rfl, by simp⟩

theorem planned_delete {appID : String} {w : AppWrite} (hw : w ∈ (Api.delete appID).planned) :
    w.lone = false ∧ ∀ c, w = .insertCapability c → c ∈ allowedCapabilities := by
  have hw : w = .setActive false ∨ w = .bumpVersion := by
    simpa [Api.delete, Tx.planned, AppStmt.writes] using hw
  obtain rfl | rfl := hw <;> exact ⟨rfl, by simp⟩

/-- Each request plans a single write to the keys, or none. -/
theorem Starts.wellPlanned (h : Starts argon tx) : WellPlanned tx.planned := by
  cases h with
  | create h => exact .inr fun _ => planned_create h
  | patch h => exact .inr fun _ => planned_patch h
  | delete => exact .inr fun _ => planned_delete
  | purge | issueKey | revokeKey => exact .inl ⟨_, rfl, rfl⟩

theorem wellPlanned_of_run {actions : List AdminAction} {n : ℕ}
    (hrun : run (adminStep argon planner) (.new db) actions = some s) (hopen : s.Open n tx) :
    WellPlanned tx.writes :=
  (planned_of_run WellPlanned.sublist Starts.wellPlanned hrun hopen).sublist
    (List.sublist_append_left _ _)

end Invariant

end TelegramServer.Api

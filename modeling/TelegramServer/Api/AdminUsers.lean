import TelegramServer.Api.AdminApps
import TelegramServer.Api.StrategyDispatch
import TelegramServer.Go.Strconv
import TelegramServer.Lib.Interleaving
import TelegramServer.Lib.Runs
import TelegramServer.Registry.Anonymization

/-!
Grades and subscriptions by the admin API (`admin_users.go` and `admin_subscriptions.go`). A
request is a sequence of statements and audit writes, each of which may fail, and other requests and
the bot get in between. What looks like a failure may have had its effect: the context of a request
can be cancelled after the statement was executed. The answer of a request and what it tried to
write are told by how far it got; in particular a request that changed the database and saw it is
answered 200, and its change is in the audit log unless the audit write failed.

The audit log is a journal of the grades. It can be played back when no result of a statement is
lost and the changes to one user do not overlap, for the order of two audit writes says nothing
about the order of the two statements.
-/

namespace TelegramServer.Registry

/-- `UPDATE users SET grade=$1 WHERE telegram_id=$2`, with the rows affected. -/
def Database.setGrade (db : Database) (telegramID : ℤ) (grade : String) : ℕ × Database :=
  (db.users.rows.countP fun u => u.telegramID = telegramID,
    db.updateUsers (fun u => u.telegramID = telegramID) (fun u => { u with grade := grade })
      (fun _ => rfl) (fun _ => rfl))

/-- The `DELETE` of `Unsubscribe`, with the rows affected. -/
def Database.deleteSubscription (db : Database) (telegramID : ℤ) (appID : String) :
    ℕ × Database :=
  match db.userByTelegramID telegramID with
  | none => (0, db)
  | some u =>
      (db.subscriptions.rows.countP fun s => s.key = (u.id, appID),
        db.removeSubscription u.id appID)

end TelegramServer.Registry

namespace TelegramServer.Api

open Audit Auth Go Lib Registry

/-! ### The handlers -/

inductive UserCall
  /-- `Patch`; there is no grade where `decodeStrict` fails. -/
  | patch (grade : Option String)
  | subscribe (appID : String)
  | unsubscribe (appID : String)
  deriving DecidableEq

def UserCall.isPatch : UserCall → Bool
  | .patch _ => true
  | .subscribe _ | .unsubscribe _ => false

def UserCall.capability : UserCall → Capability
  | .patch _ => capUsersPromote
  | .subscribe _ | .unsubscribe _ => capAppsRegister

structure UserRequest where
  traceID : String := ""
  path : String := ""
  requester : RequesterIdentity := {}
  newMessageID : String := ""
  /-- The URL parameter `telegram_id`. -/
  telegramID : String
  call : UserCall

inductive UserAnswer
  | error (code : String)
  | patched (telegramID : ℤ) (grade : String)
  | subscribed (telegramID : ℤ) (appID : String) (on : Bool)
  deriving DecidableEq

/-- How far a request got. Every phase but the last is left by one statement or one audit
write. -/
inductive Phase
  | entered
  | receiving (telegramID : ℤ)
  | checking (telegramID : ℤ)
  /-- `Subscribe` has found the app. -/
  | lookingUp (telegramID : ℤ)
  | inserting (telegramID userID : ℤ)
  | denying (code : String) (status : ℕ)
  | validating (telegramID : ℤ)
  | delivering (telegramID : ℤ)
  | answered (status : ℕ) (answer : UserAnswer)
  deriving DecidableEq

/-- What becomes of a statement or an audit write: it is executed, it fails, or it is executed and
its result is lost, which looks like a failure. -/
inductive Fate
  | done | failed | lost
  deriving DecidableEq

def Fate.takesEffect : Fate → Bool
  | .done | .lost => true
  | .failed => false

/-- The user a request is about, while it may still be refused. -/
def Phase.undecided : Phase → Option ℤ
  | .checking telegramID | .lookingUp telegramID | .inserting telegramID _ => some telegramID
  | _ => none

namespace UserRequest

variable (r : UserRequest)

def flow : AuditFlow :=
  newAuditFlow ⟨r.traceID, r.path, r.requester, r.newMessageID, none⟩ none r.call.capability

/-- The details `succeed` is called with. -/
def details (telegramID : ℤ) : List (String × JsonValue) :=
  match r.call with
  | .patch grade => [("telegram_id", .int telegramID), ("grade", .str (grade.getD ""))]
  | .subscribe appID | .unsubscribe appID =>
      [("telegram_id", .int telegramID), ("app_id", .str appID)]

def validated (telegramID : ℤ) : Event :=
  { r.flow.event .validated with details := r.details telegramID }

def success (telegramID : ℤ) : UserAnswer :=
  match r.call with
  | .patch grade => .patched telegramID (grade.getD "")
  | .subscribe appID => .subscribed telegramID appID true
  | .unsubscribe appID => .subscribed telegramID appID false

/-- The first statement, or the check that comes before it. -/
def check (db : Database) (fate : Fate) (telegramID : ℤ) : Phase × Database :=
  match r.call with
  | .patch none => (.denying "malformed_json" 400, db)
  | .patch (some grade) =>
      if !validGrades.contains grade then (.denying "invalid_grade" 400, db)
      else
        let (affected, db') := db.setGrade telegramID grade
        match fate with
        | .failed => (.denying "db_error" 500, db)
        | .lost => (.denying "db_error" 500, db')
        | .done =>
            if affected = 0 then (.denying "user_not_found" 404, db)
            else (.validating telegramID, db')
  | .subscribe appID =>
      if fate ≠ .done then (.denying "db_error" 500, db)
      else
        match db.apps.find? appID with
        | none => (.denying "app_not_found" 404, db)
        | some app =>
            if !app.active then (.denying "app_inactive" 400, db) else (.lookingUp telegramID, db)
  | .unsubscribe appID =>
      let (affected, db') := db.deleteSubscription telegramID appID
      match fate with
      | .failed => (.denying "db_error" 500, db)
      | .lost => (.denying "db_error" 500, db')
      | .done =>
          if affected = 0 then (.denying "subscription_not_found" 404, db)
          else (.validating telegramID, db')

/-- One step of the handler: the next phase, the database and what is written to the audit log. -/
def next (db : Database) (fate : Fate) : Phase → Option (Phase × Database × Option Event)
  | .entered =>
      match parseInt r.telegramID with
      | none => some (.denying "invalid_telegram_id" 400, db, none)
      | some telegramID => some (.receiving telegramID, db, none)
  | .receiving telegramID => some (.checking telegramID, db, some (r.flow.event .received))
  | .checking telegramID =>
      let (phase, db) := r.check db fate telegramID
      some (phase, db, none)
  | .lookingUp telegramID =>
      match db.userByTelegramID telegramID with
      | some u =>
          some (if fate ≠ .done then .denying "user_not_found" 404 else .inserting telegramID u.id,
            db, none)
      | none => some (.denying "user_not_found" 404, db, none)
  | .inserting telegramID userID =>
      match r.call, fate with
      | .subscribe appID, .done =>
          match db.addSubscription userID appID with
          | (.ok (), db) => some (.validating telegramID, db, none)
          | (.error _, db) => some (.denying "db_error" 500, db, none)
      | .subscribe appID, .lost =>
          some (.denying "db_error" 500, (db.addSubscription userID appID).2, none)
      | _, _ => some (.denying "db_error" 500, db, none)
  | .denying code status => some (.answered status (.error code), db, some (r.flow.denied code))
  | .validating telegramID => some (.delivering telegramID, db, some (r.validated telegramID))
  | .delivering telegramID =>
      some (.answered 200 (r.success telegramID), db, some (r.flow.event .delivered))
  | .answered _ _ => none

end UserRequest

/-! ### Requests at the same time -/

structure UserJob where
  request : UserRequest
  phase : Phase := .entered
  /-- The audit writes it tried, and whether they are in the audit log. -/
  attempts : List (Event × Bool) := []

structure UsersState where
  db : Database
  jobs : List UserJob := []
  /-- The audit writes of all requests. -/
  attempts : List (Event × Bool) := []

/-- What is in the audit log. -/
def UsersState.log (s : UsersState) : List Event :=
  s.attempts.filterMap fun a => if a.2 then some a.1 else none

inductive UsersAction
  | call (r : UserRequest)
  /-- A step of a request, and the fate of its statement or its audit write. -/
  | work (k : ℕ) (fate : Fate)
  /-- A statement of the bot. -/
  | store (op : StoreOp)

def UserJob.after (j : UserJob) (phase : Phase) (wrote : Option Event) (fate : Fate) : UserJob :=
  { j with
    phase := phase
    attempts := j.attempts ++ wrote.toList.map fun e => (e, fate.takesEffect) }

def usersStep (s : UsersState) : UsersAction → Option UsersState
  | .call r => some { s with jobs := s.jobs ++ [{ request := r }] }
  | .work k fate =>
      match s.jobs[k]? with
      | none => none
      | some j =>
          match j.request.next s.db fate j.phase with
          | none => none
          | some (phase, db, wrote) =>
              some
                { db := db
                  jobs := s.jobs.set k (j.after phase wrote fate)
                  attempts := s.attempts ++ wrote.toList.map fun e => (e, fate.takesEffect) }
  | .store op => some { s with db := s.db.exec op }

/-! ### What a step does -/

namespace UserRequest

/-- The statement by which a request changes the database. -/
inductive Changes (r : UserRequest) (db : Database) : Phase → Database → Prop
  | grade {telegramID : ℤ} (grade : String) (hcall : r.call = .patch (some grade))
      (hvalid : grade ∈ validGrades) :
      Changes r db (.checking telegramID) (db.setGrade telegramID grade).2
  | subscribe {telegramID userID : ℤ} (appID : String) (hcall : r.call = .subscribe appID) :
      Changes r db (.inserting telegramID userID) (db.addSubscription userID appID).2
  | unsubscribe {telegramID : ℤ} (appID : String) (hcall : r.call = .unsubscribe appID) :
      Changes r db (.checking telegramID) (db.deleteSubscription telegramID appID).2

/-- A step, by what it does. -/
inductive Moves (r : UserRequest) (db : Database) (fate : Fate) :
    Phase → Phase → Database → Option Event → Prop
  | badID (h : parseInt r.telegramID = none) :
      Moves r db fate .entered (.denying "invalid_telegram_id" 400) db none
  | enter {telegramID : ℤ} (h : parseInt r.telegramID = some telegramID) :
      Moves r db fate .entered (.receiving telegramID) db none
  | receive {telegramID : ℤ} :
      Moves r db fate (.receiving telegramID) (.checking telegramID) db
        (some (r.flow.event .received))
  | refuse {phase : Phase} {telegramID : ℤ} (hphase : phase.undecided = some telegramID)
      {code : String} {status : ℕ} (hstatus : status ≠ 200) :
      Moves r db fate phase (.denying code status) db none
  | findApp {telegramID : ℤ} :
      Moves r db fate (.checking telegramID) (.lookingUp telegramID) db none
  | findUser {telegramID : ℤ} {u : UserRow} (hu : db.userByTelegramID telegramID = some u) :
      Moves r db fate (.lookingUp telegramID) (.inserting telegramID u.id) db none
  | change {phase : Phase} {telegramID : ℤ} {db' : Database}
      (hphase : phase.undecided = some telegramID) (h : r.Changes db phase db')
      (hknown : r.call.isPatch = true → ∃ u ∈ db.users.rows, u.telegramID = telegramID)
      (hfate : fate = .done) : Moves r db fate phase (.validating telegramID) db' none
  | lose {phase : Phase} {telegramID : ℤ} {db' : Database}
      (hphase : phase.undecided = some telegramID) (h : r.Changes db phase db')
      (hfate : fate = .lost) : Moves r db fate phase (.denying "db_error" 500) db' none
  | deny {code : String} {status : ℕ} :
      Moves r db fate (.denying code status) (.answered status (.error code)) db
        (some (r.flow.denied code))
  | validate {telegramID : ℤ} :
      Moves r db fate (.validating telegramID) (.delivering telegramID) db
        (some (r.validated telegramID))
  | deliver {telegramID : ℤ} :
      Moves r db fate (.delivering telegramID) (.answered 200 (r.success telegramID)) db
        (some (r.flow.event .delivered))

variable {r : UserRequest} {db db' : Database} {fate : Fate} {phase phase' : Phase}
  {wrote : Option Event}

theorem moves_check (telegramID : ℤ) :
    Moves r db fate (.checking telegramID) (r.check db fate telegramID).1
      (r.check db fate telegramID).2 none := by
  have hphase : (Phase.checking telegramID).undecided = some telegramID := rfl
  unfold check
  split
  · exact .refuse hphase (by decide)
  · next grade hcall =>
      split
      · exact .refuse hphase (by decide)
      · next hvalid =>
          replace hvalid : grade ∈ validGrades := by simpa using hvalid
          cases fate with
          | failed => exact .refuse hphase (by decide)
          | lost => exact .lose hphase (.grade grade hcall hvalid) rfl
          | done =>
              dsimp only
              split
              · exact .refuse hphase (by decide)
              · next haffected =>
                  refine .change hphase (.grade grade hcall hvalid) (fun _ => ?_) rfl
                  simpa [Database.setGrade] using haffected
  · next appID hcall =>
      split
      · exact .refuse hphase (by decide)
      · split
        · exact .refuse hphase (by decide)
        · split
          · exact .refuse hphase (by decide)
          · exact .findApp
  · next appID hcall =>
      cases fate with
      | failed => exact .refuse hphase (by decide)
      | lost => exact .lose hphase (.unsubscribe appID hcall) rfl
      | done =>
          dsimp only
          split
          · exact .refuse hphase (by decide)
          · exact .change hphase (.unsubscribe appID hcall) (by simp [hcall, UserCall.isPatch]) rfl

theorem moves_next (h : r.next db fate phase = some (phase', db', wrote)) :
    Moves r db fate phase phase' db' wrote := by
  cases phase with
  | entered =>
      simp only [next] at h
      split at h
      · next hparse =>
          cases h
          exact .badID hparse
      · next telegramID hparse =>
          cases h
          exact .enter hparse
  | receiving telegramID =>
      cases h
      exact .receive
  | checking telegramID =>
      cases h
      exact moves_check telegramID
  | lookingUp telegramID =>
      simp only [next] at h
      split at h
      · next u hu =>
          cases h
          split
          · exact .refuse rfl (by decide)
          · exact .findUser hu
      · cases h
        exact .refuse rfl (by decide)
  | inserting telegramID userID =>
      simp only [next] at h
      split at h
      · next appID hcall =>
          split at h
          · next db'' hadd =>
              cases h
              have hdb : db' = (db.addSubscription userID appID).2 := by rw [hadd]
              rw [hdb]
              exact .change rfl (.subscribe appID hcall) (by simp [hcall, UserCall.isPatch]) rfl
          · next err db'' hadd =>
              cases h
              -- a statement that fails leaves the tables as they are
              have hdb : db' = db := by
                unfold Database.addSubscription at hadd
                split at hadd
                · cases hadd
                · exact (Prod.mk.inj hadd).2.symm
              rw [hdb]
              exact .refuse rfl (by decide)
      · next appID hcall =>
          cases h
          exact .lose rfl (.subscribe appID hcall) rfl
      · cases h
        exact .refuse rfl (by decide)
  | denying code status =>
      cases h
      exact .deny
  | validating telegramID =>
      cases h
      exact .validate
  | delivering telegramID =>
      cases h
      exact .deliver
  | answered status answer => cases h

end UserRequest

/-! ### The trail of a request -/

namespace UserRequest

variable (r : UserRequest)

/-- A request for a malformed id does not write `received`. -/
def opening : List Event :=
  if parseInt r.telegramID = none then [] else [r.flow.event .received]

/-- The audit writes a request has tried when it gets to a phase. -/
def Trail : Phase → List Event → Prop
  | .entered, es => es = []
  | .receiving telegramID, es => parseInt r.telegramID = some telegramID ∧ es = []
  | .checking telegramID, es | .lookingUp telegramID, es | .inserting telegramID _, es
  | .validating telegramID, es =>
      parseInt r.telegramID = some telegramID ∧ es = [r.flow.event .received]
  | .denying _ status, es => status ≠ 200 ∧ es = r.opening
  | .delivering telegramID, es => parseInt r.telegramID = some telegramID ∧
      es = [r.flow.event .received, r.validated telegramID]
  | .answered status answer, es =>
      (status = 200 ∧ ∃ telegramID, parseInt r.telegramID = some telegramID ∧
        answer = r.success telegramID ∧
        es = [r.flow.event .received, r.validated telegramID, r.flow.event .delivered]) ∨
      status ≠ 200 ∧ ∃ code, answer = .error code ∧ es = r.opening ++ [r.flow.denied code]

variable {r : UserRequest} {db db' : Database} {fate : Fate} {phase phase' : Phase}
  {wrote : Option Event} {es : List Event}

theorem trail_undecided {telegramID : ℤ} (h : phase.undecided = some telegramID) :
    r.Trail phase es ↔
      parseInt r.telegramID = some telegramID ∧ es = [r.flow.event .received] := by
  cases phase with
  | checking id | lookingUp id | inserting id _ =>
      obtain rfl := Option.some.inj h
      rfl
  | entered | receiving | denying | validating | delivering | answered => cases h

theorem Moves.trail (h : Moves r db fate phase phase' db' wrote) (htrail : r.Trail phase es) :
    r.Trail phase' (es ++ wrote.toList) := by
  have hopening {telegramID : ℤ} (hparse : parseInt r.telegramID = some telegramID) :
      r.opening = [r.flow.event .received] := by simp [opening, hparse]
  cases h with
  | badID hparse =>
      obtain rfl : es = [] := htrail
      exact ⟨by decide, by simp [opening, hparse]⟩
  | enter hparse =>
      obtain rfl : es = [] := htrail
      exact ⟨hparse, rfl⟩
  | receive =>
      obtain ⟨hparse, rfl⟩ := htrail
      exact ⟨hparse, rfl⟩
  | refuse hphase hstatus =>
      obtain ⟨hparse, rfl⟩ := (trail_undecided hphase).mp htrail
      exact ⟨hstatus, by simp [hopening hparse]⟩
  | lose hphase _ =>
      obtain ⟨hparse, rfl⟩ := (trail_undecided hphase).mp htrail
      exact ⟨by decide, by simp [hopening hparse]⟩
  | findApp | findUser =>
      rw [Option.toList_none, List.append_nil]
      exact htrail
  | change hphase _ =>
      rw [Option.toList_none, List.append_nil]
      exact (trail_undecided hphase).mp htrail
  | deny =>
      obtain ⟨hstatus, rfl⟩ := htrail
      exact .inr ⟨hstatus, _, rfl, rfl⟩
  | validate =>
      obtain ⟨hparse, rfl⟩ := htrail
      exact ⟨hparse, rfl⟩
  | deliver =>
      obtain ⟨hparse, rfl⟩ := htrail
      exact .inl ⟨rfl, _, hparse, rfl, rfl⟩

end UserRequest

/-! ### Runs -/

/-- A step of a run, by what it does. -/
theorem usersStep_work {s s' : UsersState} {k : ℕ} {fate : Fate}
    (h : usersStep s (.work k fate) = some s') :
    ∃ j phase wrote, s.jobs[k]? = some j ∧ j.request.Moves s.db fate j.phase phase s'.db wrote ∧
      s'.jobs = s.jobs.set k (j.after phase wrote fate) ∧
      s'.attempts = s.attempts ++ wrote.toList.map fun e => (e, fate.takesEffect) := by
  simp only [usersStep] at h
  split at h
  · cases h
  · next j hk =>
      split at h
      · cases h
      · next phase db wrote hnext =>
          cases h
          exact ⟨j, phase, wrote, hk, UserRequest.moves_next hnext, rfl, rfl⟩

structure UsersInv (s : UsersState) : Prop where
  interleaved : Interleaved s.attempts (s.jobs.map UserJob.attempts)
  trail : ∀ j ∈ s.jobs, j.request.Trail j.phase (j.attempts.map Prod.fst)

theorem UsersInv.step {s s' : UsersState} {a : UsersAction} (h : UsersInv s)
    (hstep : usersStep s a = some s') : UsersInv s' := by
  cases a with
  | call r =>
      obtain rfl := Option.some.inj hstep
      refine ⟨?_, fun j hj => ?_⟩
      · rw [List.map_append]
        exact h.interleaved.start
      · rcases List.mem_append.mp hj with hj | hj
        · exact h.trail j hj
        · obtain rfl := List.mem_singleton.mp hj
          exact rfl
  | store op =>
      obtain rfl := Option.some.inj hstep
      exact ⟨h.interleaved, h.trail⟩
  | work k fate =>
      obtain ⟨j, phase, wrote, hk, hmoves, hjobs, hattempts⟩ := usersStep_work hstep
      have hk' : (s.jobs.map UserJob.attempts)[k]? = some j.attempts := by
        rw [List.getElem?_map, hk]
        rfl
      refine ⟨?_, fun j' hj' => ?_⟩
      · rw [hjobs, hattempts, List.map_set]
        cases wrote with
        | none => simpa [UserJob.after] using h.interleaved.set_self hk'
        | some e => exact h.interleaved.turn hk' _
      · rw [hjobs] at hj'
        rcases List.mem_or_eq_of_mem_set hj' with hj' | rfl
        · exact h.trail j' hj'
        · have htrail := hmoves.trail (h.trail j (List.mem_of_getElem? hk))
          simpa [UserJob.after, Function.comp_def] using htrail

theorem usersInv_of_run {db : Database} {as : List UsersAction} {s : UsersState}
    (hrun : run usersStep { db := db } as = some s) : UsersInv s :=
  run_invariant (fun _ _ _ h hstep => h.step hstep) ⟨.nil, by simp⟩ hrun

/-- The answer of a request tells what it tried to write to the audit log. -/
def Answered (r : UserRequest) (status : ℕ) (answer : UserAnswer) (es : List Event) : Prop :=
  (status = 200 ∧ ∃ telegramID, parseInt r.telegramID = some telegramID ∧
    answer = r.success telegramID ∧
    es = [r.flow.event .received, r.validated telegramID, r.flow.event .delivered]) ∨
  status ≠ 200 ∧ ∃ code, answer = .error code ∧ es = r.opening ++ [r.flow.denied code]

/-- **The answers tell what was audited.** However requests, failures and the statements of the bot
are interleaved, what was tried to be written to the audit log is an interleaving of what each
request tried to write, and a request that is answered tried to write what its answer says. -/
theorem answers_audited {db : Database} {as : List UsersAction} {s : UsersState}
    (hrun : run usersStep { db := db } as = some s) :
    Interleaved s.attempts (s.jobs.map UserJob.attempts) ∧
      ∀ j ∈ s.jobs, ∀ status answer, j.phase = .answered status answer →
        Answered j.request status answer (j.attempts.map Prod.fst) := by
  have hinv := usersInv_of_run hrun
  refine ⟨hinv.interleaved, fun j hj status answer hphase => ?_⟩
  have htrail := hinv.trail j hj
  rw [hphase] at htrail
  exact htrail

/-- Two promotions of the same user, the first of which is in the log before the second begins. -/
def promotions : List UsersAction :=
  [.call { telegramID := "7", call := .patch (some "developer"), newMessageID := "a" },
    .call { telegramID := "7", call := .patch (some "admin"), newMessageID := "b" },
    .store (.upsertOnStart 8 "" ""), .work 0 .done, .work 1 .done, .work 1 .failed, .work 0 .done,
    .work 0 .done, .work 0 .done, .work 1 .done, .work 0 .done, .work 1 .done]

def oneUser : Database := (Database.empty.upsertOnStart 7 "" "").2

theorem promotions_run : ∃ s, run usersStep { db := oneUser } promotions = some s ∧
    s.db.users.rows.map (fun u => (u.telegramID, u.grade)) = [(7, "admin"), (8, "user")] ∧
    s.jobs.map UserJob.phase = [.answered 200 (.patched 7 "developer"), .delivering 7] := by
  have hfinal : (run usersStep { db := oneUser } promotions).map
      (fun s => (s.db.users.rows.map (fun u => (u.telegramID, u.grade)),
        s.jobs.map UserJob.phase)) =
      some ([(7, "admin"), (8, "user")],
        [.answered 200 (.patched 7 "developer"), .delivering 7]) := by
    decide +kernel
  obtain ⟨s, hrun, heq⟩ := Option.map_eq_some_iff.mp hfinal
  exact ⟨s, hrun, Prod.mk.inj heq⟩

theorem promotions_audited : ∃ s, run usersStep { db := oneUser } promotions = some s ∧
    s.jobs.map UserJob.phase = [.answered 200 (.patched 7 "developer"), .delivering 7] ∧
    Interleaved s.attempts (s.jobs.map UserJob.attempts) ∧
    ∀ j ∈ s.jobs, ∀ status answer, j.phase = .answered status answer →
      Answered j.request status answer (j.attempts.map Prod.fst) := by
  obtain ⟨s, hrun, -, hphases⟩ := promotions_run
  exact ⟨s, hrun, hphases, answers_audited hrun⟩

/-! ### Changes -/

/-- How the request is going to be answered, once that is decided. -/
def Phase.outcome : Phase → Option ℕ
  | .validating _ | .delivering _ => some 200
  | .denying _ status | .answered status _ => some status
  | .entered | .receiving _ | .checking _ | .lookingUp _ | .inserting _ _ => none

/-- The request has changed the database and seen it. -/
def Phase.changed (phase : Phase) : Bool := phase.outcome = some 200

theorem Phase.outcome_of_undecided {phase : Phase} {telegramID : ℤ}
    (h : phase.undecided = some telegramID) : phase.outcome = none := by
  cases phase with
  | checking | lookingUp | inserting => rfl
  | entered | receiving | denying | validating | delivering | answered => cases h

/-- What is decided stays, and the request does nothing to the database any more. -/
theorem UserRequest.Moves.outcome {r : UserRequest} {db db' : Database} {fate : Fate}
    {phase phase' : Phase} {wrote : Option Event} (h : r.Moves db fate phase phase' db' wrote)
    {status : ℕ} (houtcome : phase.outcome = some status) :
    phase'.outcome = some status ∧ db' = db := by
  cases h with
  | badID | enter | receive | findApp | findUser => cases houtcome
  | refuse hphase | change hphase | lose hphase =>
      rw [Phase.outcome_of_undecided hphase] at houtcome
      cases houtcome
  | deny => exact ⟨houtcome, rfl⟩
  | validate | deliver => exact ⟨houtcome, rfl⟩

theorem UserRequest.Moves.changed {r : UserRequest} {db db' : Database} {fate : Fate}
    {phase phase' : Phase} {wrote : Option Event} (h : r.Moves db fate phase phase' db' wrote)
    (hchanged : phase.changed = true) : phase'.changed = true := by
  simp only [Phase.changed, decide_eq_true_eq] at hchanged ⊢
  exact (h.outcome hchanged).1

theorem UserRequest.Moves.changes {r : UserRequest} {db db' : Database} {fate : Fate}
    {phase phase' : Phase} {wrote : Option Event} (h : r.Moves db fate phase phase' db' wrote)
    (hne : db' ≠ db) :
    r.Changes db phase db' ∧
      phase'.outcome = some (if fate = .lost then 500 else 200) := by
  cases h with
  | change _ hchanges _ hfate => exact ⟨hchanges, by simp [hfate, Phase.outcome]⟩
  | lose _ hchanges hfate => exact ⟨hchanges, by simp [hfate, Phase.outcome]⟩
  | badID | enter | receive | refuse | findApp | findUser | deny | validate | deliver =>
      exact absurd rfl hne

/-- The answer to the request `k` is decided. -/
def Decided (k : ℕ) (r : UserRequest) (status : ℕ) (s : UsersState) : Prop :=
  ∃ j, s.jobs[k]? = some j ∧ j.request = r ∧ j.phase.outcome = some status

theorem decided_step {k : ℕ} {r : UserRequest} {status : ℕ} {s s' : UsersState} {a : UsersAction}
    (h : Decided k r status s) (hstep : usersStep s a = some s') : Decided k r status s' := by
  obtain ⟨j, hk, hr, houtcome⟩ := h
  cases a with
  | call r' =>
      obtain rfl := Option.some.inj hstep
      exact ⟨j, List.getElem?_append_left (List.getElem?_eq_some_iff.mp hk).1 ▸ hk, hr, houtcome⟩
  | store op =>
      obtain rfl := Option.some.inj hstep
      exact ⟨j, hk, hr, houtcome⟩
  | work k' fate =>
      obtain ⟨j', phase, wrote, hk', hmoves, hjobs, -⟩ := usersStep_work hstep
      by_cases heq : k' = k
      · subst heq
        obtain rfl : j = j' := Option.some.inj (hk.symm.trans hk')
        refine ⟨j.after phase wrote fate, ?_, hr, (hmoves.outcome houtcome).1⟩
        rw [hjobs, List.getElem?_set_self (List.getElem?_eq_some_iff.mp hk).1]
      · exact ⟨j, by rw [hjobs, List.getElem?_set_ne heq, hk], hr, houtcome⟩

/-! ### Who is changed -/

section Users

variable {db db' : Database}

/-- Nobody gets another row or another Telegram id. -/
def KeepsUsers (db db' : Database) : Prop :=
  ∀ u ∈ db.users.rows, ∃ u' ∈ db'.users.rows, u'.id = u.id ∧ u'.telegramID = u.telegramID

/-- The statement sets no grade; who is new is a `user`. -/
structure KeepsGrades (db db' : Database) : Prop where
  rows : ∀ u ∈ db'.users.rows,
    (∃ u' ∈ db.users.rows, u'.telegramID = u.telegramID ∧ u'.grade = u.grade) ∨
      u.grade = "user" ∧ ∀ u' ∈ db.users.rows, u'.telegramID ≠ u.telegramID
  users : KeepsUsers db db'

theorem KeepsGrades.of_users_eq (h : db'.users = db.users) : KeepsGrades db db' :=
  ⟨fun u hu => .inl ⟨u, h ▸ hu, rfl, rfl⟩, fun u hu => ⟨u, h ▸ hu, rfl, rfl⟩⟩

/-- An `UPDATE users`, seen as a map over the rows. -/
theorem KeepsUsers.of_update {g : UserRow → UserRow} (hrows : db'.users.rows = db.users.rows.map g)
    (hkey : ∀ u, (g u).id = u.id ∧ (g u).telegramID = u.telegramID) : KeepsUsers db db' :=
  fun u hu => ⟨g u, hrows ▸ List.mem_map_of_mem hu, hkey u⟩

theorem KeepsGrades.of_update {g : UserRow → UserRow}
    (hrows : db'.users.rows = db.users.rows.map g)
    (hkey : ∀ u, (g u).id = u.id ∧ (g u).telegramID = u.telegramID)
    (hgrade : ∀ u, (g u).grade = u.grade) : KeepsGrades db db' := by
  refine ⟨fun u hu => ?_, .of_update hrows hkey⟩
  rw [hrows] at hu
  obtain ⟨u', hu', rfl⟩ := List.mem_map.mp hu
  exact .inl ⟨u', hu', (hkey u').2.symm, (hgrade u').symm⟩

theorem keepsGrades_upsertOnStart (telegramID : ℤ) (username preferredLang : String) :
    KeepsGrades db (db.upsertOnStart telegramID username preferredLang).2 := by
  unfold Database.upsertOnStart
  dsimp only
  split
  · exact .of_update rfl (fun u => by split <;> exact ⟨rfl, rfl⟩) fun u => by split <;> rfl
  · next hfind =>
      split
      · exact .of_users_eq rfl
      · refine ⟨fun u hu => ?_, fun u hu => ⟨u, List.mem_append_left _ hu, rfl, rfl⟩⟩
        rcases List.mem_append.mp hu with hu | hu
        · exact .inl ⟨u, hu, rfl, rfl⟩
        · obtain rfl := List.mem_singleton.mp hu
          exact .inr ⟨rfl, fun u' hu' => by simpa using List.find?_eq_none.mp hfind u' hu'⟩

theorem keepsGrades_exec (op : StoreOp) : KeepsGrades db (db.exec op) := by
  cases op with
  | upsertOnStart telegramID username preferredLang => exact keepsGrades_upsertOnStart ..
  | markAgreed | anonymize | linkSupergroup | setBotIsAdmin | resetLink =>
      exact .of_update rfl (fun u => by split <;> exact ⟨rfl, rfl⟩) fun u => by split <;> rfl
  | setStatus userID status =>
      simp only [Database.exec, Database.setStatus]
      split
      · exact .of_users_eq rfl
      · exact .of_update rfl (fun u => by split <;> exact ⟨rfl, rfl⟩) fun u => by split <;> rfl
  | issueToken =>
      simp only [Database.exec, Database.issueToken]
      split <;> exact .of_users_eq rfl
  | consumeToken =>
      simp only [Database.exec, Database.consumeToken]
      split
      · exact .of_users_eq rfl
      · split <;> exact .of_users_eq rfl

theorem users_addSubscription (userID : ℤ) (appID : String) :
    (db.addSubscription userID appID).2.users = db.users := by
  unfold Database.addSubscription
  split <;> rfl

theorem users_deleteSubscription (telegramID : ℤ) (appID : String) :
    (db.deleteSubscription telegramID appID).2.users = db.users := by
  unfold Database.deleteSubscription
  split <;> rfl

theorem UserRequest.Changes.keepsUsers {r : UserRequest} {phase : Phase}
    (h : r.Changes db phase db') : KeepsUsers db db' := by
  cases h with
  | grade grade _ _ => exact .of_update rfl fun u => by split <;> exact ⟨rfl, rfl⟩
  | subscribe appID _ => exact (KeepsGrades.of_users_eq (users_addSubscription _ appID)).users
  | unsubscribe appID _ => exact (KeepsGrades.of_users_eq (users_deleteSubscription _ appID)).users

theorem UserRequest.Moves.keepsUsers {r : UserRequest} {fate : Fate} {phase phase' : Phase}
    {wrote : Option Event} (h : r.Moves db fate phase phase' db' wrote) : KeepsUsers db db' := by
  cases h with
  | change _ hchanges => exact hchanges.keepsUsers
  | lose _ hchanges => exact hchanges.keepsUsers
  | badID | enter | receive | refuse | findApp | findUser | deny | validate | deliver =>
      exact (KeepsGrades.of_users_eq rfl).users

/-- A request that inserts a subscription has found its user. -/
def Found (s : UsersState) : Prop :=
  ∀ j ∈ s.jobs, ∀ telegramID userID, j.phase = .inserting telegramID userID →
    ∃ u ∈ s.db.users.rows, u.id = userID ∧ u.telegramID = telegramID

theorem found_step {s s' : UsersState} {a : UsersAction} (h : Found s)
    (hstep : usersStep s a = some s') : Found s' := by
  -- a user that was found is found again
  have hkept (hkeeps : KeepsUsers s.db s'.db) {j : UserJob} (hj : j ∈ s.jobs)
      {telegramID userID : ℤ} (hphase : j.phase = .inserting telegramID userID) :
      ∃ u ∈ s'.db.users.rows, u.id = userID ∧ u.telegramID = telegramID := by
    obtain ⟨u, hu, rfl, rfl⟩ := h j hj _ _ hphase
    exact hkeeps u hu
  intro j hj telegramID userID hphase
  cases a with
  | call r =>
      obtain rfl := Option.some.inj hstep
      rcases List.mem_append.mp hj with hj | hj
      · exact hkept (KeepsGrades.of_users_eq rfl).users hj hphase
      · obtain rfl := List.mem_singleton.mp hj
        cases hphase
  | store op =>
      obtain rfl := Option.some.inj hstep
      exact hkept (keepsGrades_exec op).users hj hphase
  | work k fate =>
      obtain ⟨j', phase, wrote, hk, hmoves, hjobs, -⟩ := usersStep_work hstep
      rw [hjobs] at hj
      rcases List.mem_or_eq_of_mem_set hj with hj | rfl
      · exact hkept hmoves.keepsUsers hj hphase
      · obtain rfl : phase = .inserting telegramID userID := hphase
        generalize hdb : s'.db = db' at hmoves
        generalize hold : j'.phase = old at hmoves
        cases hmoves with
        | findUser hu =>
            exact ⟨_, List.mem_of_find?_eq_some hu, rfl,
              by simpa using List.find?_some hu⟩

/-- The change of the database the request asks for: it concerns the user with the Telegram id in
its path. -/
inductive UserRequest.AsksFor (r : UserRequest) (db : Database) : Database → Prop
  | grade {telegramID : ℤ} (grade : String) (hcall : r.call = .patch (some grade))
      (hvalid : grade ∈ validGrades) (hid : parseInt r.telegramID = some telegramID) :
      AsksFor r db (db.setGrade telegramID grade).2
  | subscribe (u : UserRow) (appID : String) (hcall : r.call = .subscribe appID)
      (hu : u ∈ db.users.rows) (hid : parseInt r.telegramID = some u.telegramID) :
      AsksFor r db (db.addSubscription u.id appID).2
  | unsubscribe {telegramID : ℤ} (appID : String) (hcall : r.call = .unsubscribe appID)
      (hid : parseInt r.telegramID = some telegramID) :
      AsksFor r db (db.deleteSubscription telegramID appID).2

/-- A request changes what it asks for. -/
theorem UserRequest.Changes.asksFor {r : UserRequest} {phase : Phase} {es : List Event}
    (h : r.Changes db phase db') (htrail : r.Trail phase es)
    (hfound : ∀ telegramID userID, phase = .inserting telegramID userID →
      ∃ u ∈ db.users.rows, u.id = userID ∧ u.telegramID = telegramID) : r.AsksFor db db' := by
  cases h with
  | grade grade hcall hvalid => exact .grade grade hcall hvalid htrail.1
  | subscribe appID hcall =>
      obtain ⟨u, hu, rfl, rfl⟩ := hfound _ _ rfl
      exact .subscribe u appID hcall hu htrail.1
  | unsubscribe appID hcall => exact .unsubscribe appID hcall htrail.1

end Users

/-- **Who changes the database and sees it is not refused.** A step of a request that changes the
database makes the change the request asks for, to the user in its path. Whatever happens after
that, the request can only be answered 200, unless the result of its statement was lost: then it can
only be answered 500. -/
theorem change_answered {db : Database} {before after : List UsersAction} {s₁ s₂ s : UsersState}
    {k : ℕ} {fate : Fate} (hbefore : run usersStep { db := db } before = some s₁)
    (hstep : usersStep s₁ (.work k fate) = some s₂) (hne : s₂.db ≠ s₁.db)
    (hafter : run usersStep s₂ after = some s) :
    ∃ j, s.jobs[k]? = some j ∧ j.request.AsksFor s₁.db s₂.db ∧
      ∀ status answer, j.phase = .answered status answer →
        status = if fate = .lost then 500 else 200 := by
  obtain ⟨j, phase, wrote, hk, hmoves, hjobs, -⟩ := usersStep_work hstep
  have hj := List.mem_of_getElem? hk
  obtain ⟨hchanges, houtcome⟩ := hmoves.changes hne
  have hfound : Found s₁ :=
    run_invariant (fun _ _ _ h hstep => found_step h hstep) (by simp [Found]) hbefore
  have hasks := hchanges.asksFor ((usersInv_of_run hbefore).trail j hj) (hfound j hj)
  have hdecided : Decided k j.request (if fate = .lost then 500 else 200) s₂ := by
    refine ⟨j.after phase wrote fate, ?_, rfl, houtcome⟩
    rw [hjobs, List.getElem?_set_self (List.getElem?_eq_some_iff.mp hk).1]
  obtain ⟨j', hk', hr, houtcome'⟩ :=
    run_invariant (fun _ _ _ h hstep => decided_step h hstep) hdecided hafter
  refine ⟨j', hk', hr ▸ hasks, fun status answer hphase => ?_⟩
  rw [hphase] at houtcome'
  exact Option.some.inj houtcome'

/-- The grades after the first seven and after the first eight steps. -/
theorem promotions_grades (n : ℕ) (grade : String)
    (h : (n, grade) ∈ [(7, "user"), (8, "developer")]) {s : UsersState}
    (hrun : run usersStep { db := oneUser } (promotions.take n) = some s) :
    s.db.users.rows.map UserRow.grade = [grade, "user"] := by
  have hgrades : (run usersStep { db := oneUser } (promotions.take n)).map
      (fun s => s.db.users.rows.map UserRow.grade) = some [grade, "user"] := by
    simp only [List.mem_cons, Prod.mk.injEq, List.not_mem_nil, or_false] at h
    obtain ⟨rfl, rfl⟩ | ⟨rfl, rfl⟩ := h <;> decide +kernel
  rw [hrun] at hgrades
  exact Option.some.inj hgrades

theorem promotion_answered : ∃ s₁ s₂ s,
    run usersStep { db := oneUser } (promotions.take 7) = some s₁ ∧
    usersStep s₁ (.work 0 .done) = some s₂ ∧ s₂.db ≠ s₁.db ∧
    run usersStep s₂ (promotions.drop 8) = some s ∧ ∃ j, s.jobs[0]? = some j ∧
      j.request.AsksFor s₁.db s₂.db ∧ ∀ status answer, j.phase = .answered status answer →
        status = if Fate.done = .lost then 500 else 200 := by
  obtain ⟨s, hrun, -⟩ := promotions_run
  have hsplit : run usersStep { db := oneUser } (promotions.take 7 ++ promotions.drop 7) = some s :=
    hrun
  obtain ⟨s₁, hfirst, hrest⟩ := run_append_eq_some.mp hsplit
  obtain ⟨s₂, hstep, hrun'⟩ := run_cons_eq_some.mp
    (show run usersStep s₁ (.work 0 .done :: promotions.drop 8) = some s from hrest)
  have hbefore := promotions_grades 7 "user" (by simp) hfirst
  have hafter := promotions_grades 8 "developer" (by simp) (run_concat hfirst hstep)
  have hne : s₂.db ≠ s₁.db := by
    intro heq
    rw [heq, hbefore] at hafter
    simp at hafter
  exact ⟨s₁, s₂, s, hfirst, hstep, hne, hrun', change_answered hfirst hstep hne hrun'⟩

/-! ### Grades -/

section Grades

variable {db db' : Database}

theorem mem_setGrade {telegramID : ℤ} {grade : String} {u : UserRow}
    (h : u ∈ (db.setGrade telegramID grade).2.users.rows) :
    u.telegramID = telegramID ∧ u.grade = grade ∨
      u.telegramID ≠ telegramID ∧ u ∈ db.users.rows := by
  obtain ⟨u', hu', rfl⟩ := List.mem_map.mp h
  by_cases hid : u'.telegramID = telegramID
  · exact .inl (by simp [hid])
  · exact .inr (by simp [hid, hu'])

theorem exists_mem_setGrade (telegramID : ℤ) (grade : String) {u : UserRow}
    (h : u ∈ db.users.rows) :
    ∃ u' ∈ (db.setGrade telegramID grade).2.users.rows, u'.telegramID = u.telegramID := by
  refine ⟨_, List.mem_map_of_mem h, ?_⟩
  dsimp only
  split <;> rfl

/-- The grade a user has before any request: that of the table, or that of a new user. -/
def initialGrade (db : Database) (telegramID : ℤ) : String :=
  ((db.userByTelegramID telegramID).map UserRow.grade).getD "user"

theorem initialGrade_of_mem {u : UserRow} (h : u ∈ db.users.rows) :
    initialGrade db u.telegramID = u.grade := by
  have hfind : (⟨db.users.rows, db.telegramID_nodup⟩ : Table UserRow.telegramID).find?
      u.telegramID = some u := Table.find?_eq_some.mpr ⟨h, rfl⟩
  change db.userByTelegramID u.telegramID = some u at hfind
  rw [initialGrade, hfind]
  rfl

theorem initialGrade_of_unknown {telegramID : ℤ}
    (h : ∀ u ∈ db.users.rows, u.telegramID ≠ telegramID) : initialGrade db telegramID = "user" := by
  have hfind : db.userByTelegramID telegramID = none := by
    simpa [Database.userByTelegramID] using h
  rw [initialGrade, hfind]
  rfl

/-- The grade change an audit event reports. -/
def gradeChange (e : Event) : Option (ℤ × String) :=
  if e.stage = .validated ∧ e.capability = capUsersPromote then
    match e.details with
    | [(_, .int telegramID), (_, .str grade)] => some (telegramID, grade)
    | _ => none
  else none

/-- The grade of a user by the audit log. -/
def loggedGrade (log : List Event) (telegramID : ℤ) : Option String :=
  log.foldl (fun last e =>
    match gradeChange e with
    | some (telegramID', grade) => if telegramID' = telegramID then some grade else last
    | none => last) none

theorem loggedGrade_concat (log : List Event) (e : Event) (telegramID : ℤ) :
    loggedGrade (log ++ [e]) telegramID =
      match gradeChange e with
      | some (telegramID', grade) =>
          if telegramID' = telegramID then some grade else loggedGrade log telegramID
      | none => loggedGrade log telegramID := by
  rw [loggedGrade, List.foldl_append]
  rfl

/-- The request is a patch whose audit event is still to be written. -/
def Pending (r : UserRequest) (phase : Phase) (telegramID : ℤ) : Prop :=
  r.call.isPatch = true ∧ phase = .validating telegramID

instance (r : UserRequest) (phase : Phase) (telegramID : ℤ) :
    Decidable (Pending r phase telegramID) := inferInstanceAs (Decidable (_ ∧ _))

/-- What a step of a request does to the grades and to the journal. -/
inductive GradeEffect (r : UserRequest) (db : Database) (phase phase' : Phase) (db' : Database)
    (wrote : Option Event) : Prop
  | quiet (hkeeps : KeepsGrades db db') (hphase : ∀ id, ¬Pending r phase id)
      (hphase' : ∀ id, ¬Pending r phase' id) (hwrote : ∀ e ∈ wrote, gradeChange e = none)
  | set {telegramID : ℤ} {grade : String} (hcall : r.call = .patch (some grade))
      (hvalid : grade ∈ validGrades) (hknown : ∃ u ∈ db.users.rows, u.telegramID = telegramID)
      (hphase : phase.undecided = some telegramID) (hphase' : phase' = .validating telegramID)
      (hdb : db' = (db.setGrade telegramID grade).2) (hwrote : wrote = none)
  | log {telegramID : ℤ} {grade : Option String} (hcall : r.call = .patch grade)
      (hphase : phase = .validating telegramID) (hphase' : phase' = .delivering telegramID)
      (hdb : db' = db) (hwrote : wrote = some (r.validated telegramID))

theorem gradeChange_validated {r : UserRequest} {grade : Option String}
    (hcall : r.call = .patch grade) (telegramID : ℤ) :
    gradeChange (r.validated telegramID) = some (telegramID, grade.getD "") := by
  simp [gradeChange, UserRequest.validated, UserRequest.details, UserRequest.flow, newAuditFlow,
    AuditFlow.event, hcall, UserCall.capability]

theorem gradeChange_of_not_patch {r : UserRequest} (hcall : r.call.isPatch = false)
    (telegramID : ℤ) : gradeChange (r.validated telegramID) = none := by
  have hcap : r.call.capability ≠ capUsersPromote := by
    cases hc : r.call with
    | patch grade => simp [hc, UserCall.isPatch] at hcall
    | subscribe | unsubscribe => exact (by decide : capAppsRegister ≠ capUsersPromote)
  simp [gradeChange, UserRequest.validated, UserRequest.flow, newAuditFlow, AuditFlow.event, hcap]

theorem not_pending_of_undecided {r : UserRequest} {phase : Phase} {telegramID : ℤ}
    (h : phase.undecided = some telegramID) (id : ℤ) : ¬Pending r phase id := by
  rintro ⟨-, rfl⟩
  cases h

/-- A step of a request whose result is not lost. -/
theorem UserRequest.Moves.gradeEffect {r : UserRequest} {fate : Fate} {phase phase' : Phase}
    {wrote : Option Event} (h : r.Moves db fate phase phase' db' wrote)
    (hlost : fate = .lost → phase.undecided = none) :
    GradeEffect r db phase phase' db' wrote := by
  have hkeeps : KeepsGrades db db := .of_users_eq rfl
  have hother {p : Phase} (hp : ∀ id, p ≠ .validating id) (id : ℤ) : ¬Pending r p id :=
    fun h => hp id h.2
  have hnothing (e : Event) (he : e ∈ (none : Option Event)) : gradeChange e = none :=
    absurd he (Option.not_mem_none e)
  cases h with
  | badID | enter | findApp | findUser =>
      exact .quiet hkeeps (hother (by simp)) (hother (by simp)) hnothing
  | receive | deny | deliver =>
      refine .quiet hkeeps (hother (by simp)) (hother (by simp)) ?_
      rintro e ⟨⟩
      rfl
  | refuse hphase =>
      exact .quiet hkeeps (not_pending_of_undecided hphase) (hother (by simp)) hnothing
  | lose hphase _ hfate =>
      rw [hlost hfate] at hphase
      cases hphase
  | change hphase hchanges hknown =>
      have hno {call : UserCall} (hcall : r.call = call) (hpatch : call.isPatch = false) (p : Phase)
          (id : ℤ) : ¬Pending r p id := by
        rintro ⟨h, -⟩
        rw [hcall, hpatch] at h
        cases h
      cases hchanges with
      | grade grade hcall hvalid =>
          obtain rfl := Option.some.inj hphase
          exact .set hcall hvalid (hknown (by rw [hcall]; rfl)) rfl rfl rfl rfl
      | subscribe appID hcall =>
          exact .quiet (.of_users_eq (users_addSubscription _ appID)) (hno hcall rfl _)
            (hno hcall rfl _) hnothing
      | unsubscribe appID hcall =>
          exact .quiet (.of_users_eq (users_deleteSubscription _ appID)) (hno hcall rfl _)
            (hno hcall rfl _) hnothing
  | @validate telegramID =>
      cases hcall : r.call with
      | patch grade => exact .log hcall rfl rfl rfl rfl
      | subscribe | unsubscribe =>
          have hpatch : r.call.isPatch = false := by rw [hcall]; rfl
          refine .quiet hkeeps (fun _ h => absurd h.1 (by simp [hpatch]))
            (fun _ h => absurd h.1 (by simp [hpatch])) ?_
          rintro e ⟨⟩
          exact gradeChange_of_not_patch hpatch telegramID

/-! ### Grades in a run -/

/-- The request has set the user's grade. -/
structure SetTo (j : UserJob) (telegramID : ℤ) (grade : String) : Prop where
  call : j.request.call = .patch (some grade)
  parsed : parseInt j.request.telegramID = some telegramID
  valid : grade ∈ validGrades
  changed : j.phase.changed = true

/-- No statement is executed whose result is then lost: what fails has had no effect. -/
def NothingLost (s : UsersState) : UsersAction → Prop
  | .work k fate => fate = .lost → ∀ j ∈ s.jobs[k]?, j.phase.undecided = none
  | .call _ | .store _ => True

instance (s : UsersState) : ∀ a : UsersAction, Decidable (NothingLost s a)
  | .work k fate =>
      inferInstanceAs (Decidable (fate = .lost → ∀ j ∈ s.jobs[k]?, j.phase.undecided = none))
  | .call _ | .store _ => isTrue trivial

structure GradeInv (db₀ : Database) (s : UsersState) : Prop extends UsersInv s where
  kept : ∀ u₀ ∈ db₀.users.rows, ∃ u ∈ s.db.users.rows, u.telegramID = u₀.telegramID
  grades : ∀ u ∈ s.db.users.rows, u.grade = initialGrade db₀ u.telegramID ∨
    ∃ j ∈ s.jobs, SetTo j u.telegramID u.grade

/-- What was kept is kept by a statement that sets no grade. -/
theorem KeepsGrades.kept {db₀ : Database} (h : KeepsGrades db db')
    (hkept : ∀ u₀ ∈ db₀.users.rows, ∃ u ∈ db.users.rows, u.telegramID = u₀.telegramID) :
    ∀ u₀ ∈ db₀.users.rows, ∃ u ∈ db'.users.rows, u.telegramID = u₀.telegramID := by
  intro u₀ hu₀
  obtain ⟨u, hu, htg⟩ := hkept u₀ hu₀
  obtain ⟨u', hu', -, htg'⟩ := h.users u hu
  exact ⟨u', hu', htg'.trans htg⟩

/-- A row after such a statement is a row before, or that of a new user. -/
theorem KeepsGrades.row {db₀ : Database} (h : KeepsGrades db db')
    (hkept : ∀ u₀ ∈ db₀.users.rows, ∃ u ∈ db.users.rows, u.telegramID = u₀.telegramID)
    {u : UserRow} (hu : u ∈ db'.users.rows) :
    (∃ u' ∈ db.users.rows, u'.telegramID = u.telegramID ∧ u'.grade = u.grade) ∨
      u.grade = initialGrade db₀ u.telegramID ∧
        ∀ u' ∈ db.users.rows, u'.telegramID ≠ u.telegramID := by
  rcases h.rows u hu with hold | ⟨huser, hnew⟩
  · exact .inl hold
  · refine .inr ⟨huser.trans (initialGrade_of_unknown fun u₀ hu₀ heq => ?_).symm, hnew⟩
    obtain ⟨u', hu', htg⟩ := hkept u₀ hu₀
    exact hnew u' hu' (htg.trans heq)

theorem mem_set_or_eq {α : Type} {l : List α} {k : ℕ} {a b x : α} (hk : l[k]? = some a)
    (hx : x ∈ l) : x = a ∨ x ∈ l.set k b := by
  obtain ⟨i, hi⟩ := List.mem_iff_getElem?.mp hx
  by_cases heq : k = i
  · subst heq
    exact .inl (Option.some.inj (hi.symm.trans hk))
  · exact .inr (List.mem_of_getElem? ((List.getElem?_set_ne heq).trans hi))

theorem GradeInv.step {db₀ : Database} {s s' : UsersState} {a : UsersAction} (h : GradeInv db₀ s)
    (hlost : NothingLost s a) (hstep : usersStep s a = some s') : GradeInv db₀ s' := by
  have hinv := h.toUsersInv.step hstep
  -- a statement that sets no grade, and jobs that stay as they are
  have hquiet (hkeeps : KeepsGrades s.db s'.db) (hjobs : ∀ u : UserRow, ∀ j ∈ s.jobs,
      SetTo j u.telegramID u.grade → ∃ j' ∈ s'.jobs, SetTo j' u.telegramID u.grade) :
      GradeInv db₀ s' := by
    refine ⟨hinv, hkeeps.kept h.kept, fun u hu => ?_⟩
    rcases hkeeps.row h.kept hu with ⟨u', hu', htg, hgrade⟩ | ⟨hinitial, -⟩
    · rw [← htg, ← hgrade]
      rcases h.grades u' hu' with hinitial | ⟨j, hj, hset⟩
      · exact .inl hinitial
      · exact .inr (hjobs u' j hj hset)
    · exact .inl hinitial
  cases a with
  | call r =>
      obtain rfl := Option.some.inj hstep
      exact hquiet (.of_users_eq rfl) fun u j hj hset => ⟨j, List.mem_append_left _ hj, hset⟩
  | store op =>
      obtain rfl := Option.some.inj hstep
      exact hquiet (keepsGrades_exec op) fun u j hj hset => ⟨j, hj, hset⟩
  | work k fate =>
      obtain ⟨j, phase, wrote, hk, hmoves, hjobs, -⟩ := usersStep_work hstep
      have hlt := (List.getElem?_eq_some_iff.mp hk).1
      have hnew : j.after phase wrote fate ∈ s'.jobs := by
        rw [hjobs]
        exact List.mem_set hlt _
      -- a request that has set a grade goes on having set it
      have hold (u : UserRow) (j' : UserJob) (hj' : j' ∈ s.jobs)
          (hset : SetTo j' u.telegramID u.grade) :
          ∃ j'' ∈ s'.jobs, SetTo j'' u.telegramID u.grade := by
        rcases mem_set_or_eq hk hj' with rfl | hj'
        · exact ⟨_, hnew, hset.call, hset.parsed, hset.valid, hmoves.changed hset.changed⟩
        · exact ⟨j', hjobs ▸ hj', hset⟩
      cases hmoves.gradeEffect fun hfate => hlost hfate j hk with
      | quiet hkeeps _ _ _ => exact hquiet hkeeps hold
      | log _ _ _ hdb _ => exact hquiet (.of_users_eq (by rw [hdb])) hold
      | set hcall hvalid _ hphase hphase' hdb _ =>
          refine ⟨hinv, fun u₀ hu₀ => ?_, fun u hu => ?_⟩
          · obtain ⟨u, hu, htg⟩ := h.kept u₀ hu₀
            obtain ⟨u', hu', htg'⟩ := exists_mem_setGrade _ _ hu
            exact ⟨u', hdb ▸ hu', htg'.trans htg⟩
          · rw [hdb] at hu
            rcases mem_setGrade hu with ⟨rfl, rfl⟩ | ⟨-, hu⟩
            · have htrail := h.trail j (List.mem_of_getElem? hk)
              have hparsed := (UserRequest.trail_undecided hphase).mp htrail
              exact .inr ⟨_, hnew, hcall, hparsed.1, hvalid, by simp [UserJob.after, hphase',
                Phase.changed, Phase.outcome]⟩
            · exact (h.grades u hu).imp_right fun ⟨j', hj', hset⟩ => hold u j' hj' hset

theorem gradeInv_of_run {as : List UsersAction} {s : UsersState}
    (hlost : Guarded usersStep NothingLost { db := db } as)
    (hrun : run usersStep { db := db } as = some s) : GradeInv db s := by
  refine run_invariant_of_guarded (fun _ _ _ h hC hstep => h.step hC hstep) ?_ hlost hrun
  exact ⟨⟨.nil, by simp⟩, fun u hu => ⟨u, hu, rfl⟩, fun u hu => .inl (initialGrade_of_mem hu).symm⟩

/-- What a request has tried to write once it has changed the database. -/
theorem UserRequest.Trail.of_changed {r : UserRequest} {phase : Phase} {es : List Event}
    {telegramID : ℤ} (h : r.Trail phase es) (hchanged : phase.changed = true)
    (hparse : parseInt r.telegramID = some telegramID) :
    r.flow.event .received ∈ es ∧
      (phase = .validating telegramID ∨ r.validated telegramID ∈ es) := by
  have hsame {id : ℤ} (hid : parseInt r.telegramID = some id) : id = telegramID :=
    Option.some.inj (hid.symm.trans hparse)
  cases phase with
  | validating id =>
      obtain ⟨hid, rfl⟩ := h
      exact ⟨by simp, .inl (by rw [hsame hid])⟩
  | delivering id =>
      obtain ⟨hid, rfl⟩ := h
      exact ⟨by simp, .inr (by simp [hsame hid])⟩
  | answered status answer =>
      obtain ⟨-, id, hid, -, rfl⟩ | ⟨hne, -⟩ := h
      · exact ⟨by simp, .inr (by simp [hsame hid])⟩
      · exact absurd (by simpa [Phase.changed, Phase.outcome] using hchanged) hne
  | denying code status => exact absurd (by simpa [Phase.changed, Phase.outcome] using hchanged) h.1
  | entered | receiving | checking | lookingUp | inserting => cases hchanged

/-- **Every grade is accounted for.** However requests, failures and the statements of the bot are
interleaved, as long as no result of a statement is lost, a user has the grade they began with, or a
valid grade that a request with the capability `users.promote` has set. That request has tried to
write `received`, and it has tried to write its change to the audit log, or is about to. -/
theorem grade_accounted {as : List UsersAction} {s : UsersState}
    (hlost : Guarded usersStep NothingLost { db := db } as)
    (hrun : run usersStep { db := db } as = some s) {u : UserRow} (hu : u ∈ s.db.users.rows) :
    u.grade = initialGrade db u.telegramID ∨
      ∃ j ∈ s.jobs, SetTo j u.telegramID u.grade ∧
        (∃ ok, (j.request.flow.event .received, ok) ∈ s.attempts) ∧
        (j.phase = .validating u.telegramID ∨
          ∃ ok, (j.request.validated u.telegramID, ok) ∈ s.attempts) := by
  have hinv := gradeInv_of_run hlost hrun
  refine (hinv.grades u hu).imp_right fun ⟨j, hj, hset⟩ => ⟨j, hj, hset, ?_⟩
  have hattempts {e : Event} (he : e ∈ j.attempts.map Prod.fst) : ∃ ok, (e, ok) ∈ s.attempts := by
    obtain ⟨⟨e, ok⟩, hmem, rfl⟩ := List.mem_map.mp he
    exact ⟨ok, hinv.interleaved.subset (List.mem_map_of_mem hj) hmem⟩
  obtain ⟨hreceived, hvalidated⟩ := (hinv.trail j hj).of_changed hset.changed hset.parsed
  exact ⟨hattempts hreceived, hvalidated.imp_right hattempts⟩

theorem promotions_nothingLost : Guarded usersStep NothingLost { db := oneUser } promotions := by
  decide +kernel

theorem promotions_accounted : ∃ s, run usersStep { db := oneUser } promotions = some s ∧
    ∃ u ∈ s.db.users.rows, u.telegramID = 7 ∧ u.grade = "admin" ∧
      (u.grade = initialGrade oneUser u.telegramID ∨
        ∃ j ∈ s.jobs, SetTo j u.telegramID u.grade ∧
          (∃ ok, (j.request.flow.event .received, ok) ∈ s.attempts) ∧
          (j.phase = .validating u.telegramID ∨
            ∃ ok, (j.request.validated u.telegramID, ok) ∈ s.attempts)) := by
  obtain ⟨s, hrun, husers, -⟩ := promotions_run
  obtain ⟨u, hu, heq⟩ : ∃ u ∈ s.db.users.rows, (u.telegramID, u.grade) = (7, "admin") :=
    List.mem_map.mp (husers ▸ by simp)
  obtain ⟨htg, hgrade⟩ := Prod.mk.inj heq
  exact ⟨s, hrun, u, hu, htg, hgrade, grade_accounted promotions_nothingLost hrun hu⟩

/-! ### The journal -/

/-- The changes to one user do not overlap, and they get into the audit log. -/
def Separate (s : UsersState) : UsersAction → Prop
  | .work k fate => ∀ j ∈ s.jobs[k]?, j.request.call.isPatch = true →
      (j.phase.changed = true → fate.takesEffect = true) ∧ ∀ telegramID ∈ j.phase.undecided,
        ∀ j' ∈ s.jobs, ¬Pending j'.request j'.phase telegramID
  | .call _ | .store _ => True

instance (s : UsersState) : ∀ a : UsersAction, Decidable (Separate s a)
  | .work k fate => inferInstanceAs (Decidable (∀ j ∈ s.jobs[k]?, j.request.call.isPatch = true →
      (j.phase.changed = true → fate.takesEffect = true) ∧ ∀ telegramID ∈ j.phase.undecided,
        ∀ j' ∈ s.jobs, ¬Pending j'.request j'.phase telegramID))
  | .call _ | .store _ => isTrue trivial

structure JournalInv (db₀ : Database) (s : UsersState) : Prop where
  kept : ∀ u₀ ∈ db₀.users.rows, ∃ u ∈ s.db.users.rows, u.telegramID = u₀.telegramID
  logged : ∀ telegramID grade, loggedGrade s.log telegramID = some grade →
    ∃ u ∈ s.db.users.rows, u.telegramID = telegramID
  pending : ∀ j ∈ s.jobs, ∀ telegramID, Pending j.request j.phase telegramID →
    (∃ u ∈ s.db.users.rows, u.telegramID = telegramID) ∧
    ∀ u ∈ s.db.users.rows, u.telegramID = telegramID → j.request.call = .patch (some u.grade)
  journal : ∀ u ∈ s.db.users.rows,
    (∀ j ∈ s.jobs, ¬Pending j.request j.phase u.telegramID) →
      u.grade = (loggedGrade s.log u.telegramID).getD (initialGrade db₀ u.telegramID)

/-- Nothing happens to the grades or to the journal. -/
theorem JournalInv.quiet {db₀ : Database} {s s' : UsersState} (h : JournalInv db₀ s)
    (hkeeps : KeepsGrades s.db s'.db) (hlog : ∀ id, loggedGrade s'.log id = loggedGrade s.log id)
    (hpending : ∀ id, (∃ j ∈ s'.jobs, Pending j.request j.phase id) ↔
      ∃ j ∈ s.jobs, Pending j.request j.phase id)
    (hjobs : ∀ j ∈ s'.jobs, ∀ id, Pending j.request j.phase id → j ∈ s.jobs) :
    JournalInv db₀ s' := by
  refine ⟨hkeeps.kept h.kept, fun id grade hid => ?_, fun j hj id hp => ?_, fun u hu hnone => ?_⟩
  · obtain ⟨u, hu, rfl⟩ := h.logged id grade (hlog id ▸ hid)
    obtain ⟨u', hu', -, htg⟩ := hkeeps.users u hu
    exact ⟨u', hu', htg⟩
  · obtain ⟨⟨u, hu, htg⟩, hgrade⟩ := h.pending j (hjobs j hj id hp) id hp
    refine ⟨?_, fun u' hu' htg' => ?_⟩
    · obtain ⟨u', hu', -, htg'⟩ := hkeeps.users u hu
      exact ⟨u', hu', htg'.trans htg⟩
    · rcases hkeeps.row h.kept hu' with ⟨u'', hu'', htg'', heq⟩ | ⟨-, hnew⟩
      · rw [← heq]
        exact hgrade u'' hu'' (htg''.trans htg')
      · exact absurd (htg.trans htg'.symm) (hnew u hu)
  · rw [hlog]
    rcases hkeeps.row h.kept hu with ⟨u', hu', htg, hgrade⟩ | ⟨hinitial, hnew⟩
    · rw [← hgrade, ← htg]
      refine h.journal u' hu' fun j hj hp => ?_
      obtain ⟨j', hj', hp'⟩ := (hpending _).mpr ⟨j, hj, hp⟩
      exact hnone j' hj' (htg ▸ hp')
    · -- a new user is not in the journal
      cases hlogged : loggedGrade s.log u.telegramID with
      | none => exact hinitial
      | some grade =>
          obtain ⟨u', hu', htg⟩ := h.logged _ _ hlogged
          exact absurd htg (hnew u' hu')

theorem log_append {s s' : UsersState} {wrote : Option Event} {fate : Fate}
    (h : s'.attempts = s.attempts ++ wrote.toList.map fun e => (e, fate.takesEffect)) :
    s'.log = s.log ++ if fate.takesEffect then wrote.toList else [] := by
  rw [UsersState.log, h, List.filterMap_append]
  cases wrote <;> cases fate <;> rfl

theorem JournalInv.set {db₀ : Database} {s s' : UsersState} (h : JournalInv db₀ s) {k : ℕ}
    {j j' : UserJob} (hk : s.jobs[k]? = some j) (hjobs : s'.jobs = s.jobs.set k j')
    (hlog : s'.log = s.log) {telegramID : ℤ} {grade : String}
    (hcall : j'.request.call = .patch (some grade)) (hphase' : j'.phase = .validating telegramID)
    (hold : ∀ id, ¬Pending j.request j.phase id)
    (hknown : ∃ u ∈ s.db.users.rows, u.telegramID = telegramID)
    (hdb : s'.db = (s.db.setGrade telegramID grade).2)
    (hfree : ∀ j ∈ s.jobs, ¬Pending j.request j.phase telegramID) : JournalInv db₀ s' := by
  have hnew : j' ∈ s'.jobs := hjobs ▸ List.mem_set (List.getElem?_eq_some_iff.mp hk).1 _
  have husers {u : UserRow} (hu : u ∈ s.db.users.rows) :
      ∃ u' ∈ s'.db.users.rows, u'.telegramID = u.telegramID :=
    hdb ▸ exists_mem_setGrade telegramID grade hu
  have hrow {u : UserRow} (hu : u ∈ s'.db.users.rows) :
      u.telegramID = telegramID ∧ u.grade = grade ∨
        u.telegramID ≠ telegramID ∧ u ∈ s.db.users.rows := mem_setGrade (hdb ▸ hu)
  refine ⟨fun u₀ hu₀ => ?_, fun id g hid => ?_, fun i hi id hp => ?_, fun u hu hnone => ?_⟩
  · obtain ⟨u, hu, htg⟩ := h.kept u₀ hu₀
    obtain ⟨u', hu', htg'⟩ := husers hu
    exact ⟨u', hu', htg'.trans htg⟩
  · obtain ⟨u, hu, rfl⟩ := h.logged id g (hlog ▸ hid)
    exact husers hu
  · rw [hjobs] at hi
    rcases List.mem_or_eq_of_mem_set hi with hi | rfl
    · -- another request waits for another user
      obtain ⟨⟨u, hu, rfl⟩, hgrade⟩ := h.pending i hi id hp
      refine ⟨husers hu, fun u' hu' htg' => ?_⟩
      rcases hrow hu' with ⟨heq, -⟩ | ⟨-, hu'⟩
      · exact absurd (heq.symm.trans htg' ▸ hp) (hfree i hi)
      · exact hgrade u' hu' htg'
    · obtain rfl : telegramID = id := Phase.validating.inj (hphase'.symm.trans hp.2)
      obtain ⟨u, hu, htg⟩ := hknown
      refine ⟨?_, fun u' hu' htg' => ?_⟩
      · obtain ⟨u', hu', htg'⟩ := husers hu
        exact ⟨u', hu', htg'.trans htg⟩
      · rcases hrow hu' with ⟨-, rfl⟩ | ⟨hne, -⟩
        · exact hcall
        · exact absurd htg' hne
  · rcases hrow hu with ⟨rfl, -⟩ | ⟨-, hu⟩
    · exact absurd ⟨by rw [hcall]; rfl, hphase'⟩ (hnone j' hnew)
    · rw [hlog]
      refine h.journal u hu fun i hi hp => ?_
      rcases mem_set_or_eq hk hi with rfl | hi
      · exact hold _ hp
      · exact hnone i (hjobs ▸ hi) hp

theorem JournalInv.write {db₀ : Database} {s s' : UsersState} (h : JournalInv db₀ s) {k : ℕ}
    {j j' : UserJob} (hk : s.jobs[k]? = some j) (hjobs : s'.jobs = s.jobs.set k j')
    {telegramID : ℤ} {grade : Option String} (hcall : j.request.call = .patch grade)
    (hphase : j.phase = .validating telegramID) (hphase' : ∀ id, ¬Pending j'.request j'.phase id)
    (hdb : s'.db = s.db) (hlog : s'.log = s.log ++ [j.request.validated telegramID]) :
    JournalInv db₀ s' := by
  have hj := List.mem_of_getElem? hk
  have hmine : Pending j.request j.phase telegramID := ⟨by rw [hcall]; rfl, hphase⟩
  obtain ⟨⟨u₁, hu₁, htg₁⟩, hgrade⟩ := h.pending j hj telegramID hmine
  have hlogged (id : ℤ) : loggedGrade s'.log id =
      if telegramID = id then some (grade.getD "") else loggedGrade s.log id := by
    rw [hlog, loggedGrade_concat, gradeChange_validated hcall]
  refine ⟨hdb ▸ h.kept, fun id g hid => ?_, fun i hi id hp => ?_, fun u hu hnone => ?_⟩
  · rw [hdb]
    rw [hlogged] at hid
    split at hid
    · next heq => exact ⟨u₁, hu₁, htg₁.trans heq⟩
    · exact h.logged id g hid
  · rw [hjobs] at hi
    rw [hdb]
    rcases List.mem_or_eq_of_mem_set hi with hi | rfl
    · exact h.pending i hi id hp
    · exact absurd hp (hphase' id)
  · rw [hdb] at hu
    rw [hlogged]
    split
    · next heq =>
        have hsame := hgrade u hu heq.symm
        rw [hcall] at hsame
        rw [UserCall.patch.inj hsame]
        rfl
    · next hne =>
        refine h.journal u hu fun i hi hp => ?_
        rcases mem_set_or_eq hk hi with rfl | hi
        · exact hne (Phase.validating.inj (hphase.symm.trans hp.2))
        · exact hnone i (hjobs ▸ hi) hp

theorem JournalInv.step {db₀ : Database} {s s' : UsersState} {a : UsersAction}
    (h : JournalInv db₀ s) (hsep : Separate s a) (hlost : NothingLost s a)
    (hstep : usersStep s a = some s') : JournalInv db₀ s' := by
  cases a with
  | call r =>
      obtain rfl := Option.some.inj hstep
      have hmem {j : UserJob} {id : ℤ} (hj : j ∈ s.jobs ++ [{ request := r }])
          (hp : Pending j.request j.phase id) : j ∈ s.jobs := by
        rcases List.mem_append.mp hj with hj | hj
        · exact hj
        · obtain rfl := List.mem_singleton.mp hj
          cases hp.2
      refine h.quiet (.of_users_eq rfl) (fun _ => rfl) (fun id => ?_) fun j hj id hp => hmem hj hp
      exact ⟨fun ⟨j, hj, hp⟩ => ⟨j, hmem hj hp, hp⟩,
        fun ⟨j, hj, hp⟩ => ⟨j, List.mem_append_left _ hj, hp⟩⟩
  | store op =>
      obtain rfl := Option.some.inj hstep
      exact h.quiet (keepsGrades_exec op) (fun _ => rfl) (fun _ => Iff.rfl) fun j hj _ _ => hj
  | work k fate =>
      obtain ⟨j, phase, wrote, hk, hmoves, hjobs, hattempts⟩ := usersStep_work hstep
      have hlog := log_append hattempts
      cases hmoves.gradeEffect fun hfate => hlost hfate j hk with
      | quiet hkeeps hphase hphase' hwrote =>
          have hmem {i : UserJob} {id : ℤ} (hi : i ∈ s'.jobs) (hp : Pending i.request i.phase id) :
              i ∈ s.jobs := by
            rw [hjobs] at hi
            rcases List.mem_or_eq_of_mem_set hi with hi | rfl
            · exact hi
            · exact absurd hp (hphase' id)
          refine h.quiet hkeeps (fun id => ?_) (fun id => ?_) fun i hi id hp => hmem hi hp
          · rw [hlog]
            cases wrote with
            | none => simp
            | some e =>
                split
                · exact (loggedGrade_concat ..).trans (by rw [hwrote e rfl])
                · rw [List.append_nil]
          · refine ⟨fun ⟨i, hi, hp⟩ => ⟨i, hmem hi hp, hp⟩, fun ⟨i, hi, hp⟩ => ?_⟩
            rcases mem_set_or_eq hk hi with rfl | hi
            · exact absurd hp (hphase id)
            · exact ⟨i, hjobs ▸ hi, hp⟩
      | set hcall _ hknown hphase hphase' hdb hwrote =>
          refine h.set hk hjobs (by simp [hlog, hwrote]) hcall hphase'
            (not_pending_of_undecided hphase) hknown hdb ?_
          exact (hsep j hk (by rw [hcall]; rfl)).2 _ hphase
      | log hcall hphase hphase' hdb hwrote =>
          have hfate : fate.takesEffect = true := (hsep j hk (by rw [hcall]; rfl)).1
            (by rw [hphase]; rfl)
          refine h.write hk hjobs hcall hphase (fun id hp => ?_) hdb
            (by simp [hlog, hwrote, hfate])
          have hbad : phase = .validating id := hp.2
          rw [hphase'] at hbad
          cases hbad

/-- **The audit log is a journal of the grades.** In a run in which no result of a statement is lost
and the changes to one user do not overlap and get into the audit log, every user without a change
under way has the grade the log says last, or the one they began with. -/
theorem grades_replayed {as : List UsersAction} {s : UsersState}
    (hsep : Guarded usersStep Separate { db := db } as)
    (hlost : Guarded usersStep NothingLost { db := db } as)
    (hrun : run usersStep { db := db } as = some s) {u : UserRow} (hu : u ∈ s.db.users.rows)
    (hnone : ∀ j ∈ s.jobs, ¬Pending j.request j.phase u.telegramID) :
    u.grade = (loggedGrade s.log u.telegramID).getD (initialGrade db u.telegramID) := by
  refine (run_invariant_of_guarded (I := JournalInv db)
    (fun _ _ _ h hC hstep => h.step hC.1 hC.2 hstep) ?_ (hsep.and hlost) hrun).journal u hu hnone
  exact ⟨fun u hu => ⟨u, hu, rfl⟩, fun _ _ h => absurd h (by simp [loggedGrade, UsersState.log]),
    fun _ h => absurd h List.not_mem_nil, fun u hu _ => (initialGrade_of_mem hu).symm⟩

theorem promotions_replayed : ∃ s, run usersStep { db := oneUser } promotions = some s ∧
    loggedGrade s.log 7 = some "admin" ∧ ∃ u ∈ s.db.users.rows, u.telegramID = 7 ∧
      u.grade = (loggedGrade s.log u.telegramID).getD (initialGrade oneUser u.telegramID) := by
  obtain ⟨s, hrun, husers, hphases⟩ := promotions_run
  have hlogged : (run usersStep { db := oneUser } promotions).map (fun s => loggedGrade s.log 7) =
      some (some "admin") := by decide +kernel
  rw [hrun] at hlogged
  have hsep : Guarded usersStep Separate { db := oneUser } promotions := by decide +kernel
  obtain ⟨u, hu, heq⟩ : ∃ u ∈ s.db.users.rows, (u.telegramID, u.grade) = (7, "admin") :=
    List.mem_map.mp (husers ▸ by simp)
  obtain ⟨htg, -⟩ := Prod.mk.inj heq
  refine ⟨s, hrun, Option.some.inj hlogged, u, hu, htg,
    grades_replayed hsep promotions_nothingLost hrun hu ?_⟩
  rintro j hj ⟨-, hphase⟩
  have hmem : j.phase ∈ s.jobs.map UserJob.phase := List.mem_map_of_mem hj
  simp [hphases, hphase] at hmem

end Grades

end TelegramServer.Api

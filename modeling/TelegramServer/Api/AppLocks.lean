import TelegramServer.Api.AppInvariant

/-!
The locks on the row of an app. An open transaction that has changed the row holds it,
and two open transactions never hold it in modes that conflict. So while one holds the
row for itself (`FOR UPDATE`), the others have no change of the app in hand that they
could commit: a change of its capabilities is followed by a bump of its version before
the commit, and the bump needs the row.
-/

namespace TelegramServer.Api

open Lib Registry Auth

/-- A change of the row of an app that is there. -/
def AppWrite.updatesRow : AppWrite → Bool
  | .setDescription _ | .setMinGrade _ | .setActive _ | .bumpVersion | .deleteApp => true
  | _ => false

def Tx.updatesRow (tx : Tx) : Bool := tx.writes.any AppWrite.updatesRow

/-- Two locks that may be held together. -/
def Compatible (lock lock' : Option LockMode) : Prop :=
  ∀ m ∈ lock, ∀ m' ∈ lock', m.conflicts m' = false

structure LockInv (s : AdminState) : Prop where
  held : ∀ {n tx}, s.Open n tx → tx.updatesRow = true → ∃ m, tx.lock = some m ∧ m ≠ .keyShare
  compatible : ∀ {n m tx tx'}, n ≠ m → s.Open n tx → s.Open m tx' → tx.appID = tx'.appID →
    Compatible tx.lock tx'.lock

section Locks

variable {argon : Argon2} {planner : Planner} {s s' : AdminState} {action : AdminAction}
  {db : AdminDatabase} {others : List Tx} {tx t : Tx} {stmt : AppStmt} {todo : List AppStmt}
  {ws : List AppWrite} {lock lock' : Option LockMode} {m : LockMode}

theorem LockMode.conflicts_comm (m m' : LockMode) : m.conflicts m' = m'.conflicts m := by
  cases m <;> cases m' <;> rfl

theorem LockMode.conflicts_update (m : LockMode) : LockMode.conflicts .update m = true := by
  cases m <;> rfl

/-- The lock that is kept is the new one or the one that was held. -/
theorem LockMode.join_eq (lock : Option LockMode) (m : LockMode) :
    LockMode.join lock m = m ∨ lock = some (LockMode.join lock m) := by
  rcases lock with - | (- | - | -) <;> cases m <;> simp [LockMode.join]

theorem LockMode.join_ne_keyShare (h : m ≠ .keyShare ∨ ∃ m', lock = some m' ∧ m' ≠ .keyShare) :
    LockMode.join lock m ≠ .keyShare := by
  rcases lock with - | (- | - | -) <;> cases m <;> simp_all [LockMode.join]

theorem Compatible.symm (h : Compatible lock lock') : Compatible lock' lock :=
  fun m hm m' hm' => (LockMode.conflicts_comm m m').trans (h m' hm' m hm)

theorem compatible_none : Compatible none lock := fun _ hm => nomatch hm

/-- Nobody holds a lock beside `FOR UPDATE`. -/
theorem Compatible.eq_none (h : Compatible (some .update) lock) : lock = none := by
  cases lock with
  | none => rfl
  | some m =>
      have hfree := h .update rfl m rfl
      rw [LockMode.conflicts_update] at hfree
      cases hfree

/-- What a statement does to the lock: it changes no row and leaves the lock, or takes one that
no rival is in the way of. -/
inductive Locks (others : List Tx) (tx : Tx) (ws : List AppWrite) : Option LockMode → Prop
  | keep (hws : ws.any AppWrite.updatesRow = false) : Locks others tx ws tx.lock
  | take (m : LockMode) (hrivals : ∀ t ∈ tx.rivals others, t.holdsAgainst m = false)
      (hws : ws.any AppWrite.updatesRow = true → m ≠ .keyShare) :
      Locks others tx ws (some (LockMode.join tx.lock m))

theorem References.locks (h : References db others tx lock)
    (hws : ws.any AppWrite.updatesRow = false) : Locks others tx ws lock := by
  cases h with
  | own => exact .keep hws
  | shared _ hrivals =>
      refine .take .keyShare hrivals fun hupdates => ?_
      rw [hws] at hupdates
      cases hupdates

theorem LockMode.join_update (lock : Option LockMode) : LockMode.join lock .update = .update := by
  rcases lock with - | (- | - | -) <;> rfl

theorem Executed.locks (h : Executed db others tx stmt (.done ws lock)) :
    Locks others tx ws lock := by
  cases h with
  | idle | insertApp | deleteCapability | revokeKey => exact .keep rfl
  | insertCapability href => exact href.locks rfl
  | insertKey _ _ href => exact href.locks rfl
  | @lockRow stmt m hstmt _ hrivals =>
      refine .take m hrivals fun _ => ?_
      rintro rfl
      cases stmt <;> cases hstmt
  | deleteApp hrivals =>
      rw [← LockMode.join_update tx.lock]
      refine .take .update (fun t ht => ?_) fun _ => by decide
      rw [Tx.holdsAgainst, (hrivals t ht).1, Option.any_none]

/-- The lock after a statement is compatible with those of the rivals. -/
theorem Locks.compatible (h : Locks others tx ws lock) (ht : t ∈ tx.rivals others)
    (hbefore : Compatible tx.lock t.lock) : Compatible lock t.lock := by
  cases h with
  | keep => exact hbefore
  | take m hrivals _ =>
      intro m₁ hm₁ m₂ hm₂
      obtain rfl : LockMode.join tx.lock m = m₁ := Option.some.inj hm₁
      rcases LockMode.join_eq tx.lock m with hnew | hold
      · rw [hnew]
        have hfree := hrivals t ht
        rw [Tx.holdsAgainst, hm₂] at hfree
        exact hfree
      · exact hbefore _ hold m₂ hm₂

theorem Locks.held (h : Locks others tx ws lock)
    (hbefore : tx.updatesRow = true → ∃ m, tx.lock = some m ∧ m ≠ .keyShare)
    (hupdates : (tx.after todo ws lock).updatesRow = true) :
    ∃ m, lock = some m ∧ m ≠ .keyShare := by
  have hsplit : tx.updatesRow = true ∨ ws.any AppWrite.updatesRow = true := by
    rwa [Tx.updatesRow, Tx.writes_after, List.any_append, Bool.or_eq_true] at hupdates
  cases h with
  | keep hws =>
      rw [hws] at hsplit
      exact hbefore (hsplit.resolve_right (by simp))
  | take m _ hws =>
      refine ⟨_, rfl, LockMode.join_ne_keyShare ?_⟩
      rcases hsplit with hold | hnew
      · exact .inr (hbefore hold)
      · exact .inl (hws hnew)

theorem lockInv_new (db : AdminDatabase) : LockInv (.new db) where
  held h := by simp [AdminState.Open, AdminState.new] at h
  compatible _ h := by simp [AdminState.Open, AdminState.new] at h

theorem AdminEffect.lockInv (heff : AdminEffect argon s action s') (h : LockInv s) :
    LockInv s' := by
  have hopen : OpenInv
      (fun _ tx => tx.updatesRow = true → ∃ m, tx.lock = some m ∧ m ≠ .keyShare)
      (fun tx t => Compatible tx.lock t.lock) s' := by
    refine heff.openInv ?_ ?_ (fun htx _ => htx) ⟨h.held, h.compatible⟩
    · intro db tx htx
      obtain ⟨hnil, hlock⟩ := htx.fresh
      rw [hlock]
      refine ⟨fun hupdates => ?_, fun t => ⟨compatible_none, compatible_none.symm⟩⟩
      simp [Tx.updatesRow, hnil] at hupdates
    · intro db others tx stmt todo ws lock htodo hexec hheld
      have hlocks := hexec.locks
      refine ⟨hlocks.held hheld, fun t ht _ hbefore _ => ?_⟩
      have hafter : Compatible lock t.lock := hlocks.compatible ht hbefore
      exact ⟨hafter, hafter.symm⟩
  exact ⟨hopen.each, hopen.pairs⟩

/-- **Run.** The locks at every point of a run. -/
theorem lockInv_of_run {actions : List AdminAction}
    (hrun : run (adminStep argon planner) (.new db) actions = some s) : LockInv s :=
  run_invariant (fun _ _ _ h hstep => (adminStep_effect hstep).lockInv h) (lockInv_new db) hrun

/-- **While the row is held.** A transaction that holds the row of an app for itself keeps the
others from committing a change of the app or of its capabilities. -/
theorem commit_of_locked (hinv : AdminInv s) (hlocks : LockInv s) {n m : ℕ} (hne : n ≠ m)
    (hn : s.Open n tx) (hm : s.Open m t) (hlock : tx.lock = some .update)
    (happ : s.db.HasApp tx.appID) (htodo : t.todo = []) :
    (t.view s.db).HasApp tx.appID ∧
      ∀ c, (t.view s.db).Grants tx.appID c ↔ s.db.Grants tx.appID c := by
  by_cases ha : tx.appID = t.appID
  · have hfree : t.lock = none := by
      have hcompatible := hlocks.compatible hne hn hm ha
      rw [hlock] at hcompatible
      exact hcompatible.eq_none
    have hrow : t.updatesRow = false := Bool.eq_false_iff.mpr fun hupdates => by
      obtain ⟨m, hheld, -⟩ := hlocks.held hm hupdates
      rw [hfree] at hheld
      cases hheld
    have hnone : ∀ w ∈ t.writes, w.updatesRow = false := by
      simpa [Tx.updatesRow] using hrow
    have hdel : t.deletes = false := Bool.eq_false_iff.mpr fun hdel => by
      obtain ⟨w, hw, hwd⟩ := List.any_eq_true.mp hdel
      have hnot := hnone w hw
      cases w <;> simp_all [AppWrite.deletesApp, AppWrite.updatesRow]
    have hins : t.inserts = false := Bool.eq_false_iff.mpr fun hins =>
      (hinv.each hm).fresh hins (ha ▸ happ)
    -- a change of the capabilities would come with a bump, and the bump with a lock
    have hquiet : t.changesCapabilities = false := Bool.eq_false_iff.mpr fun hchange => by
      obtain hbad | hbad | hbump := (hinv.each hm).bumped hchange
      · rw [hins] at hbad
        cases hbad
      · rw [htodo] at hbad
        cases hbad
      · cases hnone _ hbump
    exact ⟨Tx.hasApp_view (fun _ => hdel) happ, fun c => Tx.grants_view_of_quiet hquiet hdel⟩
  · exact ⟨Tx.hasApp_view (fun h => absurd h ha) happ, fun c => Tx.grants_view_of_ne ha⟩

end Locks

end TelegramServer.Api

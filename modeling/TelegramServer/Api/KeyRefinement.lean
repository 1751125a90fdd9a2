import TelegramServer.Api.AppInvariant
import TelegramServer.Auth.KeyLifecycle
import Mathlib.Data.List.Forall2

/-!
The life of a key, statement by statement. `Auth.KeyStore` cuts only the issue of a key
into steps and takes every other transaction as one; `adminStep` runs all of them
statement by statement. The two do the same to the keys: a state here has a shadow among
the states there, and whatever a step does here, its shadow does what `KeyEffect` says. So
the keys that are live there are those that resolve here.
-/

namespace TelegramServer.Api

open Lib Registry Auth

/-- What a transaction that issues no key does to the keys. -/
inductive KeyPlan (ws : List AppWrite) : Prop
  | nothing (h : ∀ w ∈ ws, w.lone = false)
  | revoke (keyPrefix : String) (h : ws = [.revokeKey keyPrefix])
  | purge (h : ws = [.deleteApp])

/-- The statement that writes the row of a new key. -/
def insertKeyOf (argon : Argon2) (i : Issuance) : AppStmt :=
  .insertKey (i.row argon).keyHash i.keyPrefix i.label

/-- How far the issue of a key has got, if that is what a transaction is about. -/
inductive PhaseOf (argon : Argon2) : Option Tx → IssuePhase → Prop
  | over : PhaseOf argon none .ended
  | other {tx : Tx} (h : KeyPlan tx.planned) : PhaseOf argon (some tx) .ended
  | started {i : Issuance} (hi : i.Submitted) :
      PhaseOf argon (some (issueKey argon i)) (.started i)
  | appChecked {i : Issuance} (hi : i.Submitted) :
      PhaseOf argon
        (some { appID := i.appID, todo := [.selectPrefix i.keyPrefix, insertKeyOf argon i] })
        (.appChecked i)
  | prefixChecked {i : Issuance} (hi : i.Submitted) :
      PhaseOf argon (some { appID := i.appID, todo := [insertKeyOf argon i] }) (.prefixChecked i)
  | inserted {i : Issuance} {lock : Option LockMode} (hi : i.Submitted) :
      PhaseOf argon
        (some
          { appID := i.appID, todo := [], writes := (insertKeyOf argon i).writes, lock := lock })
        (.inserted i)

/-- A state of the key store that has the same rows and the same issues under way. -/
structure Shadow (argon : Argon2) (s : AdminState) (k : KeyState) : Prop where
  db : k.db = s.db.keyView
  phases : List.Forall₂ (PhaseOf argon) s.txs k.issuing

/-! ### Plans and phases -/

section Phases

variable {argon : Argon2} {db : AdminDatabase} {others : List Tx} {tx : Tx} {stmt : AppStmt}
  {todo : List AppStmt} {ws ws' : List AppWrite} {lock : Option LockMode} {ph : IssuePhase}

theorem KeyPlan.sublist (hsub : ws'.Sublist ws) (h : KeyPlan ws) : KeyPlan ws' := by
  have hsingle : ∀ {w : AppWrite}, ws = [w] → ws' = [] ∨ ws' = [w] := by
    rintro w rfl
    exact List.sublist_singleton.mp hsub
  cases h with
  | nothing h => exact .nothing fun w hw => h w (hsub.subset hw)
  | revoke keyPrefix h =>
      obtain rfl | rfl := hsingle h
      · exact .nothing (by simp)
      · exact .revoke keyPrefix rfl
  | purge h =>
      obtain rfl | rfl := hsingle h
      · exact .nothing (by simp)
      · exact .purge rfl

/-- A transaction that starts has written no key. -/
theorem Starts.phaseOf (h : Starts argon tx) :
    ∃ ph, PhaseOf argon (some tx) ph ∧ ph.pending = none := by
  cases h with
  | create h => exact ⟨.ended, .other (.nothing fun _ hw => (planned_create h hw).1), rfl⟩
  | patch h => exact ⟨.ended, .other (.nothing fun _ hw => (planned_patch h hw).1), rfl⟩
  | delete => exact ⟨.ended, .other (.nothing fun _ hw => (planned_delete hw).1), rfl⟩
  | purge => exact ⟨.ended, .other (.purge rfl), rfl⟩
  | revokeKey _ keyPrefix => exact ⟨.ended, .other (.revoke keyPrefix rfl), rfl⟩
  | issueKey h => exact ⟨_, .started (submitted_of_handleKeyIssue h), rfl⟩

/-- What a statement does to the phase: nothing that is seen, or it writes the row of the key. -/
theorem PhaseOf.exec (h : PhaseOf argon (some tx) ph) (htodo : tx.todo = stmt :: todo)
    (hexec : Executed db others tx stmt (.done ws lock)) :
    (∃ ph', PhaseOf argon (some (tx.after todo ws lock)) ph' ∧ ph'.pending = none) ∨
      ∃ i, ph = .prefixChecked i ∧ i.Submitted ∧
        PhaseOf argon (some (tx.after todo ws lock)) (.inserted i) ∧
        i.keyPrefix ∉ db.keys.keys ∧ ∀ t ∈ others, t.insertsKey i.keyPrefix = false := by
  cases h with
  | other h => exact .inl ⟨_, .other (h.sublist (hexec.planned htodo)), rfl⟩
  | started hi =>
      obtain ⟨rfl, rfl⟩ := List.cons.inj htodo
      cases hexec with
      | idle => exact .inl ⟨_, .appChecked hi, rfl⟩
      | lockRow hstmt => cases hstmt
  | appChecked hi =>
      obtain ⟨rfl, rfl⟩ := List.cons.inj htodo
      cases hexec with
      | idle => exact .inl ⟨_, .prefixChecked hi, rfl⟩
      | lockRow hstmt => cases hstmt
  | @prefixChecked i hi =>
      obtain ⟨rfl, rfl⟩ := List.cons.inj htodo
      cases hexec with
      | idle hstmt => cases hstmt
      | lockRow hstmt => cases hstmt
      | insertKey hfree hothers => exact .inr ⟨i, rfl, hi, .inserted hi, hfree, hothers⟩
  | inserted => cases htodo

/-- What a commit does to the keys. -/
theorem PhaseOf.commit {k : KeyState} {n : ℕ} (h : PhaseOf argon (some tx) ph)
    (htodo : tx.todo = []) (hinv : TxInv db tx) (hdb : k.db = db.keyView)
    (hph : k.issuing[n]? = some ph) :
    ∃ history, KeyEffect argon k ⟨(tx.view db).keyView, k.issuing.set n .ended, history⟩ := by
  cases h with
  | started | appChecked | prefixChecked => cases htodo
  | other hplan =>
      have hplanned : tx.planned = tx.writes := by
        rw [Tx.planned, htodo, List.flatMap_nil, List.append_nil]
      have hsame : k.issuing.set n .ended = k.issuing := by
        obtain ⟨hlt, hget⟩ := List.getElem?_eq_some_iff.mp hph
        rw [← hget, List.set_getElem_self]
      rw [hplanned] at hplan
      rw [hsame]
      cases hplan with
      | nothing hnot =>
          refine ⟨k.history, .quiet ?_ rfl (List.Sublist.refl _)⟩
          rw [hdb]
          exact Tx.keys_view_of_not_lone hnot
      | revoke keyPrefix hwrites =>
          refine ⟨_, .revoke tx.appID keyPrefix ?_ rfl rfl⟩
          rw [hdb, Tx.view, hwrites]
          rfl
      | purge hwrites =>
          refine ⟨_, .purge tx.appID ?_ rfl rfl⟩
          rw [hdb, Tx.view, hwrites]
          rfl
  | @inserted i lock hi =>
      have happ : db.HasApp i.appID :=
        (hinv.present rfl).resolve_right (by simp [Tx.inserts, insertKeyOf, AppStmt.writes,
          AppWrite.insertsApp])
      refine ⟨_, .commit i ?_ rfl (pending_ended hph)⟩
      rw [hdb, Tx.view]
      simp only [insertKeyOf, AppStmt.writes, List.foldl_cons, List.foldl_nil, AppWrite.apply,
        AdminDatabase.insertKey, dif_pos happ]
      rfl

end Phases

/-! ### The shadow of a run -/

theorem forall₂_set {α β : Type*} {R : α → β → Prop} {l : List α} {l' : List β} {a : α} {b : β}
    (h : List.Forall₂ R l l') (hab : R a b) (n : ℕ) :
    List.Forall₂ R (l.set n a) (l'.set n b) := by
  induction h generalizing n with
  | nil => exact .nil
  | cons hhead htail ih =>
      cases n with
      | zero => exact .cons hab htail
      | succ n => exact .cons hhead (ih n)

theorem exists_of_forall₂ {α β : Type*} {R : α → β → Prop} {l : List α} {l' : List β} {a : α}
    {n : ℕ} (h : List.Forall₂ R l l') (hn : l[n]? = some a) : ∃ b, l'[n]? = some b ∧ R a b := by
  induction h generalizing n with
  | nil => cases hn
  | @cons _ b _ _ hhead htail ih =>
      cases n with
      | zero =>
          obtain rfl := Option.some.inj hn
          exact ⟨b, rfl, hhead⟩
      | succ n => exact ih hn

section Shadow

variable {argon : Argon2} {planner : Planner} {s s' : AdminState} {k : KeyState}
  {action : AdminAction} {actions : List AdminAction}

/-- A prefix that is written there is written here. -/
theorem Shadow.exists_open (h : Shadow argon s k) {j : Issuance} (hj : j ∈ k.pending) :
    ∃ n tx, k.issuing[n]? = some (.inserted j) ∧ s.Open n tx ∧
      tx.insertsKey j.keyPrefix = true := by
  obtain ⟨ph, hmem, hpending⟩ := List.mem_filterMap.mp hj
  obtain rfl : ph = .inserted j := by
    cases ph <;> simp_all [IssuePhase.pending]
  obtain ⟨n, hn⟩ := List.mem_iff_getElem?.mp hmem
  obtain ⟨tx, htx, hphase⟩ := exists_of_forall₂ h.phases.flip hn
  cases hphase
  exact ⟨n, _, hn, htx, by simp [Tx.insertsKey, insertKeyOf, AppStmt.writes, AppWrite.newPrefix]⟩

/-- **Step.** A step is followed by its shadow. -/
theorem AdminEffect.shadow (heff : AdminEffect argon s action s') (hinv : AdminInv s)
    (h : Shadow argon s k) : ∃ k', KeyEffect argon k k' ∧ Shadow argon s' k' := by
  cases heff with
  | quiet hdb htxs _ =>
      exact ⟨k, .quiet rfl rfl (List.Sublist.refl _), hdb ▸ h.db, htxs ▸ h.phases⟩
  | start tx htx hdb htxs _ =>
      obtain ⟨ph, hph, hpending⟩ := htx.phaseOf
      refine ⟨{ k with issuing := k.issuing ++ [ph] }, .quiet rfl rfl ?_, hdb ▸ h.db, ?_⟩
      · simp [KeyState.pending, hpending]
      · rw [htxs]
        exact List.rel_append h.phases (.cons hph .nil)
  | finish n hdb htxs _ =>
      refine ⟨k.setPhase n .ended, quiet_setPhase rfl, hdb ▸ h.db, ?_⟩
      rw [htxs]
      exact forall₂_set h.phases .over n
  | exec n tx stmt todo ws lock hopen htodo hexec hdb htxs _ =>
      obtain ⟨ph, hph, hphase⟩ := exists_of_forall₂ h.phases hopen
      obtain ⟨ph', hph', hquiet⟩ | ⟨i, rfl, hi, hph', hfree, hothers⟩ := hphase.exec htodo hexec
      · refine ⟨k.setPhase n ph', quiet_setPhase hquiet, hdb ▸ h.db, ?_⟩
        rw [htxs]
        exact forall₂_set h.phases hph' n
      · -- no other transaction has written the prefix, so no other shadow has
        have hunique : i.keyPrefix ∉ k.pending.map Issuance.keyPrefix := by
          intro hmem
          obtain ⟨j, hj, hsame⟩ := List.mem_map.mp hmem
          obtain ⟨m, t, hm, hopen', hinserts⟩ := h.exists_open hj
          have hne : m ≠ n := by
            rintro rfl
            rw [hph] at hm
            cases hm
          have hnot := hothers t (mem_others.mpr ⟨m, hne, hopen'⟩)
          rw [← hsame, hinserts] at hnot
          cases hnot
        have hrows : i.keyPrefix ∉ k.db.keys.rows.map KeyRow.keyPrefix := by
          rw [h.db]
          exact hfree
        refine ⟨k.setPhase n (.inserted i),
          .insert i hi rfl rfl (pending_inserted hph rfl i) hrows hunique, hdb ▸ h.db, ?_⟩
        rw [htxs]
        exact forall₂_set h.phases hph' n
  | commit n tx _ hopen htodo hdb htxs _ =>
      obtain ⟨ph, hph, hphase⟩ := exists_of_forall₂ h.phases hopen
      obtain ⟨history, heffect⟩ := hphase.commit htodo (hinv.each hopen) h.db hph
      refine ⟨_, heffect, hdb ▸ rfl, ?_⟩
      rw [htxs]
      exact forall₂_set h.phases .over n

/-- **Run.** A run is followed by its shadow. -/
theorem shadow_of_run (hinv : AdminInv s) (h : Shadow argon s k)
    (hrun : run (adminStep argon planner) s actions = some s') :
    ∃ k', Relation.ReflTransGen (KeyEffect argon) k k' ∧ Shadow argon s' k' := by
  have hall : ∃ k', Relation.ReflTransGen (KeyEffect argon) k k' ∧
      (AdminInv s' ∧ Shadow argon s' k') := by
    refine run_simulates (R := fun s k => AdminInv s ∧ Shadow argon s k) ?_ ⟨hinv, h⟩ hrun
    rintro s action s' k ⟨hinv, h⟩ hstep
    have heff := adminStep_effect hstep
    obtain ⟨k', heffect, h'⟩ := heff.shadow hinv h
    exact ⟨k', .single heffect, heff.adminInv hinv, h'⟩
  obtain ⟨k', hreach, -, h'⟩ := hall
  exact ⟨k', hreach, h'⟩

theorem liveKeys_of_reach {k' : KeyState} (h : LiveKeys argon k)
    (hreach : Relation.ReflTransGen (KeyEffect argon) k k') : LiveKeys argon k' := by
  induction hreach with
  | refl => exact h
  | tail _ heffect ih => exact heffect.liveKeys ih

/-- **The statements keep the keys.** After every run that starts without keys, whose shadow has
come to `k`, a token resolves exactly if it is the plaintext of a key that is live in `k` and the
app is active. -/
theorem resolves_of_run (db : AdminDatabase) (hkeys : db.keys.rows = [])
    (hrun : run (adminStep argon planner) (.new db) actions = some s) :
    ∃ k, Relation.ReflTransGen (KeyEffect argon) ⟨db.keyView, [], []⟩ k ∧ Shadow argon s k ∧
      ∀ bearer appID keyPrefix,
        (∃ id, resolve argon planner s.db.keyView bearer = .ok id ∧ id.appID = appID ∧
            id.keyPrefix = keyPrefix) ↔
          Live k.history appID keyPrefix bearer ∧ AppActive s.db.keyView appID := by
  have hstart : Shadow argon (.new db) ⟨db.keyView, [], []⟩ := ⟨rfl, .nil⟩
  obtain ⟨k, hreach, h⟩ := shadow_of_run (adminInv_new db) hstart hrun
  have hlive : LiveKeys argon k :=
    liveKeys_of_reach (keyInv_of_empty hkeys rfl rfl).toLiveKeys hreach
  refine ⟨k, hreach, h, fun bearer appID keyPrefix => ?_⟩
  rw [← h.db]
  exact exists_resolve_iff planner hlive

end Shadow

end TelegramServer.Api

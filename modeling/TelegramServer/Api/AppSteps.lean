import TelegramServer.Api.AppTransactions
import TelegramServer.Lib.Runs

/-!
What a step of a run does. `adminStep` is taken apart once, into the moves of
`AdminMove`. Every invariant of the committed rows, the open transactions and the log is
proved from `AdminEffect`; one that speaks of the open transactions, alone and in pairs,
is proved with the rule `AdminEffect.openInv`.
-/

namespace TelegramServer.Api

open Lib Registry Auth

/-- A transaction that a request starts. -/
inductive Starts (argon : Argon2) : Tx → Prop
  | create {createdBy : String} {body : Option CreateAppRequest} {tx : Tx}
      (h : Api.create createdBy body = .ok tx) : Starts argon tx
  | patch {appID : String} {body : Option PatchAppRequest} {tx : Tx}
      (h : Api.patch appID body = .ok tx) : Starts argon tx
  | delete (appID : String) : Starts argon (Api.delete appID)
  | purge (appID : String) : Starts argon (Api.purge appID)
  | issueKey {form : IssueForm} {random : Randomness} {i : Issuance}
      (h : handleKeyIssue form random = .ok i) : Starts argon (Api.issueKey argon i)
  | revokeKey (appID keyPrefix : String) : Starts argon (Api.revokeKey appID keyPrefix)

/-- The `n`-th transaction is open. -/
def AdminState.Open (s : AdminState) (n : ℕ) (tx : Tx) : Prop := s.txs[n]? = some (some tx)

/-- The moves of `adminStep`, with the action where a proof needs it. -/
inductive AdminMove (argon : Argon2) (s : AdminState) : AdminAction → AdminState → Prop
  /-- The request fails its checks. -/
  | refuse {action : AdminAction} : AdminMove argon s action s
  | start {action : AdminAction} (tx : Tx) (htx : Starts argon tx) :
      AdminMove argon s action (s.start tx)
  | exec (n : ℕ) (tx : Tx) (stmt : AppStmt) (todo : List AppStmt) (ws : List AppWrite)
      (lock : Option LockMode) (hopen : s.Open n tx) (htodo : tx.todo = stmt :: todo)
      (hexec : Executed s.db (s.others n) tx stmt (.done ws lock)) :
      AdminMove argon s (.exec n) (s.setTx n (some (tx.after todo ws lock)))
  /-- The transaction ends without a commit. -/
  | finish {action : AdminAction} (n : ℕ) : AdminMove argon s action (s.setTx n none)
  | commit (n : ℕ) (tx : Tx) (hopen : s.Open n tx) (htodo : tx.todo = []) :
      AdminMove argon s (.commit n) { s.setTx n none with
        db := tx.view s.db
        log := s.log ++ events tx.appID s.db tx.writes }
  /-- A call of `Resolve` begins. -/
  | resolve {action : AdminAction} (keyPrefix bearer : String) :
      AdminMove argon s action { s with resolving := s.resolving ++ [.begun keyPrefix bearer] }
  | miss {action : AdminAction} (n : ℕ) : AdminMove argon s action (s.setResolve n .ended)
  | found (n : ℕ) (keyPrefix : String) (row : KeyRow × AppRecord)
      (hrow : row ∈ keyQuery s.db.keyView keyPrefix) :
      AdminMove argon s (.lookupKey n) (s.setResolve n (.matched s.db keyPrefix row))
  | load {action : AdminAction} (n : ℕ) (snapshot : AdminDatabase) (keyPrefix : String)
      (row : KeyRow × AppRecord)
      (hphase : s.resolving[n]? = some (.matched snapshot keyPrefix row)) :
      AdminMove argon s action { s.setResolve n .ended with
        resolved := s.resolved ++
          [{ appID := row.1.appID
             capabilities := loadCapabilitiesTx snapshot.keyView row.1.appID
             capabilitySetVer := row.2.capabilitySetVersion
             keyPrefix := keyPrefix }] }

/-- What a step does to the committed rows, the transactions and the log. -/
inductive AdminEffect (argon : Argon2) (s : AdminState) (action : AdminAction) (s' : AdminState) :
    Prop
  | quiet (hdb : s'.db = s.db) (htxs : s'.txs = s.txs) (hlog : s'.log = s.log)
  | start (tx : Tx) (htx : Starts argon tx) (hdb : s'.db = s.db)
      (htxs : s'.txs = s.txs ++ [some tx]) (hlog : s'.log = s.log)
  | exec (n : ℕ) (tx : Tx) (stmt : AppStmt) (todo : List AppStmt) (ws : List AppWrite)
      (lock : Option LockMode) (hopen : s.Open n tx) (htodo : tx.todo = stmt :: todo)
      (hexec : Executed s.db (s.others n) tx stmt (.done ws lock)) (hdb : s'.db = s.db)
      (htxs : s'.txs = s.txs.set n (some (tx.after todo ws lock))) (hlog : s'.log = s.log)
  | finish (n : ℕ) (hdb : s'.db = s.db) (htxs : s'.txs = s.txs.set n none)
      (hlog : s'.log = s.log)
  | commit (n : ℕ) (tx : Tx) (haction : action = .commit n) (hopen : s.Open n tx)
      (htodo : tx.todo = [])
      (hdb : s'.db = tx.view s.db) (htxs : s'.txs = s.txs.set n none)
      (hlog : s'.log = s.log ++ events tx.appID s.db tx.writes)

section Step

variable {argon : Argon2} {planner : Planner} {s s' : AdminState} {action : AdminAction}

theorem startIf_move (req : Except AdminErr Tx) (hreq : ∀ tx, req = .ok tx → Starts argon tx)
    (h : some (s.startIf req) = some s') : AdminMove argon s action s' := by
  obtain rfl := Option.some.inj h
  cases req with
  | error err => exact .refuse
  | ok tx => exact .start tx (hreq tx rfl)

theorem lookupKey_mem {db : KeyDatabase} {keyPrefix bearer : String} {row : KeyRow × AppRecord}
    (h : lookupKey argon planner db keyPrefix bearer = some row) : row ∈ keyQuery db keyPrefix :=
  (planner.perm _).mem_iff.mp (List.mem_of_find?_eq_some h)

theorem adminStep_move (h : adminStep argon planner s action = some s') :
    AdminMove argon s action s' := by
  cases action with
  | create createdBy body => exact startIf_move _ (fun tx => .create) h
  | patch appID body => exact startIf_move _ (fun tx => .patch) h
  | uiCreate createdBy form => exact startIf_move _ (fun tx => .create) h
  | uiPatch hasStore appID form =>
      simp only [adminStep] at h
      split at h
      · obtain rfl := Option.some.inj h
        exact .refuse
      · exact startIf_move _ (fun tx => .patch) h
  | delete appID =>
      obtain rfl := Option.some.inj h
      exact .start _ (.delete appID)
  | purge appID =>
      obtain rfl := Option.some.inj h
      exact .start _ (.purge appID)
  | issueKey form random =>
      simp only [adminStep] at h
      split at h
      · obtain rfl := Option.some.inj h
        exact .refuse
      · next i hi =>
          obtain rfl := Option.some.inj h
          exact .start _ (.issueKey hi)
  | revokeKey appID keyPrefix =>
      obtain rfl := Option.some.inj h
      exact .start _ (.revokeKey appID keyPrefix)
  | exec n =>
      simp only [adminStep] at h
      split at h
      · next tx hopen =>
          split at h
          · cases h
          · next stmt todo htodo =>
              split at h
              · cases h
              · obtain rfl := Option.some.inj h
                exact .finish n
              · next ws lock hexec =>
                  obtain rfl := Option.some.inj h
                  exact .exec n tx stmt todo ws lock hopen htodo (executed_of_done hexec)
      · cases h
  | commit n =>
      simp only [adminStep] at h
      split at h
      · next tx hopen =>
          split at h
          · next htodo =>
              obtain rfl := Option.some.inj h
              exact .commit n tx hopen (List.isEmpty_iff.mp htodo)
          · cases h
      · cases h
  | rollback n =>
      obtain rfl := Option.some.inj h
      exact .finish n
  | resolve bearer =>
      simp only [adminStep] at h
      split at h
      · obtain rfl := Option.some.inj h
        exact .refuse
      · next keyPrefix _ =>
          obtain rfl := Option.some.inj h
          exact .resolve keyPrefix bearer
  | lookupKey n =>
      simp only [adminStep] at h
      split at h
      · next keyPrefix bearer _ =>
          split at h
          · obtain rfl := Option.some.inj h
            exact .miss n
          · next row hrow =>
              obtain rfl := Option.some.inj h
              exact .found n keyPrefix row (lookupKey_mem hrow)
      · cases h
  | loadCapabilities n =>
      simp only [adminStep] at h
      split at h
      · next snapshot keyPrefix row hphase =>
          obtain rfl := Option.some.inj h
          exact .load n snapshot keyPrefix row hphase
      · cases h

theorem adminStep_effect (h : adminStep argon planner s action = some s') :
    AdminEffect argon s action s' := by
  cases adminStep_move h with
  | refuse | resolve | miss | found | load => exact .quiet rfl rfl rfl
  | start tx htx => exact .start tx htx rfl rfl rfl
  | exec n tx stmt todo ws lock hopen htodo hexec =>
      exact .exec n tx stmt todo ws lock hopen htodo hexec rfl rfl rfl
  | finish n => exact .finish n rfl rfl rfl
  | commit n tx hopen htodo => exact .commit n tx rfl hopen htodo rfl rfl rfl

/-- Only the commit of an open transaction changes the committed rows and the log. -/
theorem adminStep_rows (h : adminStep argon planner s action = some s') :
    s'.db = s.db ∧ s'.log = s.log ∨
      ∃ n tx, action = .commit n ∧ s.Open n tx ∧ tx.todo = [] ∧ s'.db = tx.view s.db ∧
        s'.log = s.log ++ events tx.appID s.db tx.writes := by
  cases adminStep_effect h with
  | quiet hdb _ hlog => exact .inl ⟨hdb, hlog⟩
  | start _ _ hdb _ hlog => exact .inl ⟨hdb, hlog⟩
  | exec _ _ _ _ _ _ _ _ _ hdb _ hlog => exact .inl ⟨hdb, hlog⟩
  | finish _ hdb _ hlog => exact .inl ⟨hdb, hlog⟩
  | commit n tx haction hopen htodo hdb _ hlog =>
      exact .inr ⟨n, tx, haction, hopen, htodo, hdb, hlog⟩

/-- A transaction that has ended stays so. -/
theorem adminStep_ended {n : ℕ} (h : adminStep argon planner s action = some s')
    (hn : s.txs[n]? = some none) : s'.txs[n]? = some none := by
  have hset : ∀ {m : ℕ} {t : Option Tx}, s'.txs = s.txs.set m t → (m = n → t = none) →
      s'.txs[n]? = some none := by
    intro m t htxs ht
    rw [htxs, List.getElem?_set]
    split
    · next hmn => rw [ht hmn, if_pos (hmn ▸ (List.getElem?_eq_some_iff.mp hn).1)]
    · exact hn
  cases adminStep_effect h with
  | quiet _ htxs => rw [htxs, hn]
  | start _ _ _ htxs => rw [htxs, List.getElem?_append_left (List.getElem?_eq_some_iff.mp hn).1, hn]
  | exec m tx _ _ _ _ hopen _ _ _ htxs =>
      refine hset htxs fun hmn => ?_
      rw [hmn, AdminState.Open, hn] at hopen
      cases hopen
  | finish m _ htxs => exact hset htxs fun _ => rfl
  | commit m _ _ _ _ _ htxs => exact hset htxs fun _ => rfl

/-- A transaction keeps its number. -/
theorem adminStep_index_lt {n : ℕ} (h : adminStep argon planner s action = some s')
    (hn : n < s.txs.length) : n < s'.txs.length := by
  cases adminStep_effect h with
  | quiet _ htxs => rwa [htxs]
  | start _ _ _ htxs =>
      rw [htxs, List.length_append]
      exact hn.trans_le (Nat.le_add_right _ _)
  | exec _ _ _ _ _ _ _ _ _ _ htxs => rwa [htxs, List.length_set]
  | finish _ _ htxs => rwa [htxs, List.length_set]
  | commit _ _ _ _ _ _ htxs => rwa [htxs, List.length_set]

theorem commit_eq_none {n : ℕ} {later : List AdminAction} (hn : s.txs[n]? = some none)
    (hrun : run (adminStep argon planner) s later = some s') :
    adminStep argon planner s' (.commit n) = none := by
  have hended : s'.txs[n]? = some none :=
    run_invariant (I := fun s => s.txs[n]? = some none) (fun _ _ _ hn h => adminStep_ended h hn)
      hn hrun
  simp [adminStep, hended]

theorem commit_eq_some {n : ℕ} (h : adminStep argon planner s (.commit n) = some s') :
    ∃ tx, s.Open n tx ∧ tx.todo = [] ∧ s'.db = tx.view s.db := by
  simp only [adminStep] at h
  split at h
  · next tx hopen =>
      split at h
      · next htodo =>
          obtain rfl := Option.some.inj h
          exact ⟨tx, hopen, List.isEmpty_iff.mp htodo, rfl⟩
      · cases h
  · cases h

theorem open_of_set_none {n m : ℕ} {t : Tx} (htxs : s'.txs = s.txs.set n none)
    (h : s'.Open m t) : m ≠ n ∧ s.Open m t := by
  rw [AdminState.Open, htxs, List.getElem?_set] at h
  split at h
  · split at h <;> simp at h
  · next hne => exact ⟨Ne.symm hne, h⟩

theorem open_of_set_some {n m : ℕ} {tx t : Tx} (htxs : s'.txs = s.txs.set n (some tx))
    (h : s'.Open m t) : m = n ∧ t = tx ∨ m ≠ n ∧ s.Open m t := by
  rw [AdminState.Open, htxs, List.getElem?_set] at h
  split at h
  · next heq =>
      split at h
      · exact .inl ⟨heq.symm, by simpa using h.symm⟩
      · cases h
  · next hne => exact .inr ⟨Ne.symm hne, h⟩

theorem open_of_append {m : ℕ} {tx t : Tx} (htxs : s'.txs = s.txs ++ [some tx])
    (h : s'.Open m t) : m = s.txs.length ∧ t = tx ∨ m < s.txs.length ∧ s.Open m t := by
  rw [AdminState.Open, htxs] at h
  obtain hlt | hge := lt_or_ge m s.txs.length
  · rw [List.getElem?_append_left hlt] at h
    exact .inr ⟨hlt, h⟩
  · rw [List.getElem?_append_right hge, List.getElem?_singleton] at h
    split at h
    · next hzero => exact .inl ⟨by omega, by simpa using h.symm⟩
    · cases h

theorem mem_others {n : ℕ} {t : Tx} : t ∈ s.others n ↔ ∃ m, m ≠ n ∧ s.Open m t := by
  rw [AdminState.others, List.mem_filterMap]
  simp only [id_eq, exists_eq_right, List.mem_iff_getElem?]
  constructor
  · rintro ⟨m, hm⟩
    exact ⟨m, open_of_set_none rfl (show (s.setTx n none).Open m t from hm)⟩
  · rintro ⟨m, hne, hm⟩
    refine ⟨m, ?_⟩
    rw [List.getElem?_set_ne (Ne.symm hne)]
    exact hm

end Step

/-! ### The open transactions -/

/-- A condition on every open transaction, and one on every two of the same app. -/
structure OpenInv (P : AdminDatabase → Tx → Prop) (Q : Tx → Tx → Prop) (s : AdminState) :
    Prop where
  each : ∀ {n tx}, s.Open n tx → P s.db tx
  pairs : ∀ {n m tx tx'}, n ≠ m → s.Open n tx → s.Open m tx' → tx.appID = tx'.appID → Q tx tx'

/-- **The rule for open transactions.** The conditions hold where a transaction starts, a
statement keeps them for its transaction and against the rivals, and a commit for the others. -/
theorem AdminEffect.openInv {argon : Argon2} {s s' : AdminState} {action : AdminAction}
    {P : AdminDatabase → Tx → Prop} {Q : Tx → Tx → Prop}
    (hstart : ∀ db tx, Starts argon tx → P db tx ∧ ∀ t, Q tx t ∧ Q t tx)
    (hexec : ∀ {db others tx stmt todo ws lock}, tx.todo = stmt :: todo →
      Executed db others tx stmt (.done ws lock) → P db tx →
      P db (tx.after todo ws lock) ∧ ∀ t ∈ tx.rivals others, P db t → Q tx t → Q t tx →
        Q (tx.after todo ws lock) t ∧ Q t (tx.after todo ws lock))
    (hcommit : ∀ {db tx t}, P db t → (tx.appID = t.appID → Q tx t ∧ Q t tx) → P (tx.view db) t)
    (heff : AdminEffect argon s action s') (h : OpenInv P Q s) : OpenInv P Q s' := by
  cases heff with
  | quiet hdb htxs _ =>
      constructor
      · intro n tx hn
        rw [AdminState.Open, htxs] at hn
        exact hdb ▸ h.each hn
      · intro n m tx tx' hne hn hm
        rw [AdminState.Open, htxs] at hn hm
        exact h.pairs hne hn hm
  | finish n hdb htxs _ =>
      constructor
      · intro m t hm
        exact hdb ▸ h.each (open_of_set_none htxs hm).2
      · intro m k t t' hne hm hk
        exact h.pairs hne (open_of_set_none htxs hm).2 (open_of_set_none htxs hk).2
  | start tx htx hdb htxs _ =>
      obtain ⟨hnew, hpair⟩ := hstart s.db tx htx
      constructor
      · intro m t hm
        obtain ⟨-, rfl⟩ | ⟨-, hm⟩ := open_of_append htxs hm
        · exact hdb ▸ hnew
        · exact hdb ▸ h.each hm
      · intro m k t t' hne hm hk happ
        obtain ⟨rfl, rfl⟩ | ⟨hlt, hm⟩ := open_of_append htxs hm
        · exact (hpair t').1
        · obtain ⟨rfl, rfl⟩ | ⟨-, hk⟩ := open_of_append htxs hk
          · exact (hpair t).2
          · exact h.pairs hne hm hk happ
  | exec n tx stmt todo ws lock hopen htodo hdone hdb htxs _ =>
      obtain ⟨hown, hrivals⟩ := hexec htodo hdone (h.each hopen)
      have hpair : ∀ {m t}, m ≠ n → s.Open m t → t.appID = tx.appID →
          Q (tx.after todo ws lock) t ∧ Q t (tx.after todo ws lock) := by
        intro m t hne hm happ
        refine hrivals t ?_ (h.each hm) (h.pairs (Ne.symm hne) hopen hm happ.symm)
          (h.pairs hne hm hopen happ)
        exact List.mem_filter.mpr ⟨mem_others.mpr ⟨m, hne, hm⟩, by simpa using happ⟩
      constructor
      · intro m t hm
        obtain ⟨-, rfl⟩ | ⟨-, hm⟩ := open_of_set_some htxs hm
        · exact hdb ▸ hown
        · exact hdb ▸ h.each hm
      · intro m k t t' hne hm hk happ
        obtain ⟨rfl, rfl⟩ | ⟨hm', hm⟩ := open_of_set_some htxs hm
        · obtain ⟨rfl, -⟩ | ⟨hk', hk⟩ := open_of_set_some htxs hk
          · exact absurd rfl hne
          · exact (hpair hk' hk happ.symm).1
        · obtain ⟨rfl, rfl⟩ | ⟨hk', hk⟩ := open_of_set_some htxs hk
          · exact (hpair hm' hm happ).2
          · exact h.pairs hne hm hk happ
  | commit n tx _ hopen htodo hdb htxs _ =>
      constructor
      · intro m t hm
        obtain ⟨hne, hm⟩ := open_of_set_none htxs hm
        rw [hdb]
        exact hcommit (h.each hm) fun happ =>
          ⟨h.pairs (Ne.symm hne) hopen hm happ, h.pairs hne hm hopen happ.symm⟩
      · intro m k t t' hne hm hk
        exact h.pairs hne (open_of_set_none htxs hm).2 (open_of_set_none htxs hk).2

end TelegramServer.Api

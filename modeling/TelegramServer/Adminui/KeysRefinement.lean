import TelegramServer.Adminui.KeysConsole
import TelegramServer.Api.KeyRefinement

/-!
What the console shows of the key store. The requests of the console are single steps on a table
with the columns the page shows; `Auth.KeyStore` and the statements of `Api.AdminApps` work on the
rows that authentication reads. Whatever is done to the keys there, a run of the console's requests
does to its table, so that the two say the same of every key: its app, its prefix and whether it is
revoked. The label is not compared, since only the console renames a key.
-/

namespace TelegramServer.Adminui

open Go Lib
open Auth (AppRecord Issuance KeyEffect KeyRow KeyState handleKeyIssue matchesAppID
  matchesKeyPrefix)

/-- What the two tables both say of a key. -/
structure Standing where
  appID : String
  keyPrefix : String
  revoked : Bool

def KeyEntry.standing (k : KeyEntry) : Standing := ⟨k.appID, k.keyPrefix, k.revokedAt.isSome⟩

def rowStanding (k : KeyRow) : Standing := ⟨k.appID, k.keyPrefix, k.revoked⟩

/-- The table shows the keys of a state of the key store. -/
structure Shows (t : KeyTable) (s : KeyState) : Prop where
  rows : t.keys.rows.map KeyEntry.standing = s.db.keys.rows.map rowStanding
  /-- The keys are such that the console accepts a request about them. -/
  named : ∀ k ∈ t.keys.rows, matchesAppID k.appID = true ∧ matchesKeyPrefix k.keyPrefix = true
  pending : ∀ i ∈ s.pending, i.Submitted

/-- What a revocation makes of the standing of a key. -/
def Standing.revoke (appID keyPrefix : String) (x : Standing) : Standing :=
  if x.keyPrefix = keyPrefix ∧ x.appID = appID then { x with revoked := true } else x

theorem rowStanding_revoke (appID keyPrefix : String) (k : KeyRow) :
    rowStanding (if k.keyPrefix = keyPrefix ∧ k.appID = appID then { k with revoked := true }
      else k) = (rowStanding k).revoke appID keyPrefix := by
  by_cases hname : k.keyPrefix = keyPrefix ∧ k.appID = appID <;>
    simp [Standing.revoke, rowStanding, hname]

theorem standing_revoke_of_dead {appID keyPrefix : String} {k : KeyEntry}
    (hdead : k.isLive appID keyPrefix = false) :
    k.standing.revoke appID keyPrefix = k.standing := by
  unfold Standing.revoke
  split
  · next hname =>
      have hrevoked : k.revokedAt.isSome = true := by
        simpa [KeyEntry.isLive, show k.keyPrefix = _ from hname.1, show k.appID = _ from hname.2,
          Option.isNone_eq_false_iff] using hdead
      rw [KeyEntry.standing, hrevoked]
  · rfl

theorem standing_revoke (appID keyPrefix : String) (now : Time) (k : KeyEntry) :
    (if k.isLive appID keyPrefix then { k with revokedAt := some now } else k).standing =
      k.standing.revoke appID keyPrefix := by
  split
  · next hlive =>
      simp only [KeyEntry.isLive, Bool.and_eq_true, decide_eq_true_eq] at hlive
      simp [Standing.revoke, KeyEntry.standing, hlive.1]
  · next hdead => exact (standing_revoke_of_dead (Bool.eq_false_iff.mpr hdead)).symm

section Steps

variable {argon : Auth.Argon2} {t : KeyTable} {s s' : KeyState} {i : Issuance}
  {appID keyPrefix : String}

theorem Shows.keys_eq (h : Shows t s) : t.keys.keys = s.db.keys.keys := by
  have hmap := congrArg (List.map Standing.keyPrefix) h.rows
  rwa [List.map_map, List.map_map] at hmap

/-- A form that was let through names its app and its prefix well. -/
theorem named_of_submitted (h : i.Submitted) :
    matchesAppID i.appID = true ∧ matchesKeyPrefix i.keyPrefix = true := by
  obtain ⟨form, hform⟩ := h
  refine ⟨?_, i.matches_keyPrefix⟩
  simp only [handleKeyIssue] at hform
  split_ifs at hform with happ
  rw [← Except.ok.inj hform]
  simpa using happ

/-- The table in which the app is there and active. -/
def onlyApp (appID : String) : Table AppRecord.id := ⟨[{ id := appID }], List.nodup_singleton _⟩

/-- The request for a key of such an app. -/
theorem keys_consoleStep_issue {form : Auth.IssueForm}
    (hform : handleKeyIssue form i.random = .ok i) (createdAt : Time) :
    (consoleStep t (.issue (onlyApp i.appID) form i.random createdAt)).keys =
      t.keys.insert ⟨t.nextID, i.appID, i.keyPrefix, i.label, createdAt, none⟩ := by
  have hfind : (onlyApp i.appID).find? i.appID = some { id := i.appID } := by
    simp [onlyApp, Table.find?]
  simp only [consoleStep, submitIssue, hform, KeyTable.issueKey, hfind, Bool.not_true,
    Bool.false_eq_true, if_false]
  by_cases htaken : i.keyPrefix ∈ t.keys.keys
  · rw [if_pos htaken]
    exact (Table.insert_of_mem htaken).symm
  · rw [if_neg htaken]
    rfl

/-- The commit of an issue is a request for the key. -/
theorem Shows.issue (h : Shows t s) (hi : i.Submitted)
    (hkeys : s'.db.keys = s.db.keys.insert (i.row argon))
    (hpending : ∀ j ∈ s'.pending, j ∈ s.pending) : ∃ actions, Shows (runConsole t actions) s' := by
  obtain ⟨form, hform⟩ := id hi
  refine ⟨[.issue (onlyApp i.appID) form i.random 0], ?_, ?_,
    fun j hj => h.pending j (hpending j hj)⟩
  · rw [runConsole, List.foldl_cons, List.foldl_nil, keys_consoleStep_issue hform, hkeys]
    by_cases htaken : i.keyPrefix ∈ t.keys.keys
    · have htaken' : (i.row argon).keyPrefix ∈ s.db.keys.keys := h.keys_eq ▸ htaken
      rw [Table.insert_of_mem htaken, Table.insert_of_mem htaken', h.rows]
    · have hfree : (i.row argon).keyPrefix ∉ s.db.keys.keys := h.keys_eq ▸ htaken
      rw [Table.rows_insert_of_notMem htaken, Table.rows_insert_of_notMem hfree, List.map_append,
        List.map_append, h.rows]
      rfl
  · intro k hk
    rw [runConsole, List.foldl_cons, List.foldl_nil, keys_consoleStep_issue hform] at hk
    obtain hold | rfl := Table.mem_insert hk
    · exact h.named k hold
    · exact named_of_submitted hi

/-- The request to revoke a key, where the names are well formed and the operator has confirmed. -/
theorem keys_consoleStep_revoke (happ : matchesAppID appID = true)
    (htext : matchesKeyPrefix keyPrefix = true)
    (hlive : t.keys.rows.any (KeyEntry.isLive appID keyPrefix) = true) (now : Time) :
    (consoleStep t (.revoke appID keyPrefix "1" now)).keys.rows =
      t.keys.rows.map fun k =>
        if k.isLive appID keyPrefix then { k with revokedAt := some now } else k := by
  simp only [consoleStep, handleKeyRevoke, happ, htext, KeyTable.revokeKey, KeyTable.updateLive,
    hlive, Bool.not_true, Bool.false_eq_true, if_false, ne_eq, not_true_eq_false, if_true]
  rfl

/-- The revocation of a key is a request, unless it finds no key to revoke. -/
theorem Shows.revoke (h : Shows t s)
    (hkeys : s'.db.keys = (s.db.revokeKey appID keyPrefix).keys)
    (hpending : s'.pending = s.pending) : ∃ actions, Shows (runConsole t actions) s' := by
  have hrows : s'.db.keys.rows.map rowStanding =
      (t.keys.rows.map KeyEntry.standing).map (Standing.revoke appID keyPrefix) := by
    rw [hkeys, h.rows]
    simp only [Auth.KeyDatabase.revokeKey, Table.modify, List.map_map]
    exact List.map_congr_left fun k _ => rowStanding_revoke appID keyPrefix k
  by_cases hlive : t.keys.rows.any (KeyEntry.isLive appID keyPrefix) = true
  · obtain ⟨k, hk, hk'⟩ := List.any_eq_true.mp hlive
    simp only [KeyEntry.isLive, Bool.and_eq_true, decide_eq_true_eq] at hk'
    obtain ⟨⟨rfl, rfl⟩, -⟩ := hk'
    obtain ⟨happ, htext⟩ := h.named k hk
    refine ⟨[.revoke k.appID k.keyPrefix "1" 0], ?_, fun k' hk' => ?_, hpending ▸ h.pending⟩
    · rw [runConsole, List.foldl_cons, List.foldl_nil, keys_consoleStep_revoke happ htext hlive,
        hrows, List.map_map, List.map_map]
      exact List.map_congr_left fun k' _ => standing_revoke k.appID k.keyPrefix 0 k'
    · rw [runConsole, List.foldl_cons, List.foldl_nil,
        keys_consoleStep_revoke happ htext hlive] at hk'
      obtain ⟨k'', hk'', rfl⟩ := List.mem_map.mp hk'
      split <;> exact h.named k'' hk''
  · refine ⟨[], ?_, h.named, hpending ▸ h.pending⟩
    rw [hrows, runConsole, List.foldl_nil, List.map_map]
    refine List.map_congr_left fun k hk => (standing_revoke_of_dead ?_).symm
    exact Bool.eq_false_iff.mpr fun hk' => hlive (List.any_eq_true.mpr ⟨k, hk, hk'⟩)

/-- The purge of an app takes its keys from both. -/
theorem Shows.purge (h : Shows t s) (hkeys : s'.db.keys = (s.db.purgeApp appID).keys)
    (hpending : s'.pending = s.pending) : ∃ actions, Shows (runConsole t actions) s' := by
  refine ⟨[.purgeApp appID], ?_, fun k hk => h.named k (List.mem_of_mem_filter hk),
    hpending ▸ h.pending⟩
  have hfilter := congrArg (List.filter fun x : Standing => x.appID ≠ appID) h.rows
  rw [List.filter_map, List.filter_map] at hfilter
  rw [hkeys]
  exact hfilter

/-- **Step.** What is done to the keys, requests of the console do to its table. -/
theorem Shows.step (h : Shows t s) (heff : KeyEffect argon s s') :
    ∃ actions, Shows (runConsole t actions) s' := by
  cases heff with
  | quiet hkeys _ hpending =>
      exact ⟨[], hkeys ▸ h.rows, h.named, fun i hi => h.pending i (hpending.subset hi)⟩
  | insert i hi hkeys _ hpending _ _ =>
      refine ⟨[], hkeys ▸ h.rows, h.named, fun j hj => ?_⟩
      obtain rfl | hj := List.mem_cons.mp (hpending.subset hj)
      · exact hi
      · exact h.pending j hj
  | commit i hkeys _ hpending =>
      refine h.issue (h.pending i (hpending.symm.subset List.mem_cons_self)) hkeys fun j hj => ?_
      exact hpending.symm.subset (List.mem_cons_of_mem i hj)
  | revoke _ _ hkeys _ hpending => exact h.revoke hkeys hpending
  | purge _ hkeys _ hpending => exact h.purge hkeys hpending

/-- **Run.** -/
theorem Shows.run (h : Shows t s) (hreach : Relation.ReflTransGen (KeyEffect argon) s s') :
    ∃ actions, Shows (runConsole t actions) s' := by
  induction hreach with
  | refl => exact ⟨[], h⟩
  | tail _ heff ih =>
      obtain ⟨before, h'⟩ := ih
      obtain ⟨actions, h''⟩ := h'.step heff
      refine ⟨before ++ actions, ?_⟩
      rwa [runConsole, List.foldl_append]

end Steps

/-! ### From the start -/

/-- No key has been issued. -/
def noKeys : KeyTable := ⟨.empty, 1⟩

theorem shows_noKeys {s : KeyState} (hkeys : s.db.keys.rows = []) (hissuing : s.issuing = []) :
    Shows noKeys s where
  rows := by rw [hkeys]; rfl
  named _ hk := nomatch hk
  pending i hi := by simp [KeyState.pending, hissuing] at hi

section Runs

variable {argon : Auth.Argon2} {planner : Registry.Planner}

/-- **The console and the key store.** Whatever steps the issues and the other transactions take,
some requests of the console lead to the same keys. -/
theorem shows_of_keyRun {s s' : KeyState} {actions : List Auth.KeyAction}
    (hkeys : s.db.keys.rows = []) (hissuing : s.issuing = [])
    (hrun : Lib.run (Auth.keyStep argon) s actions = some s') :
    ∃ requests, Shows (runConsole noKeys requests) s' := by
  have hsubmitted : s.Submitted := by simp [KeyState.Submitted, hissuing]
  exact (shows_noKeys hkeys hissuing).run (Auth.keyEffects_of_run hsubmitted hrun)

/-- **The console and the statements.** However the statements of the transactions interleave, some
requests of the console lead to the same keys. -/
theorem shows_of_adminRun {db : Api.AdminDatabase} {s : Api.AdminState}
    {actions : List Api.AdminAction} (hkeys : db.keys.rows = [])
    (hrun : Lib.run (Api.adminStep argon planner) (.new db) actions = some s) :
    ∃ requests, (runConsole noKeys requests).keys.rows.map KeyEntry.standing =
      s.db.keys.rows.map rowStanding := by
  obtain ⟨k, hreach, hshadow, -⟩ := Api.resolves_of_run db hkeys hrun
  obtain ⟨requests, hshows⟩ := (shows_noKeys hkeys rfl).run hreach
  refine ⟨requests, ?_⟩
  rw [hshows.rows, hshadow.db]
  rfl

end Runs

end TelegramServer.Adminui

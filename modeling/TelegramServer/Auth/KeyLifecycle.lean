import TelegramServer.Auth.KeyStore
import TelegramServer.Lib.Runs

/-!
The life of an API key. `Live` says in terms of the history of committed
transactions which keys ought to work; the invariant `LiveKeys` says that the
unrevoked rows of `app_keys` are the live keys, so that a bearer token resolves
exactly if it is the plaintext of one whose app is active.

What a step can do to the keys is said once (`KeyEffect`), in terms that do not depend
on how the transactions are cut into steps. The one thing that has to be known about
those in flight is that their prefixes are different from each other and from the
committed ones, so that a commit never meets a taken prefix.
-/

namespace TelegramServer.Auth

open Go Lib Registry

/-! ### Tokens -/

theorem not_mem_of_matchesKeyPrefix {s : String} (h : matchesKeyPrefix s = true) :
    '_' ∉ s.toList := by
  intro hmem
  simp only [matchesKeyPrefix, Bool.and_eq_true, List.all_eq_true] at h
  exact absurd (h.2 '_' hmem) (by decide)

theorem parseBearer_eq_ok {token keyPrefix : String} :
    parseBearer token = .ok keyPrefix ↔ keyPrefix ≠ "" ∧ '_' ∉ keyPrefix.toList ∧
      ∃ secret, secret ≠ "" ∧ token = "tg_" ++ keyPrefix ++ "_" ++ secret := by
  have hcut {rest secret : String} : cut rest '_' = some (keyPrefix, secret) ↔
      rest = keyPrefix ++ "_" ++ secret ∧ '_' ∉ keyPrefix.toList := by
    rw [cut_eq_some, ← @String.toList_inj rest]
    simp
  unfold parseBearer
  constructor
  · intro h
    split at h
    · cases h
    · next htg =>
        split at h
        · cases h
        · next p secret hrest =>
            split at h
            · cases h
            · next hne =>
                obtain rfl := Except.ok.inj h
                obtain ⟨hrest, hmem⟩ := hcut.mp hrest
                have htoken :=
                  append_trimPrefix (s := token) (p := bearerPrefix) (by simpa using htg)
                rw [not_or] at hne
                refine ⟨hne.1, hmem, secret, hne.2, ?_⟩
                rw [← htoken, hrest, bearerPrefix, String.append_assoc, String.append_assoc,
                  String.append_assoc]
  · rintro ⟨hne, hmem, secret, hsecret, rfl⟩
    have htoken : "tg_" ++ keyPrefix ++ "_" ++ secret =
        bearerPrefix ++ (keyPrefix ++ "_" ++ secret) := by
      rw [bearerPrefix, String.append_assoc, String.append_assoc, String.append_assoc]
    have hprefix := hasPrefix_append bearerPrefix (keyPrefix ++ "_" ++ secret)
    have htrim : trimPrefix (bearerPrefix ++ (keyPrefix ++ "_" ++ secret)) bearerPrefix =
        keyPrefix ++ "_" ++ secret :=
      String.append_right_inj _ |>.mp (append_trimPrefix hprefix)
    rw [htoken, hprefix, htrim, hcut.mpr ⟨rfl, hmem⟩]
    simp [hne, hsecret]

/-- An issued token parses to the prefix that was chosen for it. -/
theorem parseBearer_plaintext (i : Issuance) : parseBearer i.plaintext = .ok i.keyPrefix := by
  refine parseBearer_eq_ok.mpr ⟨?_, not_mem_of_matchesKeyPrefix i.matches_keyPrefix,
    hexEncode i.random.secret, ?_, rfl⟩
  · intro hempty
    have hmatch := i.matches_keyPrefix
    rw [hempty] at hmatch
    exact absurd hmatch (by decide)
  · refine hexEncode_ne_empty fun hnil => ?_
    have hlen := i.random.length_secret
    rw [hnil] at hlen
    exact absurd hlen (by decide)

/-! ### The history -/

/-- The key was issued and has since been neither revoked nor purged with its app. -/
def Live (history : List KeyEvent) (appID keyPrefix plaintext : String) : Prop :=
  ∃ before after, history = before ++ .issued appID keyPrefix plaintext :: after ∧
    .revoked appID keyPrefix ∉ after ∧ .purged appID ∉ after

theorem live_append_singleton {history : List KeyEvent} {e : KeyEvent}
    {appID keyPrefix plaintext : String} :
    Live (history ++ [e]) appID keyPrefix plaintext ↔
      e = .issued appID keyPrefix plaintext ∨
        Live history appID keyPrefix plaintext ∧ e ≠ .revoked appID keyPrefix ∧
          e ≠ .purged appID := by
  constructor
  · rintro ⟨before, after, heq, hrevoked, hpurged⟩
    obtain rfl | ⟨after', x, rfl⟩ := List.eq_nil_or_concat after
    · obtain ⟨-, hlast⟩ := List.append_inj' heq rfl
      exact .inl (List.cons.inj hlast).1
    · rw [List.concat_eq_append, ← List.cons_append, ← List.append_assoc] at heq
      obtain ⟨rfl, hlast⟩ := List.append_inj' heq rfl
      obtain rfl := (List.cons.inj hlast).1
      simp only [List.concat_eq_append, List.mem_append, List.mem_singleton, not_or]
        at hrevoked hpurged
      exact .inr ⟨⟨before, after', rfl, hrevoked.1, hpurged.1⟩, Ne.symm hrevoked.2,
        Ne.symm hpurged.2⟩
  · rintro (rfl | ⟨⟨before, after, rfl, hrevoked, hpurged⟩, hne, hne'⟩)
    · exact ⟨history, [], rfl, by simp, by simp⟩
    · exact ⟨before, after ++ [e], by simp, by simp [hrevoked, Ne.symm hne],
        by simp [hpurged, Ne.symm hne']⟩

/-! ### What a step does -/

/-- The form that was sent asked for this key. -/
def Issuance.Submitted (i : Issuance) : Prop := ∃ form, handleKeyIssue form i.random = .ok i

theorem submitted_of_handleKeyIssue {form : IssueForm} {random : Randomness} {i : Issuance}
    (h : handleKeyIssue form random = .ok i) : i.Submitted := by
  have hrandom : i.random = random := by
    simp only [handleKeyIssue] at h
    split_ifs at h
    rw [← Except.ok.inj h]
  exact ⟨form, hrandom ▸ h⟩

def IssuePhase.issuance : IssuePhase → Option Issuance
  | .started i | .appChecked i | .prefixChecked i | .inserted i => some i
  | .ended => none

/-- Every issuance under way is that of a form. -/
def KeyState.Submitted (s : KeyState) : Prop :=
  ∀ phase ∈ s.issuing, ∀ i ∈ phase.issuance, i.Submitted

/-- What a step does to the keys, to those that are written and not committed, and to the
history. -/
inductive KeyEffect (argon : Argon2) (s s' : KeyState) : Prop
  | quiet (hkeys : s'.db.keys = s.db.keys) (hhistory : s'.history = s.history)
      (hpending : s'.pending.Sublist s.pending)
  | insert (i : Issuance) (hform : i.Submitted) (hkeys : s'.db.keys = s.db.keys)
      (hhistory : s'.history = s.history)
      (hpending : s'.pending.Perm (i :: s.pending))
      (hfree : i.keyPrefix ∉ s.db.keys.rows.map KeyRow.keyPrefix)
      (hunique : i.keyPrefix ∉ s.pending.map Issuance.keyPrefix)
  | commit (i : Issuance) (hkeys : s'.db.keys = s.db.keys.insert (i.row argon))
      (hhistory : s'.history = s.history ++ [.issued i.appID i.keyPrefix i.plaintext])
      (hpending : s.pending.Perm (i :: s'.pending))
  | revoke (appID keyPrefix : String) (hkeys : s'.db.keys = (s.db.revokeKey appID keyPrefix).keys)
      (hhistory : s'.history = s.history ++ [.revoked appID keyPrefix])
      (hpending : s'.pending = s.pending)
  | purge (appID : String) (hkeys : s'.db.keys = (s.db.purgeApp appID).keys)
      (hhistory : s'.history = s.history ++ [.purged appID]) (hpending : s'.pending = s.pending)

theorem pending_setPhase {s : KeyState} {n : ℕ} {old : IssuePhase} (h : s.issuing[n]? = some old)
    (new : IssuePhase) :
    ∃ before after, s.pending = before ++ old.pending.toList ++ after ∧
      (s.setPhase n new).pending = before ++ new.pending.toList ++ after := by
  obtain ⟨hn, rfl⟩ := List.getElem?_eq_some_iff.mp h
  refine ⟨(s.issuing.take n).filterMap IssuePhase.pending,
    (s.issuing.drop (n + 1)).filterMap IssuePhase.pending, ?_, ?_⟩
  · have hsplit : s.issuing.take n ++ s.issuing[n] :: s.issuing.drop (n + 1) = s.issuing := by
      simp
    have hpending := congrArg (List.filterMap IssuePhase.pending) hsplit
    rw [List.filterMap_append, List.filterMap_cons] at hpending
    rw [KeyState.pending, ← hpending]
    cases s.issuing[n].pending <;> simp
  · simp only [KeyState.pending, KeyState.setPhase]
    rw [List.set_eq_take_append_cons_drop, if_pos hn, List.filterMap_append, List.filterMap_cons]
    cases new.pending <;> simp

theorem pending_setPhase_sublist {s : KeyState} {new : IssuePhase} (n : ℕ)
    (hnew : new.pending = none) : (s.setPhase n new).pending.Sublist s.pending := by
  cases hold : s.issuing[n]? with
  | none =>
      have hlen := List.getElem?_eq_none_iff.mp hold
      simp [KeyState.setPhase, KeyState.pending, List.set_eq_of_length_le hlen]
  | some old =>
      obtain ⟨before, after, hbefore, hafter⟩ := pending_setPhase hold new
      rw [hbefore, hafter, hnew]
      simp

theorem quiet_setPhase {argon : Argon2} {s : KeyState} {n : ℕ} {new : IssuePhase}
    (hnew : new.pending = none) : KeyEffect argon s (s.setPhase n new) :=
  .quiet rfl rfl (pending_setPhase_sublist n hnew)

/-- The row of an issuance is written. -/
theorem pending_inserted {s : KeyState} {n : ℕ} {old : IssuePhase} (h : s.issuing[n]? = some old)
    (hold : old.pending = none) (i : Issuance) :
    (s.setPhase n (.inserted i)).pending.Perm (i :: s.pending) := by
  obtain ⟨before, after, hbefore, hafter⟩ := pending_setPhase h (.inserted i)
  rw [hbefore, hafter, hold]
  simp [IssuePhase.pending]

/-- A written row is committed. -/
theorem pending_ended {s : KeyState} {n : ℕ} {i : Issuance}
    (h : s.issuing[n]? = some (.inserted i)) :
    s.pending.Perm (i :: (s.setPhase n .ended).pending) := by
  obtain ⟨before, after, hbefore, hafter⟩ := pending_setPhase h .ended
  rw [hbefore, hafter]
  simp [IssuePhase.pending]

theorem submitted_setPhase {s : KeyState} {new : IssuePhase} (hs : s.Submitted) (n : ℕ)
    (hnew : ∀ i ∈ new.issuance, i.Submitted) : (s.setPhase n new).Submitted := by
  intro phase hphase
  obtain hold | rfl := List.mem_or_eq_of_mem_set hphase
  · exact hs phase hold
  · exact hnew

/-- The issuance of a phase is that of a form. -/
theorem KeyState.Submitted.issuance {s : KeyState} (hs : s.Submitted) {n : ℕ} {phase : IssuePhase}
    {i : Issuance} (h : s.issuing[n]? = some phase) (hi : phase.issuance = some i) :
    i.Submitted :=
  hs phase (List.mem_of_getElem? h) i hi

/-- The moves of `keyStep`, whichever action makes them. -/
inductive KeyMove (argon : Argon2) (s : KeyState) : KeyState → Prop
  /-- An issuance begins. -/
  | start (i : Issuance) (hform : i.Submitted) :
      KeyMove argon s { s with issuing := s.issuing ++ [.started i] }
  /-- A check lets an issuance pass. -/
  | pass (n : ℕ) {old new : IssuePhase} {i : Issuance} (hphase : s.issuing[n]? = some old)
      (hold : old.issuance = some i) (hnew : new.issuance = some i)
      (hpending : new.pending = none) : KeyMove argon s (s.setPhase n new)
  /-- An issuance fails, at a check or for another reason. -/
  | fail (n : ℕ) : KeyMove argon s (s.setPhase n .ended)
  | insert (n : ℕ) (i : Issuance) (hphase : s.issuing[n]? = some (.prefixChecked i))
      (hfree : i.keyPrefix ∉ s.db.keys.rows.map KeyRow.keyPrefix)
      (hunique : i.keyPrefix ∉ s.pending.map Issuance.keyPrefix) :
      KeyMove argon s (s.setPhase n (.inserted i))
  | commit (n : ℕ) (i : Issuance) (hphase : s.issuing[n]? = some (.inserted i)) :
      KeyMove argon s
        { db := { s.db with keys := s.db.keys.insert (i.row argon) }
          issuing := s.issuing.set n .ended
          history := s.history ++ [.issued i.appID i.keyPrefix i.plaintext] }
  | revoke (appID keyPrefix : String) :
      KeyMove argon s { s with
        db := s.db.revokeKey appID keyPrefix
        history := s.history ++ [.revoked appID keyPrefix] }
  | purge (appID : String) :
      KeyMove argon s { s with
        db := s.db.purgeApp appID
        history := s.history ++ [.purged appID] }
  /-- At most the apps and their capabilities change. -/
  | apps (db : KeyDatabase) (hkeys : db.keys = s.db.keys) : KeyMove argon s { s with db := db }

theorem keyPrefix_notMem {db : KeyDatabase} {keyPrefix : String}
    (h : (db.keys.find? keyPrefix).isSome = false) :
    keyPrefix ∉ db.keys.rows.map KeyRow.keyPrefix := by
  intro hmem
  obtain ⟨k, hk, hkey⟩ := List.mem_map.mp hmem
  simp [Table.find?_eq_some.mpr ⟨hk, hkey⟩] at h

theorem keyStep_move {argon : Argon2} {s s' : KeyState} {a : KeyAction}
    (h : keyStep argon s a = some s') : KeyMove argon s s' := by
  have hidle : KeyMove argon s s := .apps s.db rfl
  cases a with
  | submit form random =>
      simp only [keyStep] at h
      split at h
      · cases h
        exact hidle
      · next i hi =>
          cases h
          exact .start i (submitted_of_handleKeyIssue hi)
  | checkApp n =>
      simp only [keyStep] at h
      split at h
      · next i hphase =>
          split at h
          · cases h
            split
            · exact .pass n hphase rfl rfl rfl
            · exact .fail n
          · cases h
            exact .fail n
      · cases h
  | checkPrefix n =>
      simp only [keyStep] at h
      split at h
      · next i hphase =>
          cases h
          split
          · exact .fail n
          · exact .pass n hphase rfl rfl rfl
      · cases h
  | insert n =>
      simp only [keyStep] at h
      split at h
      · next i hphase =>
          split at h
          · cases h
          · next hunique =>
              split at h
              · cases h
                exact .fail n
              · next hfree =>
                  cases h
                  simp only [Bool.or_eq_true, not_or, Bool.not_eq_true] at hfree
                  exact .insert n i hphase (keyPrefix_notMem hfree.1) (by simpa using hunique)
      · cases h
  | commit n =>
      simp only [keyStep] at h
      split at h
      · next i hphase =>
          cases h
          exact .commit n i hphase
      · cases h
  | abort n =>
      cases h
      exact .fail n
  | revoke appID keyPrefix =>
      simp only [keyStep] at h
      split at h
      · cases h
        exact .revoke appID keyPrefix
      · cases h
        exact hidle
  | createApp appID capabilities =>
      simp only [keyStep] at h
      split at h
      · cases h
        exact hidle
      · cases h
        exact .apps _ rfl
  | patchApp appID active add remove =>
      simp only [keyStep] at h
      split at h
      · cases h
        exact hidle
      · split at h
        · cases h
        · cases h
          exact .apps _ rfl
  | deleteApp appID =>
      simp only [keyStep] at h
      split at h
      · cases h
      · cases h
        exact .apps _ rfl
  | purgeApp appID =>
      simp only [keyStep] at h
      split at h
      · cases h
      · split at h
        · cases h
          exact hidle
        · cases h
          exact .purge appID

theorem KeyMove.submitted {argon : Argon2} {s s' : KeyState} (h : KeyMove argon s s')
    (hs : s.Submitted) : s'.Submitted := by
  cases h with
  | start i hform =>
      intro phase hphase
      obtain hold | hnew := List.mem_append.mp hphase
      · exact hs phase hold
      · obtain rfl := List.mem_singleton.mp hnew
        intro j hj
        obtain rfl : i = j := Option.some.inj hj
        exact hform
  | pass n hphase hold hnew _ =>
      refine submitted_setPhase hs n fun j hj => ?_
      obtain rfl := Option.some.inj (hnew.symm.trans hj)
      exact hs.issuance hphase hold
  | insert n i hphase _ _ =>
      refine submitted_setPhase hs n fun j hj => ?_
      obtain rfl : i = j := Option.some.inj hj
      exact hs.issuance hphase rfl
  | fail n | commit n => exact submitted_setPhase hs n (by simp [IssuePhase.issuance])
  | revoke | purge | apps => exact hs

theorem KeyMove.effect {argon : Argon2} {s s' : KeyState} (h : KeyMove argon s s')
    (hs : s.Submitted) : KeyEffect argon s s' := by
  cases h with
  | start i _ => exact .quiet rfl rfl (by simp [KeyState.pending, IssuePhase.pending])
  | pass n _ _ _ hpending => exact quiet_setPhase hpending
  | fail n => exact quiet_setPhase rfl
  | insert n i hphase hfree hunique =>
      exact .insert i (hs.issuance hphase rfl) rfl rfl (pending_inserted hphase rfl i) hfree hunique
  | commit n i hphase => exact .commit i rfl rfl (pending_ended hphase)
  | revoke appID keyPrefix => exact .revoke appID keyPrefix rfl rfl rfl
  | purge appID => exact .purge appID rfl rfl rfl
  | apps db hkeys => exact .quiet hkeys rfl (List.Sublist.refl _)

/-- A run, seen from the keys. -/
theorem keyEffects_of_run {argon : Argon2} {s s' : KeyState} {actions : List KeyAction}
    (hs : s.Submitted) (hrun : run (keyStep argon) s actions = some s') :
    Relation.ReflTransGen (KeyEffect argon) s s' := by
  have hfollowed : ∃ t, Relation.ReflTransGen (KeyEffect argon) s t ∧ s'.Submitted ∧ s' = t := by
    refine run_simulates (R := fun s t => s.Submitted ∧ s = t) ?_ ⟨hs, rfl⟩ hrun
    rintro s a s' _ ⟨hs, rfl⟩ hstep
    exact ⟨s', .single ((keyStep_move hstep).effect hs), (keyStep_move hstep).submitted hs, rfl⟩
  obtain ⟨t, hreach, -, rfl⟩ := hfollowed
  exact hreach

/-! ### The invariant -/

/-- The row stores the hash of the plaintext. -/
def KeyRow.Stores (argon : Argon2) (k : KeyRow) (plaintext : String) : Prop :=
  ∃ salt, k.keyHash = argon.hash salt plaintext

/-- The rows that are not revoked are the live keys. -/
structure LiveKeys (argon : Argon2) (s : KeyState) : Prop where
  distinct : (s.db.keys.rows.map KeyRow.keyPrefix ++ s.pending.map Issuance.keyPrefix).Nodup
  issued : ∀ k ∈ s.db.keys.rows, k.revoked = false →
    ∃ plaintext, k.Stores argon plaintext ∧ Live s.history k.appID k.keyPrefix plaintext
  stored : ∀ {appID keyPrefix plaintext}, Live s.history appID keyPrefix plaintext →
    parseBearer plaintext = .ok keyPrefix ∧ ∃ k ∈ s.db.keys.rows, k.appID = appID ∧
      k.keyPrefix = keyPrefix ∧ k.revoked = false ∧ k.Stores argon plaintext

structure KeyInv (argon : Argon2) (s : KeyState) : Prop extends LiveKeys argon s where
  submitted : s.Submitted

/-- Only the distinctness of the prefixes looks at the transactions in flight. -/
theorem LiveKeys.of_distinct {argon : Argon2} {s s' : KeyState} (hs : LiveKeys argon s)
    (hkeys : s'.db.keys = s.db.keys) (hhistory : s'.history = s.history)
    (hdistinct : (s.db.keys.rows.map KeyRow.keyPrefix ++
      s'.pending.map Issuance.keyPrefix).Nodup) : LiveKeys argon s' := by
  refine ⟨hkeys ▸ hdistinct, ?_, ?_⟩
  · rw [hkeys, hhistory]
    exact hs.issued
  · rw [hkeys, hhistory]
    exact hs.stored

theorem LiveKeys.commit {argon : Argon2} {s s' : KeyState} (hs : LiveKeys argon s) (i : Issuance)
    (hkeys : s'.db.keys = s.db.keys.insert (i.row argon))
    (hhistory : s'.history = s.history ++ [.issued i.appID i.keyPrefix i.plaintext])
    (hpending : s.pending.Perm (i :: s'.pending)) : LiveKeys argon s' := by
  have hdistinct : (s.db.keys.rows.map KeyRow.keyPrefix ++
      i.keyPrefix :: s'.pending.map Issuance.keyPrefix).Nodup :=
    ((hpending.map Issuance.keyPrefix).append_left _).nodup_iff.mp hs.distinct
  have hfree : (i.row argon).keyPrefix ∉ s.db.keys.rows.map KeyRow.keyPrefix :=
    fun hmem => (List.nodup_append.mp hdistinct).2.2 _ hmem _ (List.mem_cons_self ..) rfl
  have hrows : s'.db.keys.rows = s.db.keys.rows ++ [i.row argon] := by
    rw [hkeys, Table.rows_insert_of_notMem hfree]
  refine ⟨?_, ?_, ?_⟩
  · rw [hrows, List.map_append, List.append_assoc]
    exact hdistinct
  · intro k hk hrevoked
    rw [hhistory]
    rw [hrows, List.mem_append, List.mem_singleton] at hk
    obtain hk | rfl := hk
    · obtain ⟨plaintext, hstores, hlive⟩ := hs.issued k hk hrevoked
      exact ⟨plaintext, hstores, live_append_singleton.mpr (.inr ⟨hlive, by simp, by simp⟩)⟩
    · exact ⟨i.plaintext, ⟨_, rfl⟩, live_append_singleton.mpr (.inl rfl)⟩
  · intro appID keyPrefix plaintext hlive
    rw [hhistory, live_append_singleton] at hlive
    rw [hrows]
    obtain heq | ⟨hlive, -⟩ := hlive
    · obtain ⟨rfl, rfl, rfl⟩ := KeyEvent.issued.inj heq
      exact ⟨parseBearer_plaintext i, i.row argon, by simp, rfl, rfl, rfl, _, rfl⟩
    · obtain ⟨hparse, k, hk, hrest⟩ := hs.stored hlive
      exact ⟨hparse, k, List.mem_append_left _ hk, hrest⟩

theorem LiveKeys.revoke {argon : Argon2} {s s' : KeyState} (hs : LiveKeys argon s)
    {appID keyPrefix : String} (hkeys : s'.db.keys = (s.db.revokeKey appID keyPrefix).keys)
    (hhistory : s'.history = s.history ++ [.revoked appID keyPrefix])
    (hpending : s'.pending = s.pending) : LiveKeys argon s' := by
  have hrows : s'.db.keys.rows = s.db.keys.rows.map fun k =>
      if k.keyPrefix = keyPrefix ∧ k.appID = appID then { k with revoked := true } else k := by
    rw [hkeys]
    rfl
  refine ⟨?_, ?_, ?_⟩
  · have hmap : s'.db.keys.rows.map KeyRow.keyPrefix = s.db.keys.rows.map KeyRow.keyPrefix := by
      rw [hrows, List.map_map]
      refine List.map_congr_left fun k _ => ?_
      simp only [Function.comp_apply]
      split <;> rfl
    rw [hmap, hpending]
    exact hs.distinct
  · intro k' hk' hrevoked
    rw [hrows] at hk'
    obtain ⟨k, hk, rfl⟩ := List.mem_map.mp hk'
    split at hrevoked
    · cases hrevoked
    · next hother =>
        rw [if_neg hother, hhistory]
        obtain ⟨plaintext, hstores, hlive⟩ := hs.issued k hk hrevoked
        refine ⟨plaintext, hstores, live_append_singleton.mpr (.inr ⟨hlive, ?_, by simp⟩)⟩
        intro heq
        obtain ⟨rfl, rfl⟩ := KeyEvent.revoked.inj heq
        exact hother ⟨rfl, rfl⟩
  · intro appID' keyPrefix' plaintext hlive
    rw [hhistory, live_append_singleton] at hlive
    obtain heq | ⟨hlive, hne, -⟩ := hlive
    · cases heq
    · obtain ⟨hparse, k, hk, rfl, rfl, hrevoked, hstores⟩ := hs.stored hlive
      have hother : ¬(k.keyPrefix = keyPrefix ∧ k.appID = appID) := by
        rintro ⟨rfl, rfl⟩
        exact hne rfl
      refine ⟨hparse, k, ?_, rfl, rfl, hrevoked, hstores⟩
      rw [hrows]
      exact List.mem_map.mpr ⟨k, hk, if_neg hother⟩

theorem LiveKeys.purge {argon : Argon2} {s s' : KeyState} (hs : LiveKeys argon s) {appID : String}
    (hkeys : s'.db.keys = (s.db.purgeApp appID).keys)
    (hhistory : s'.history = s.history ++ [.purged appID])
    (hpending : s'.pending = s.pending) : LiveKeys argon s' := by
  have hrows : s'.db.keys.rows = s.db.keys.rows.filter fun k => k.appID ≠ appID := by
    rw [hkeys]
    rfl
  refine ⟨?_, ?_, ?_⟩
  · rw [hrows, hpending]
    exact hs.distinct.sublist ((List.filter_sublist.map _).append_right _)
  · intro k hk hrevoked
    rw [hrows] at hk
    obtain ⟨hk, happ⟩ := List.mem_filter.mp hk
    obtain ⟨plaintext, hstores, hlive⟩ := hs.issued k hk hrevoked
    rw [hhistory]
    refine ⟨plaintext, hstores, live_append_singleton.mpr (.inr ⟨hlive, by simp, ?_⟩)⟩
    intro heq
    obtain rfl := KeyEvent.purged.inj heq
    simp at happ
  · intro appID' keyPrefix plaintext hlive
    rw [hhistory, live_append_singleton] at hlive
    obtain heq | ⟨hlive, -, hne⟩ := hlive
    · cases heq
    · obtain ⟨hparse, k, hk, rfl, hrest⟩ := hs.stored hlive
      refine ⟨hparse, k, ?_, rfl, hrest⟩
      rw [hrows]
      refine List.mem_filter.mpr ⟨hk, decide_eq_true fun heq => hne ?_⟩
      rw [heq]

/-- **One step.** Whatever has this effect keeps the keys live. -/
theorem KeyEffect.liveKeys {argon : Argon2} {s s' : KeyState} (h : KeyEffect argon s s')
    (hs : LiveKeys argon s) : LiveKeys argon s' := by
  cases h with
  | quiet hkeys hhistory hpending =>
      exact hs.of_distinct hkeys hhistory
        (hs.distinct.sublist ((hpending.map _).append_left _))
  | insert i _ hkeys hhistory hpending hfree hunique =>
      refine hs.of_distinct hkeys hhistory ?_
      rw [((hpending.map Issuance.keyPrefix).append_left _).nodup_iff, List.map_cons,
        List.nodup_middle]
      exact List.nodup_cons.mpr ⟨by simp [hfree, hunique], hs.distinct⟩
  | commit i hkeys hhistory hpending => exact hs.commit i hkeys hhistory hpending
  | revoke appID keyPrefix hkeys hhistory hpending => exact hs.revoke hkeys hhistory hpending
  | purge appID hkeys hhistory hpending => exact hs.purge hkeys hhistory hpending

theorem keyInv_step {argon : Argon2} {s s' : KeyState} {a : KeyAction} (hs : KeyInv argon s)
    (h : keyStep argon s a = some s') : KeyInv argon s' :=
  ⟨((keyStep_move h).effect hs.submitted).liveKeys hs.toLiveKeys,
    (keyStep_move h).submitted hs.submitted⟩

/-! ### Resolving a token -/

def AppActive (db : KeyDatabase) (appID : String) : Prop :=
  ∃ a ∈ db.apps.rows, a.id = appID ∧ a.active = true

theorem mem_keyQuery {db : KeyDatabase} {keyPrefix : String} {row : KeyRow × AppRecord} :
    row ∈ keyQuery db keyPrefix ↔ row.1 ∈ db.keys.rows ∧ row.1.keyPrefix = keyPrefix ∧
      row.1.revoked = false ∧ row.2 ∈ db.apps.rows ∧ row.2.id = row.1.appID ∧
        row.2.active = true := by
  obtain ⟨k, a⟩ := row
  simp only [keyQuery, List.mem_flatMap, List.mem_filter, List.mem_map, Bool.and_eq_true,
    decide_eq_true_eq, Bool.not_eq_true']
  constructor
  · rintro ⟨k', ⟨hk, hprefix, hrevoked⟩, a', ⟨ha, hid, hactive⟩, heq⟩
    obtain ⟨rfl, rfl⟩ := Prod.mk.inj heq
    exact ⟨hk, hprefix, hrevoked, ha, hid, hactive⟩
  · rintro ⟨hk, hprefix, hrevoked, ha, hid, hactive⟩
    exact ⟨k, ⟨hk, hprefix, hrevoked⟩, a, ⟨ha, hid, hactive⟩, rfl⟩

/-- A token resolves to an app exactly if an unrevoked row of the app verifies it. -/
theorem resolve_eq_ok {argon : Argon2} {planner : Planner} {db : KeyDatabase}
    {bearer appID keyPrefix : String} :
    (∃ id, resolve argon planner db bearer = .ok id ∧ id.appID = appID ∧
        id.keyPrefix = keyPrefix) ↔
      parseBearer bearer = .ok keyPrefix ∧ AppActive db appID ∧
        ∃ k ∈ db.keys.rows, k.appID = appID ∧ k.keyPrefix = keyPrefix ∧ k.revoked = false ∧
          argon.verify bearer k.keyHash = some true := by
  unfold resolve
  constructor
  · rintro ⟨id, hid, rfl, rfl⟩
    split at hid
    · cases hid
    · next keyPrefix hparse =>
        split at hid
        · cases hid
        · next k a hfind =>
            cases hid
            have hverify := List.find?_some hfind
            obtain ⟨hk, hprefix, hrevoked, ha, happ, hactive⟩ := mem_keyQuery.mp
              ((planner.perm _).mem_iff.mp (List.mem_of_find?_eq_some hfind))
            exact ⟨hparse, ⟨a, ha, happ, hactive⟩, k, hk, rfl, hprefix, hrevoked,
              by simpa using hverify⟩
  · rintro ⟨hparse, ⟨a, ha, happ, hactive⟩, k, hk, rfl, hprefix, hrevoked, hverify⟩
    have hrow : (k, a) ∈ planner.arrange (keyQuery db keyPrefix) :=
      (planner.perm _).mem_iff.mpr (mem_keyQuery.mpr ⟨hk, hprefix, hrevoked, ha, happ, hactive⟩)
    simp only [hparse]
    cases hfind : (planner.arrange (keyQuery db keyPrefix)).find? fun row =>
        argon.verify bearer row.1.keyHash = some true with
    | none =>
        have hnone := List.find?_eq_none.mp hfind (k, a) hrow
        simp [hverify] at hnone
    | some row =>
        -- the prefix is unique, so whichever row was found is the row of `k`
        obtain ⟨hk', hprefix', -⟩ := mem_keyQuery.mp
          ((planner.perm _).mem_iff.mp (List.mem_of_find?_eq_some hfind))
        have hsame := db.keys.eq_of_key_eq hk' hk (hprefix'.trans hprefix.symm)
        exact ⟨_, rfl, by rw [hsame], rfl⟩

theorem keyInv_of_empty {argon : Argon2} {s : KeyState} (hkeys : s.db.keys.rows = [])
    (hissuing : s.issuing = []) (hhistory : s.history = []) : KeyInv argon s := by
  refine ⟨⟨by simp [hkeys, KeyState.pending, hissuing], by simp [hkeys], ?_⟩,
    by simp [KeyState.Submitted, hissuing]⟩
  rintro appID keyPrefix plaintext ⟨before, after, heq, -⟩
  simp [hhistory] at heq

/-- A token resolves exactly if it is the plaintext of a live key of an active app. -/
theorem exists_resolve_iff {argon : Argon2} (planner : Planner) {s : KeyState}
    (hinv : LiveKeys argon s) {bearer appID keyPrefix : String} :
    (∃ id, resolve argon planner s.db bearer = .ok id ∧ id.appID = appID ∧
        id.keyPrefix = keyPrefix) ↔
      Live s.history appID keyPrefix bearer ∧ AppActive s.db appID := by
  rw [resolve_eq_ok]
  constructor
  · rintro ⟨-, hactive, k, hk, rfl, rfl, hrevoked, hverify⟩
    obtain ⟨plaintext, ⟨salt, hhash⟩, hlive⟩ := hinv.issued k hk hrevoked
    have hsame : bearer = plaintext := by simpa [hhash, argon.verify_hash] using hverify
    exact ⟨hsame ▸ hlive, hactive⟩
  · rintro ⟨hlive, hactive⟩
    obtain ⟨hparse, k, hk, happ, hprefix, hrevoked, salt, hhash⟩ := hinv.stored hlive
    exact ⟨hparse, hactive, k, hk, happ, hprefix, hrevoked, by simp [hhash, argon.verify_hash]⟩

/-- **The life of a key.** In every state of every run that starts without keys, a
bearer token resolves to an app and a prefix exactly if it is the plaintext of a
live key with them and the app is active. -/
theorem resolve_iff_live (argon : Argon2) (planner : Planner) {s s' : KeyState}
    {actions : List KeyAction} (hkeys : s.db.keys.rows = []) (hissuing : s.issuing = [])
    (hhistory : s.history = []) (hrun : run (keyStep argon) s actions = some s')
    (bearer appID keyPrefix : String) :
    ((∃ id, resolve argon planner s'.db bearer = .ok id ∧ id.appID = appID ∧
        id.keyPrefix = keyPrefix) ↔
      Live s'.history appID keyPrefix bearer ∧ AppActive s'.db appID) ∧
    ∀ i : Issuance, parseBearer i.plaintext = .ok i.keyPrefix := by
  have hinit : KeyInv argon s := keyInv_of_empty hkeys hissuing hhistory
  have hinv : KeyInv argon s' := run_invariant (fun _ _ _ hs h => keyInv_step hs h) hinit hrun
  exact ⟨exists_resolve_iff planner hinv.toLiveKeys, parseBearer_plaintext⟩

/-- A hash that hides nothing. -/
def plainArgon : Argon2 where
  hash _ cleartext := cleartext
  verify cleartext encoded := some (decide (cleartext = encoded))
  verify_hash _ _ _ := rfl

def emptyKeyState : KeyState := ⟨⟨.empty, .empty, .empty⟩, [], []⟩

/-- An app is made and gets a key. -/
def firstKey : List KeyAction :=
  [.createApp "news" [],
    .submit ⟨"news", "news1", "first"⟩ ⟨List.replicate 24 0, [], by decide⟩,
    .checkApp 0, .checkPrefix 0, .insert 0, .commit 0]

def firstToken : String := "tg_news1_000000000000000000000000000000000000000000000000"

theorem firstKey_resolves :
    ∃ s', run (keyStep plainArgon) emptyKeyState firstKey = some s' ∧
      ∃ id, resolve plainArgon .inOrder s'.db firstToken = .ok id ∧ id.appID = "news" ∧
        id.keyPrefix = "news1" := by
  have hfinal : (run (keyStep plainArgon) emptyKeyState firstKey).map
      (fun s => (s.history, s.db.apps.rows.map fun a => (a.id, a.active))) =
        some ([.issued "news" "news1" firstToken], [("news", true)]) := by
    decide +kernel
  obtain ⟨s', hrun, heq⟩ := Option.map_eq_some_iff.mp hfinal
  obtain ⟨hhistory, happs⟩ := Prod.mk.inj heq
  have hlive : Live s'.history "news" "news1" firstToken :=
    ⟨[], [], hhistory, by simp, by simp⟩
  have hactive : AppActive s'.db "news" := by
    obtain ⟨a, ha, heq⟩ := List.mem_map.mp (happs ▸ List.mem_singleton.mpr rfl)
    obtain ⟨hid, hactive⟩ := Prod.mk.inj heq
    exact ⟨a, ha, hid, hactive⟩
  exact ⟨s', hrun, (resolve_iff_live plainArgon .inOrder rfl rfl rfl hrun firstToken "news"
    "news1").1.mpr ⟨hlive, hactive⟩⟩

end TelegramServer.Auth

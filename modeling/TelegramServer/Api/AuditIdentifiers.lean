import TelegramServer.Api.CapabilitySnapshots

/-!
What a row of the audit log denotes later on. It keeps the id of an app with the
version of its capability set, and the prefix of a key, and it outlives the app.

A purge takes away what the unique index and the version counter work with: an app
that is created again under its old id starts again at version 1, and the prefixes of
its keys are free. As long as no id and no prefix comes back after a purge, a version
denotes one capability set over the whole history and a prefix one key.
-/

namespace TelegramServer.Api

open Lib Registry Auth

/-- At both moments an app with the same version has the same capabilities. -/
def SameVersionSameSet (db₁ db₂ : AdminDatabase) : Prop :=
  ∀ a v, db₁.version a = some v → db₂.version a = some v → ∀ c, db₁.Grants a c ↔ db₂.Grants a c

def AdminEvent.issuedPrefix : AdminEvent → Option String
  | .issued _ keyPrefix => some keyPrefix
  | _ => none

/-- The prefixes of all keys there ever were: those of the start and those issued. -/
def assignedPrefixes (db : AdminDatabase) (log : List AdminEvent) : List String :=
  db.keys.keys ++ log.filterMap AdminEvent.issuedPrefix

/-- The key went with its app. -/
def PrefixPurged (log : List AdminEvent) (keyPrefix : String) : Prop :=
  ∃ a keyPrefixes, .purged a keyPrefixes ∈ log ∧ keyPrefix ∈ keyPrefixes

/-- The transaction does not bring back what the event took away. -/
def Tx.Spares (tx : Tx) : AdminEvent → Prop
  | .purged a keyPrefixes =>
      (tx.inserts = true → tx.appID ≠ a) ∧ ∀ p ∈ keyPrefixes, tx.insertsKey p = false
  | _ => True

instance (tx : Tx) (event : AdminEvent) : Decidable (tx.Spares event) := by
  cases event <;> unfold Tx.Spares <;> infer_instance

/-- No commit reuses the id of a purged app or a prefix of one of its keys. -/
def NoReuse (s : AdminState) : AdminAction → Prop
  | .commit n => ∀ tx ∈ s.txs[n]?.join, ∀ event ∈ s.log, tx.Spares event
  | _ => True

instance (s : AdminState) (action : AdminAction) : Decidable (NoReuse s action) := by
  cases action <;> unfold NoReuse <;> infer_instance

theorem NoReuse.spares {s : AdminState} {n : ℕ} {tx : Tx} {event : AdminEvent}
    (h : NoReuse s (.commit n)) (hopen : s.Open n tx) (hevent : event ∈ s.log) :
    tx.Spares event := by
  refine h tx ?_ event hevent
  rw [show s.txs[n]? = some (some tx) from hopen]
  rfl

section Events

variable {appID : String} {db : AdminDatabase} {ws : List AppWrite}

theorem event_of_not_lone (appID : String) (db : AdminDatabase) {w : AppWrite}
    (hw : w.lone = false) : w.event appID db = none ∨ w.event appID db = some (.created appID) := by
  cases w with
  | insertApp => exact .inr rfl
  | deleteApp | insertKey | revokeKey => cases hw
  | _ => exact .inl rfl

theorem events_of_not_lone (h : ∀ w ∈ ws, w.lone = false) :
    (events appID db ws).filterMap AdminEvent.issuedPrefix = [] ∧
      ∀ a ps, .purged a ps ∉ events appID db ws := by
  induction ws generalizing db with
  | nil => simp [events]
  | cons w ws ih =>
      obtain ⟨hissued, hpurged⟩ := @ih (w.apply appID db) fun w' hw' => h w' (.tail _ hw')
      obtain hnone | hcreated := event_of_not_lone appID db (h w (.head _))
      · simpa [events, hnone] using ⟨List.filterMap_eq_nil_iff.mp hissued, hpurged⟩
      · simpa [events, hcreated, AdminEvent.issuedPrefix] using
          ⟨List.filterMap_eq_nil_iff.mp hissued, hpurged⟩

theorem WellPlanned.deletes {tx : Tx} (h : WellPlanned tx.writes) (hdel : tx.deletes = true) :
    tx.writes = [.deleteApp] := by
  obtain ⟨w, hw, hwd⟩ := List.any_eq_true.mp hdel
  obtain ⟨w', -, hsingle⟩ | hall := h
  · rw [hsingle, List.mem_singleton] at hw
    subst hw
    cases w <;> simp_all [AppWrite.deletesApp]
  · have hnot := (hall w hw).1
    cases w <;> simp_all [AppWrite.lone, AppWrite.deletesApp]

end Events

/-! ### Versions -/

section Versions

variable {argon : Argon2} {planner : Planner} {s s' : AdminState} {action : AdminAction}
  {db db₁ : AdminDatabase} {a : String}

/-- Since a moment at which the app was there, with the rows `db₁`: it evolved, or it was
purged and is gone. -/
def SinceThen (a : String) (db₁ : AdminDatabase) (s : AdminState) : Prop :=
  Evolves a db₁ s.db ∨ Purged a s.log ∧ ¬s.db.HasApp a

theorem Purged.mono {log new : List AdminEvent} (h : Purged a log) : Purged a (log ++ new) := by
  obtain ⟨ps, hps⟩ := h
  exact ⟨ps, List.mem_append_left _ hps⟩

theorem sinceThen_step {actions : List AdminAction}
    (hreach : run (adminStep argon planner) (.new db) actions = some s)
    (hguard : NoReuse s action) (hstep : adminStep argon planner s action = some s')
    (h : SinceThen a db₁ s) : SinceThen a db₁ s' := by
  obtain ⟨hdb, hlog⟩ | ⟨n, tx, rfl, hopen, htodo, hdb, hlog⟩ := adminStep_rows hstep
  · rwa [SinceThen, hdb, hlog]
  rw [SinceThen, hdb, hlog]
  obtain hev | ⟨hpurged, hnone⟩ := h
  · by_cases hdel : a = tx.appID ∧ tx.deletes = true
    · obtain ⟨rfl, hdel⟩ := hdel
      obtain ⟨ps, hps⟩ := purged_of_deletes tx.appID hdel s.db
      refine .inr ⟨⟨ps, List.mem_append_right _ hps⟩, ?_⟩
      rw [Tx.view, (wellPlanned_of_run hreach hopen).deletes hdel, AdminDatabase.hasApp_iff,
        List.foldl_cons, List.foldl_nil, AppWrite.version_apply]
      simp [AppWrite.versionAfter]
    · refine .inl (hev.trans (((adminInv_of_run hreach).each hopen).evolves htodo fun ha => ?_))
      exact Bool.eq_false_iff.mpr fun h => hdel ⟨ha, h⟩
  · refine .inr ⟨hpurged.mono, fun happ => ?_⟩
    obtain hold | ⟨ha, hins⟩ := Tx.hasApp_of_view happ
    · exact hnone hold
    · obtain ⟨ps, hps⟩ := hpurged
      exact (hguard.spares hopen hps).1 hins ha.symm

theorem sameVersionSameSet_of_noReuse {before after : List AdminAction} {s₁ s₂ : AdminState}
    (hguard : Guarded (adminStep argon planner) NoReuse (.new db) (before ++ after))
    (hbefore : run (adminStep argon planner) (.new db) before = some s₁)
    (hafter : run (adminStep argon planner) s₁ after = some s₂) :
    SameVersionSameSet s₁.db s₂.db := by
  intro a v h₁ h₂
  have hinv : (∃ actions, run (adminStep argon planner) (.new db) actions = some s₂) ∧
      SinceThen a s₁.db s₂ := by
    refine run_invariant_of_guarded (I := fun s =>
      (∃ actions, run (adminStep argon planner) (.new db) actions = some s) ∧
        SinceThen a s₁.db s) ?_ ⟨⟨before, hbefore⟩, .inl .refl⟩ (hguard.of_append hbefore) hafter
    rintro s action s' ⟨⟨actions, hreach⟩, h⟩ hC hstep
    exact ⟨⟨_, run_concat hreach hstep⟩, sinceThen_step hreach hC hstep h⟩
  obtain hev | ⟨-, hnone⟩ := hinv.2
  · obtain ⟨v', hv', -, hsame⟩ := hev v h₁
    exact hsame (Option.some.inj (h₂.symm.trans hv'))
  · exact absurd ((AdminDatabase.hasApp_iff _ _).mpr (by simp [h₂])) hnone

end Versions

/-! ### Prefixes -/

/-- A prefix that a transaction has written is free, and no other one writes it. -/
def PendingFree (s : AdminState) : Prop :=
  ∀ {n tx p}, s.Open n tx → tx.insertsKey p = true →
    p ∉ s.db.keys.keys ∧ ∀ {m t}, m ≠ n → s.Open m t → t.insertsKey p = false

/-- The prefixes assigned so far are different, and each is taken or was purged. -/
structure PrefixInv (db : AdminDatabase) (s : AdminState) : Prop where
  nodup : (assignedPrefixes db s.log).Nodup
  kept : ∀ p ∈ assignedPrefixes db s.log, p ∈ s.db.keys.keys ∨ PrefixPurged s.log p

section Prefixes

variable {argon : Argon2} {planner : Planner} {s s' : AdminState} {action : AdminAction}
  {db : AdminDatabase}

theorem pendingFree_step (h : PendingFree s) (hstep : adminStep argon planner s action = some s') :
    PendingFree s' := by
  intro k tx p hk hp
  cases adminStep_effect hstep with
  | quiet hdb htxs =>
      simp only [AdminState.Open, htxs, hdb] at hk ⊢
      exact h hk hp
  | start tx' htx' hdb htxs =>
      have hnone : tx'.insertsKey p = false := by simp [Tx.insertsKey, htx'.writes_eq_nil]
      obtain ⟨-, rfl⟩ | ⟨-, hk⟩ := open_of_append htxs hk
      · simp [hnone] at hp
      · rw [hdb]
        refine ⟨(h hk hp).1, fun hne hm => ?_⟩
        obtain ⟨-, rfl⟩ | ⟨-, hm⟩ := open_of_append htxs hm
        · exact hnone
        · exact (h hk hp).2 hne hm
  | finish m hdb htxs =>
      rw [hdb]
      have hk := (open_of_set_none htxs hk).2
      exact ⟨(h hk hp).1, fun hne hm => (h hk hp).2 hne (open_of_set_none htxs hm).2⟩
  | commit m tx' _ hopen _ hdb htxs =>
      obtain ⟨hne, hk⟩ := open_of_set_none htxs hk
      refine ⟨fun hmem => ?_, fun hne hm => (h hk hp).2 hne (open_of_set_none htxs hm).2⟩
      rw [hdb] at hmem
      obtain hold | hnew := Tx.mem_keys_view hmem
      · exact (h hk hp).1 hold
      · rw [(h hk hp).2 (Ne.symm hne) hopen] at hnew
        cases hnew
  | exec n tx' stmt todo ws lock hopen _ hexec hdb htxs =>
      rw [hdb]
      obtain ⟨rfl, rfl⟩ | ⟨hkn, hk⟩ := open_of_set_some htxs hk
      · rw [Tx.insertsKey_after, Bool.or_eq_true] at hp
        have hfree : p ∉ s.db.keys.keys ∧ ∀ {m t}, m ≠ k → s.Open m t → t.insertsKey p = false := by
          obtain hold | hnew := hp
          · exact h hopen hold
          · obtain ⟨hkeys, hothers⟩ := hexec.newPrefix hnew
            exact ⟨hkeys, fun hne hm => hothers _ (mem_others.mpr ⟨_, hne, hm⟩)⟩
        refine ⟨hfree.1, fun hne hm => ?_⟩
        obtain ⟨rfl, -⟩ | ⟨-, hm⟩ := open_of_set_some htxs hm
        · exact absurd rfl hne
        · exact hfree.2 hne hm
      · refine ⟨(h hk hp).1, fun hne hm => ?_⟩
        obtain ⟨rfl, rfl⟩ | ⟨-, hm⟩ := open_of_set_some htxs hm
        · rw [Tx.insertsKey_after, (h hk hp).2 hne hopen, Bool.false_or]
          -- the statement would have waited for the prefix
          refine Bool.eq_false_iff.mpr fun hnew => ?_
          have := (hexec.newPrefix hnew).2 tx (mem_others.mpr ⟨k, hkn, hk⟩)
          simp [hp] at this
        · exact (h hk hp).2 hne hm

theorem pendingFree_of_run {actions : List AdminAction}
    (hrun : run (adminStep argon planner) (.new db) actions = some s) : PendingFree s := by
  refine run_invariant (I := PendingFree) (fun _ _ _ h hstep => pendingFree_step h hstep) ?_ hrun
  intro n tx p hn
  simp [AdminState.Open, AdminState.new] at hn

theorem PrefixPurged.mono {log new : List AdminEvent} {p : String} (h : PrefixPurged log p) :
    PrefixPurged (log ++ new) p := by
  obtain ⟨a, ps, hmem, hp⟩ := h
  exact ⟨a, ps, List.mem_append_left _ hmem, hp⟩

/-- The purge of an app: each of its prefixes is in the event, the others stay. -/
theorem mem_keys_or_purged {appID p : String} {db : AdminDatabase} {log : List AdminEvent}
    (hp : p ∈ db.keys.keys) :
    p ∈ (db.deleteApp appID).keys.keys ∨
      PrefixPurged (log ++ events appID db [.deleteApp]) p := by
  obtain ⟨k, hk, rfl⟩ := List.mem_map.mp hp
  by_cases happ : k.appID = appID
  · refine .inr ⟨appID, _, List.mem_append_right _ List.mem_cons_self, ?_⟩
    exact List.mem_map.mpr ⟨k, List.mem_filter.mpr ⟨hk, by simpa using happ⟩, rfl⟩
  · exact .inl (List.mem_map.mpr ⟨k, List.mem_filter.mpr ⟨hk, by simpa using happ⟩, rfl⟩)

theorem prefixInv_step {actions : List AdminAction}
    (hreach : run (adminStep argon planner) (.new db) actions = some s)
    (hguard : NoReuse s action) (hstep : adminStep argon planner s action = some s')
    (h : PrefixInv db s) : PrefixInv db s' := by
  obtain ⟨hdb, hlog⟩ | ⟨n, tx, rfl, hopen, htodo, hdb, hlog⟩ := adminStep_rows hstep
  · exact ⟨by rw [hlog]; exact h.nodup, by rw [hlog, hdb]; exact h.kept⟩
  have hassigned : assignedPrefixes db s'.log = assignedPrefixes db s.log ++
      (events tx.appID s.db tx.writes).filterMap AdminEvent.issuedPrefix := by
    rw [assignedPrefixes, hlog, List.filterMap_append, ← List.append_assoc, assignedPrefixes]
  obtain ⟨w, hlone, hwrites⟩ | hall := wellPlanned_of_run hreach hopen
  · cases w with
    | deleteApp =>
        rw [hwrites] at hassigned hlog
        have hsame : assignedPrefixes db s'.log = assignedPrefixes db s.log := by
          rw [hassigned]
          exact List.append_nil _
        refine ⟨hsame ▸ h.nodup, fun p hp => ?_⟩
        rw [hdb, Tx.view, hwrites, hlog]
        obtain hkey | hpurged := h.kept p (hsame ▸ hp)
        · exact mem_keys_or_purged hkey
        · exact .inr hpurged.mono
    | insertKey keyHash keyPrefix label =>
        have hins : tx.insertsKey keyPrefix = true := by
          simp [Tx.insertsKey, hwrites, AppWrite.newPrefix]
        have happ : s.db.HasApp tx.appID := by
          have hpresent := ((adminInv_of_run hreach).each hopen).present
          simpa [Tx.refers, Tx.inserts, hwrites, AppWrite.refers, AppWrite.insertsApp]
            using hpresent
        have hkeys : ∀ p, p ∈ s'.db.keys.keys ↔ p ∈ s.db.keys.keys ∨ p = keyPrefix := by
          intro p
          simp only [hdb, Tx.view, hwrites, List.foldl_cons, List.foldl_nil, AppWrite.apply,
            AdminDatabase.insertKey, happ, dif_pos]
          exact Table.mem_keys_insert_iff
        have hassigned : assignedPrefixes db s'.log = assignedPrefixes db s.log ++ [keyPrefix] := by
          rw [hassigned, hwrites]
          rfl
        -- the prefix is not taken, and no purge has made it free
        have hnew : keyPrefix ∉ assignedPrefixes db s.log := by
          intro hmem
          obtain hkey | ⟨a, ps, hps, hp⟩ := h.kept keyPrefix hmem
          · exact (pendingFree_of_run hreach hopen hins).1 hkey
          · have hnot := (hguard.spares hopen hps).2 keyPrefix hp
            simp [hins] at hnot
        constructor
        · rw [hassigned, ← List.concat_eq_append]
          exact h.nodup.concat hnew
        · intro p hp
          rw [hkeys]
          rw [hassigned, List.mem_append, List.mem_singleton] at hp
          obtain hold | rfl := hp
          · obtain hkey | hpurged := h.kept p hold
            · exact .inl (.inl hkey)
            · exact .inr (hlog ▸ hpurged.mono)
          · exact .inl (.inr rfl)
    | revokeKey keyPrefix =>
        have hsame : assignedPrefixes db s'.log = assignedPrefixes db s.log := by
          rw [hassigned, hwrites]
          exact List.append_nil _
        refine ⟨hsame ▸ h.nodup, fun p hp => ?_⟩
        rw [hdb, Tx.view, hwrites, List.foldl_cons, List.foldl_nil, AppWrite.keys_apply_revokeKey,
          hlog]
        exact (h.kept p (hsame ▸ hp)).imp_right PrefixPurged.mono
    | _ => cases hlone
  · have hnot : ∀ w ∈ tx.writes, w.lone = false := fun w hw => (hall w hw).1
    rw [(events_of_not_lone hnot).1, List.append_nil] at hassigned
    refine ⟨hassigned ▸ h.nodup, fun p hp => ?_⟩
    rw [hdb, Tx.keys_view_of_not_lone hnot, hlog]
    exact (h.kept p (hassigned ▸ hp)).imp_right PrefixPurged.mono

theorem nodup_assignedPrefixes_of_noReuse {actions : List AdminAction}
    (hguard : Guarded (adminStep argon planner) NoReuse (.new db) actions)
    (hrun : run (adminStep argon planner) (.new db) actions = some s) :
    (assignedPrefixes db s.log).Nodup := by
  have hinit : PrefixInv db (.new db) := by
    have hassigned : assignedPrefixes db [] = db.keys.keys := List.append_nil _
    exact ⟨by rw [AdminState.new, hassigned]; exact db.keys.nodup,
      fun p hp => .inl (hassigned ▸ hp)⟩
  have hinv : (∃ actions, run (adminStep argon planner) (.new db) actions = some s) ∧
      PrefixInv db s := by
    refine run_invariant_of_guarded (I := fun s =>
      (∃ actions, run (adminStep argon planner) (.new db) actions = some s) ∧ PrefixInv db s)
      ?_ ⟨⟨[], rfl⟩, hinit⟩ hguard hrun
    rintro s action s' ⟨⟨actions, hreach⟩, h⟩ hC hstep
    exact ⟨⟨_, run_concat hreach hstep⟩, prefixInv_step hreach hC hstep h⟩
  exact hinv.2.nodup

/-- Over a run in which nothing comes back after a purge, an app id with a version
denotes one capability set and a prefix denotes one key. -/
theorem auditIdentifiers_of_noReuse (argon : Argon2) (planner : Planner) (db : AdminDatabase)
    {before after : List AdminAction} {s₁ s₂ : AdminState}
    (hguard : Guarded (adminStep argon planner) NoReuse (.new db) (before ++ after))
    (hbefore : run (adminStep argon planner) (.new db) before = some s₁)
    (hafter : run (adminStep argon planner) s₁ after = some s₂) :
    SameVersionSameSet s₁.db s₂.db ∧ (assignedPrefixes db s₂.log).Nodup :=
  ⟨sameVersionSameSet_of_noReuse hguard hbefore hafter,
    nodup_assignedPrefixes_of_noReuse hguard (run_append_eq_some.mpr ⟨s₁, hbefore, hafter⟩)⟩

end Prefixes

/-- The app `appID` is created with one capability and gets a key; these are the
transactions `n` and `n + 1`. -/
def createWithKey (n : ℕ) (appID keyPrefix : String) (c : Capability) : List AdminAction :=
  [.create "" (some { id := appID, name := appID, capabilities := [c] }),
    .exec n, .exec n, .commit n,
    .issueKey ⟨appID, keyPrefix, ""⟩ zeroRandomness,
    .exec (n + 1), .exec (n + 1), .exec (n + 1), .commit (n + 1)]

/-- An app is purged and another one is created, with a key. -/
def purgeThenCreate (appID keyPrefix : String) : List AdminAction :=
  [.purge "news", .exec 2, .exec 2, .commit 2] ++
    createWithKey 3 appID keyPrefix "noop.invoke"

theorem freshIds_unambiguous :
    ∃ s₁ s₂,
      run (adminStep plainArgon .inOrder) (.new .empty)
        (createWithKey 0 "news" "news1" "messages.direct.send") = some s₁ ∧
      run (adminStep plainArgon .inOrder) s₁ (purgeThenCreate "news2" "news2") = some s₂ ∧
      assignedPrefixes .empty s₂.log = ["news1", "news2"] ∧
      SameVersionSameSet s₁.db s₂.db ∧ (assignedPrefixes .empty s₂.log).Nodup := by
  have hfinal : (run (adminStep plainArgon .inOrder) (.new .empty)
      (createWithKey 0 "news" "news1" "messages.direct.send" ++
        purgeThenCreate "news2" "news2")).map (fun s => assignedPrefixes .empty s.log) =
      some ["news1", "news2"] := by
    decide +kernel
  have hguard : Guarded (adminStep plainArgon .inOrder) NoReuse (.new .empty)
      (createWithKey 0 "news" "news1" "messages.direct.send" ++
        purgeThenCreate "news2" "news2") := by
    decide +kernel
  obtain ⟨s₂, hrun, hprefixes⟩ := Option.map_eq_some_iff.mp hfinal
  obtain ⟨s₁, hbefore, hafter⟩ := run_append_eq_some.mp hrun
  exact ⟨s₁, s₂, hbefore, hafter, hprefixes,
    auditIdentifiers_of_noReuse plainArgon .inOrder .empty hguard hbefore hafter⟩

/-- The version of the app and its only capability. -/
def newsRow (s : AdminState) : Option ℤ × List (String × Capability) :=
  (s.db.version "news", s.db.capabilities.keys)

/-- The id and the prefix come back after the purge: version 1 of the app denotes two
capability sets, and the prefix two keys. -/
theorem purgedIds_ambiguous :
    ∃ s₁ s₂,
      run (adminStep plainArgon .inOrder) (.new .empty)
        (createWithKey 0 "news" "news1" "messages.direct.send") = some s₁ ∧
      run (adminStep plainArgon .inOrder) s₁ (purgeThenCreate "news" "news1") = some s₂ ∧
      ¬SameVersionSameSet s₁.db s₂.db ∧ ¬(assignedPrefixes .empty s₂.log).Nodup := by
  have hfirst : (run (adminStep plainArgon .inOrder) (.new .empty)
      (createWithKey 0 "news" "news1" "messages.direct.send")).map newsRow =
      some (some 1, [("news", "messages.direct.send")]) := by
    decide +kernel
  have hfinal : (run (adminStep plainArgon .inOrder) (.new .empty)
      (createWithKey 0 "news" "news1" "messages.direct.send" ++
        purgeThenCreate "news" "news1")).map
      (fun s => (newsRow s, assignedPrefixes .empty s.log)) =
      some ((some 1, [("news", "noop.invoke")]), ["news1", "news1"]) := by
    decide +kernel
  obtain ⟨s₁, hbefore, hrow₁⟩ := Option.map_eq_some_iff.mp hfirst
  obtain ⟨s₂, hrun, heq⟩ := Option.map_eq_some_iff.mp hfinal
  obtain ⟨s₁', hbefore', hafter⟩ := run_append_eq_some.mp hrun
  obtain rfl : s₁ = s₁' := Option.some.inj (hbefore.symm.trans hbefore')
  simp only [newsRow, Prod.mk.injEq] at hrow₁ heq
  obtain ⟨hver₁, hcaps₁⟩ := hrow₁
  obtain ⟨⟨hver₂, hcaps₂⟩, hprefixes⟩ := heq
  refine ⟨s₁, s₂, hbefore, hafter, fun hsame => ?_, by rw [hprefixes]; decide⟩
  have hiff := hsame "news" 1 hver₁ hver₂ "noop.invoke"
  simp [AdminDatabase.Grants, hcaps₁, hcaps₂] at hiff

end TelegramServer.Api

import TelegramServer.Api.AppInvariant
import TelegramServer.Auth.KeyLifecycle

/-!
What `Resolve` returns is the state of the app at one moment, and the version of the
capability set stands for the set. `Resolve` runs two queries with any number of
commits between them; both read the snapshot of the first. A commit that changes the
capabilities of an app bumps its version, so that between two snapshots with no purge
of the app in between the version does not go down, and stays the same only if the
capabilities do.
-/

namespace TelegramServer.Api

open Lib Registry Auth

/-! ### From one committed state to a later one -/

/-- The app is still there, with a version that is no lower, and with the same
capabilities if the version is the same. -/
def Evolves (a : String) (db db' : AdminDatabase) : Prop :=
  ∀ v, db.version a = some v → ∃ v', db'.version a = some v' ∧ v ≤ v' ∧
    (v = v' → ∀ c, db.Grants a c ↔ db'.Grants a c)

/-- The app was purged. -/
def Purged (a : String) (log : List AdminEvent) : Prop := ∃ keyPrefixes, .purged a keyPrefixes ∈ log

section Evolves

variable {argon : Argon2} {planner : Planner} {a : String} {db db₁ db₂ db₃ : AdminDatabase}
  {tx : Tx} {s s' : AdminState}

theorem Evolves.refl : Evolves a db db := fun v hv => ⟨v, hv, le_rfl, fun _ _ => .rfl⟩

theorem Evolves.trans (h : Evolves a db₁ db₂) (h' : Evolves a db₂ db₃) : Evolves a db₁ db₃ := by
  intro v hv
  obtain ⟨v', hv', hle, heq⟩ := h v hv
  obtain ⟨v'', hv'', hle', heq'⟩ := h' v' hv'
  refine ⟨v'', hv'', hle.trans hle', fun hsame c => ?_⟩
  have hmid : v = v' := le_antisymm hle (hsame ▸ hle')
  exact (heq hmid c).trans (heq' (hmid.symm.trans hsame) c)

theorem TxInv.evolves (h : TxInv db tx) (htodo : tx.todo = [])
    (hdel : a = tx.appID → tx.deletes = false) : Evolves a db (tx.view db) := by
  intro v hv
  by_cases ha : a = tx.appID
  · subst ha
    have hins : tx.inserts = false := Bool.eq_false_iff.mpr fun hins =>
      h.fresh hins ((AdminDatabase.hasApp_iff _ _).mpr (by simp [hv]))
    refine ⟨v + tx.writes.countP AppWrite.bumps, ?_, by omega, fun hsame c => ?_⟩
    · rw [Tx.version_view, hv, AppWrite.foldl_versionAfter (hdel rfl)]
    · -- without a bump no statement has changed the capabilities
      have hquiet : tx.changesCapabilities = false := by
        refine Bool.eq_false_iff.mpr fun hchange => ?_
        have hbump : .bumpVersion ∈ tx.writes := by
          simpa [hins, htodo] using h.bumped hchange
        have hpos : 0 < tx.writes.countP AppWrite.bumps :=
          List.countP_pos_iff.mpr ⟨_, hbump, rfl⟩
        omega
      exact (Tx.grants_view_of_quiet hquiet (hdel rfl)).symm
  · exact ⟨v, (Tx.version_view_of_ne ha).trans hv, le_rfl,
      fun _ c => (Tx.grants_view_of_ne ha).symm⟩

theorem purged_of_deletes (appID : String) {ws : List AppWrite}
    (h : ws.any AppWrite.deletesApp = true) (db : AdminDatabase) :
    Purged appID (events appID db ws) := by
  induction ws generalizing db with
  | nil => simp at h
  | cons w ws ih =>
      rw [List.any_cons, Bool.or_eq_true] at h
      obtain hw | hws := h
      · cases w <;> simp_all [AppWrite.deletesApp]
        exact ⟨_, List.mem_append_left _ (Option.mem_toList.mpr rfl)⟩
      · obtain ⟨keyPrefixes, hmem⟩ := ih hws (w.apply appID db)
        exact ⟨keyPrefixes, List.mem_append_right _ hmem⟩

/-- A step only adds to the log, and keeps the app unless it logs its purge. -/
theorem adminStep_evolves {action : AdminAction} (h : AdminInv s)
    (hstep : adminStep argon planner s action = some s') :
    ∃ new, s'.log = s.log ++ new ∧ (¬Purged a new → Evolves a s.db s'.db) := by
  obtain ⟨hdb, hlog⟩ | ⟨n, tx, -, hopen, htodo, hdb, hlog⟩ := adminStep_rows hstep
  · exact ⟨[], by simp [hlog], fun _ => hdb ▸ .refl⟩
  · refine ⟨_, hlog, fun hnot => hdb ▸ (h.each hopen).evolves htodo fun ha => ?_⟩
    exact Bool.eq_false_iff.mpr fun hdel => hnot (ha ▸ purged_of_deletes tx.appID hdel s.db)

theorem run_evolves {actions : List AdminAction} (h : AdminInv s)
    (hrun : run (adminStep argon planner) s actions = some s') :
    ∃ new, s'.log = s.log ++ new ∧ (¬Purged a new → Evolves a s.db s'.db) := by
  suffices hinv : AdminInv s' ∧ ∃ new, s'.log = s.log ++ new ∧
      (¬Purged a new → Evolves a s.db s'.db) from hinv.2
  refine run_invariant (I := fun s' => AdminInv s' ∧ ∃ new, s'.log = s.log ++ new ∧
    (¬Purged a new → Evolves a s.db s'.db)) ?_ ⟨h, [], by simp, fun _ => .refl⟩ hrun
  rintro s₁ action s₂ ⟨hinv, new, hlog, hev⟩ hstep
  refine ⟨(adminStep_effect hstep).adminInv hinv, ?_⟩
  obtain ⟨new', hlog', hev'⟩ := adminStep_evolves (a := a) hinv hstep
  refine ⟨new ++ new', by rw [hlog', hlog, List.append_assoc], fun hnot => ?_⟩
  refine (hev fun ⟨ps, hps⟩ => hnot ⟨ps, ?_⟩).trans (hev' fun ⟨ps, hps⟩ => hnot ⟨ps, ?_⟩)
  · exact List.mem_append_left _ hps
  · exact List.mem_append_right _ hps

end Evolves

/-! ### What `Resolve` returns -/

/-- The identity is that of an active app and an unrevoked key in `db`. -/
structure IdentityIn (db : AdminDatabase) (id : RequesterIdentity) : Prop where
  key : ∃ k ∈ db.keys.rows, k.appID = id.appID ∧ k.keyPrefix = id.keyPrefix ∧ k.revoked = false
  app : ∃ row, db.apps.find? id.appID = some row ∧ row.active = true ∧
    row.capabilitySetVersion = id.capabilitySetVer
  capabilities : ∀ c, c ∈ id.capabilities ↔ db.Grants id.appID c

/-- What a step does to the calls of `Resolve`. -/
inductive ResolveEffect (s : AdminState) (action : AdminAction) (s' : AdminState) : Prop
  | other (hresolving : s'.resolving = s.resolving) (hresolved : s'.resolved = s.resolved)
  | begun (keyPrefix bearer : String)
      (hresolving : s'.resolving = s.resolving ++ [.begun keyPrefix bearer])
      (hresolved : s'.resolved = s.resolved)
  | missed (n : ℕ) (hresolving : s'.resolving = s.resolving.set n .ended)
      (hresolved : s'.resolved = s.resolved)
  | found (n : ℕ) (keyPrefix : String) (row : KeyRow × AppRecord)
      (haction : action = .lookupKey n) (hrow : row ∈ keyQuery s.db.keyView keyPrefix)
      (hresolving : s'.resolving = s.resolving.set n (.matched s.db keyPrefix row))
      (hresolved : s'.resolved = s.resolved)
  | loaded (n : ℕ) (snapshot : AdminDatabase) (keyPrefix : String) (row : KeyRow × AppRecord)
      (hphase : s.resolving[n]? = some (.matched snapshot keyPrefix row))
      (hresolving : s'.resolving = s.resolving.set n .ended)
      (hresolved : s'.resolved = s.resolved ++
        [{ appID := row.1.appID
           capabilities := loadCapabilitiesTx snapshot.keyView row.1.appID
           capabilitySetVer := row.2.capabilitySetVersion
           keyPrefix := keyPrefix }])

section Resolve

variable {argon : Argon2} {planner : Planner} {s s' : AdminState} {action : AdminAction}
  {db : AdminDatabase}

theorem adminStep_resolveEffect (h : adminStep argon planner s action = some s') :
    ResolveEffect s action s' := by
  cases adminStep_move h with
  | refuse | start | exec | finish | commit => exact .other rfl rfl
  | resolve keyPrefix bearer => exact .begun keyPrefix bearer rfl rfl
  | miss n => exact .missed n rfl rfl
  | found n keyPrefix row hrow => exact .found n keyPrefix row rfl hrow rfl rfl
  | load n snapshot keyPrefix row hphase =>
      exact .loaded n snapshot keyPrefix row hphase rfl rfl

theorem mem_loadCapabilitiesTx {appID : String} {c : Capability} :
    c ∈ loadCapabilitiesTx db.keyView appID ↔ db.Grants appID c := by
  simp only [loadCapabilitiesTx, AdminDatabase.keyView, AdminDatabase.Grants, Table.keys,
    AppCapability.key, List.mem_map, List.mem_filter, decide_eq_true_eq, Prod.mk.injEq, and_assoc]

/-- A row of the key lookup, with the capabilities of the same state, is an identity of
that state. -/
theorem identityIn_of_mem_keyQuery {keyPrefix : String} {row : KeyRow × AppRecord}
    (h : row ∈ keyQuery db.keyView keyPrefix) :
    IdentityIn db
      { appID := row.1.appID
        capabilities := loadCapabilitiesTx db.keyView row.1.appID
        capabilitySetVer := row.2.capabilitySetVersion
        keyPrefix := keyPrefix } := by
  simp only [keyQuery, AdminDatabase.keyView, Table.map, List.mem_flatMap, List.mem_filter,
    List.mem_map, Bool.and_eq_true, decide_eq_true_eq, Bool.not_eq_true'] at h
  obtain ⟨k, ⟨hk, hprefix, hrevoked⟩, a, ⟨⟨entry, hentry, rfl⟩, hid, hactive⟩, rfl⟩ := h
  exact
    { key := ⟨k, hk, rfl, hprefix, hrevoked⟩
      app := ⟨entry, Table.find?_eq_some.mpr ⟨hentry, hid⟩, hactive, rfl⟩
      capabilities := fun c => mem_loadCapabilitiesTx }

/-- The identity was read in the state in which one of the key lookups ran. -/
def ReadAlong (argon : Argon2) (planner : Planner) (db : AdminDatabase)
    (actions : List AdminAction) (holds : AdminDatabase → Prop) : Prop :=
  ∃ before n rest s, actions = before ++ .lookupKey n :: rest ∧
    run (adminStep argon planner) (.new db) before = some s ∧ holds s.db

theorem ReadAlong.concat {actions : List AdminAction} {holds : AdminDatabase → Prop}
    (h : ReadAlong argon planner db actions holds) :
    ReadAlong argon planner db (actions ++ [action]) holds := by
  obtain ⟨before, n, rest, s, rfl, hrun, hs⟩ := h
  exact ⟨before, n, rest ++ [action], s, by simp, hrun, hs⟩

theorem resolved_readAlong {actions : List AdminAction}
    (hrun : run (adminStep argon planner) (.new db) actions = some s) :
    ∀ id ∈ s.resolved, ReadAlong argon planner db actions fun db' => IdentityIn db' id := by
  -- a call that has found its key carries the snapshot of a lookup
  suffices h :
      (∀ id ∈ s.resolved, ReadAlong argon planner db actions fun db' => IdentityIn db' id) ∧
      ∀ snapshot keyPrefix row, .matched snapshot keyPrefix row ∈ s.resolving →
        ReadAlong argon planner db actions fun db' =>
          db' = snapshot ∧ row ∈ keyQuery snapshot.keyView keyPrefix from h.1
  refine run_history (I := fun actions s =>
    (∀ id ∈ s.resolved, ReadAlong argon planner db actions fun db' => IdentityIn db' id) ∧
      ∀ snapshot keyPrefix row, .matched snapshot keyPrefix row ∈ s.resolving →
        ReadAlong argon planner db actions fun db' =>
          db' = snapshot ∧ row ∈ keyQuery snapshot.keyView keyPrefix) ?_ ?_ hrun
  · simp [AdminState.new]
  · rintro as s₁ action s₂ hrun₁ ⟨hids, hphases⟩ hstep
    cases adminStep_resolveEffect hstep with
    | other hresolving hresolved =>
        rw [hresolving, hresolved]
        exact ⟨fun id hid => (hids id hid).concat,
          fun snapshot keyPrefix row h => (hphases snapshot keyPrefix row h).concat⟩
    | begun keyPrefix' bearer hresolving hresolved =>
        rw [hresolving, hresolved]
        refine ⟨fun id hid => (hids id hid).concat, fun snapshot keyPrefix row h => ?_⟩
        have hold : .matched snapshot keyPrefix row ∈ s₁.resolving := by simpa using h
        exact (hphases snapshot keyPrefix row hold).concat
    | missed n hresolving hresolved =>
        rw [hresolving, hresolved]
        refine ⟨fun id hid => (hids id hid).concat, fun snapshot keyPrefix row h => ?_⟩
        have hold := (List.mem_or_eq_of_mem_set h).resolve_right (by simp)
        exact (hphases snapshot keyPrefix row hold).concat
    | found n keyPrefix' row' haction hrow hresolving hresolved =>
        rw [hresolving, hresolved]
        refine ⟨fun id hid => (hids id hid).concat, fun snapshot keyPrefix row h => ?_⟩
        obtain hold | hnew := List.mem_or_eq_of_mem_set h
        · exact (hphases snapshot keyPrefix row hold).concat
        · obtain ⟨rfl, rfl, rfl⟩ := ResolvePhase.matched.inj hnew
          exact ⟨as, n, [], s₁, by rw [haction], hrun₁, rfl, hrow⟩
    | loaded n snapshot' keyPrefix' row' hphase hresolving hresolved =>
        rw [hresolving, hresolved]
        refine ⟨fun id hid => ?_, fun snapshot keyPrefix row h => ?_⟩
        · obtain hold | hnew := List.mem_append.mp hid
          · exact (hids id hold).concat
          · obtain rfl := List.mem_singleton.mp hnew
            have hmem : .matched snapshot' keyPrefix' row' ∈ s₁.resolving :=
              List.mem_of_getElem? hphase
            obtain ⟨before, m, rest, s₀, rfl, hrun₀, rfl, hrow⟩ := hphases _ _ _ hmem
            exact ReadAlong.concat
              ⟨before, m, rest, s₀, rfl, hrun₀, identityIn_of_mem_keyQuery hrow⟩
        · have hold := (List.mem_or_eq_of_mem_set h).resolve_right (by simp)
          exact (hphases snapshot keyPrefix row hold).concat

theorem IdentityIn.version {id : RequesterIdentity} (h : IdentityIn db id) :
    db.version id.appID = some id.capabilitySetVer := by
  obtain ⟨row, hrow, -, hver⟩ := h.app
  rw [AdminDatabase.version, hrow, Option.map_some, hver]

/-- Every identity that `Resolve` returns is that of a single committed state, the one
its key lookup ran in. Of two identities of an app, read in the order of the run with
no purge of the app in between, the later one has no lower version, and the same
capabilities if it has the same version. -/
theorem resolved_consistent (argon : Argon2) (planner : Planner) (db : AdminDatabase)
    {before after : List AdminAction} {s₁ s₂ : AdminState}
    (hbefore : run (adminStep argon planner) (.new db) before = some s₁)
    (hafter : run (adminStep argon planner) s₁ after = some s₂) :
    (∀ id ∈ s₂.resolved,
      ReadAlong argon planner db (before ++ after) fun db' => IdentityIn db' id) ∧
    ∀ id₁ id₂, IdentityIn s₁.db id₁ → IdentityIn s₂.db id₂ → id₁.appID = id₂.appID →
      ¬Purged id₁.appID (s₂.log.drop s₁.log.length) →
      id₁.capabilitySetVer ≤ id₂.capabilitySetVer ∧
      (id₁.capabilitySetVer = id₂.capabilitySetVer →
        ∀ c, c ∈ id₁.capabilities ↔ c ∈ id₂.capabilities) := by
  constructor
  · exact resolved_readAlong (run_append_eq_some.mpr ⟨s₁, hbefore, hafter⟩)
  · intro id₁ id₂ h₁ h₂ happ hpurge
    obtain ⟨new, hlog, hev⟩ := run_evolves (a := id₁.appID) (adminInv_of_run hbefore) hafter
    rw [hlog, List.drop_left] at hpurge
    obtain ⟨v, hv, hle, hsame⟩ := hev hpurge _ h₁.version
    obtain rfl : v = id₂.capabilitySetVer := by
      rw [happ, h₂.version] at hv
      exact (Option.some.inj hv).symm
    refine ⟨hle, fun heq c => ?_⟩
    rw [h₁.capabilities, h₂.capabilities, hsame heq c, happ]

end Resolve

/-- A secret of zeros. -/
def zeroRandomness : Randomness := ⟨List.replicate 24 0, [], rfl⟩

/-- An app with one capability and a key, which is looked up. -/
def newsLookup : List AdminAction :=
  [.create "" (some { id := "news", name := "News", capabilities := ["messages.direct.send"] }),
    .exec 0, .exec 0, .commit 0,
    .issueKey ⟨"news", "news1", "first"⟩ zeroRandomness,
    .exec 1, .exec 1, .exec 1, .commit 1, .resolve firstToken, .lookupKey 0]

/-- Before the capabilities are loaded, the app gets another one; then the key is
resolved again. -/
def newsPatch : List AdminAction :=
  [.patch "news" (some { addCapabilities := ["noop.invoke"] }), .exec 2, .exec 2, .exec 2, .exec 2,
    .commit 2, .loadCapabilities 0, .resolve firstToken, .lookupKey 1, .loadCapabilities 1]

def newsIdentity (version : ℤ) (capabilities : List Capability) : RequesterIdentity where
  appID := "news"
  capabilities := capabilities
  capabilitySetVer := version
  keyPrefix := "news1"

/-- What a lookup of the first key finds in a state. -/
def newsFound (s : AdminState) : Option (String × List Capability × ℤ) :=
  (lookupKey plainArgon .inOrder s.db.keyView "news1" firstToken).map fun row =>
    (row.1.appID, loadCapabilitiesTx s.db.keyView row.1.appID, row.2.capabilitySetVersion)

theorem identityIn_of_newsFound {s : AdminState} {version : ℤ} {caps : List Capability}
    (h : newsFound s = some ("news", caps, version)) :
    IdentityIn s.db (newsIdentity version caps) := by
  obtain ⟨row, hrow, heq⟩ := Option.map_eq_some_iff.mp h
  have hid := identityIn_of_mem_keyQuery (lookupKey_mem hrow)
  simp only [Prod.mk.injEq] at heq
  obtain ⟨happ, hcaps, hver⟩ := heq
  rwa [happ, hver, ← happ, hcaps, happ] at hid

theorem newsPatch_consistent :
    ∃ s₁ s₂, run (adminStep plainArgon .inOrder) (.new .empty) newsLookup = some s₁ ∧
      run (adminStep plainArgon .inOrder) s₁ newsPatch = some s₂ ∧
      newsIdentity 1 ["messages.direct.send"] ∈ s₂.resolved ∧
      ReadAlong plainArgon .inOrder .empty (newsLookup ++ newsPatch) (fun db =>
        IdentityIn db (newsIdentity 1 ["messages.direct.send"])) ∧
      (newsIdentity 1 ["messages.direct.send"]).capabilitySetVer ≤
        (newsIdentity 2 ["messages.direct.send", "noop.invoke"]).capabilitySetVer := by
  have hfirst : (run (adminStep plainArgon .inOrder) (.new .empty) newsLookup).map newsFound =
      some (some ("news", ["messages.direct.send"], 1)) := by
    decide +kernel
  have hsecond : (run (adminStep plainArgon .inOrder) (.new .empty) (newsLookup ++ newsPatch)).map
      (fun s => (newsFound s, s.resolved, s.log)) =
      some (some ("news", ["messages.direct.send", "noop.invoke"], 2),
        [newsIdentity 1 ["messages.direct.send"],
          newsIdentity 2 ["messages.direct.send", "noop.invoke"]],
        [.created "news", .issued "news" "news1"]) := by
    decide +kernel
  obtain ⟨s₁, hbefore, hfound₁⟩ := Option.map_eq_some_iff.mp hfirst
  obtain ⟨s₂, hrun, heq⟩ := Option.map_eq_some_iff.mp hsecond
  obtain ⟨s₁', hbefore', hafter⟩ := run_append_eq_some.mp hrun
  obtain rfl : s₁ = s₁' := Option.some.inj (hbefore.symm.trans hbefore')
  simp only [Prod.mk.injEq] at heq
  obtain ⟨hfound₂, hresolved, hlog⟩ := heq
  have hmem : newsIdentity 1 ["messages.direct.send"] ∈ s₂.resolved :=
    hresolved ▸ List.mem_cons_self
  obtain ⟨hread, hconsistent⟩ := resolved_consistent plainArgon .inOrder .empty hbefore hafter
  refine ⟨s₁, s₂, hbefore, hafter, hmem, hread _ hmem, ?_⟩
  refine (hconsistent _ _ (identityIn_of_newsFound hfound₁) (identityIn_of_newsFound hfound₂) rfl
    ?_).1
  rintro ⟨keyPrefixes, hpurge⟩
  have hlogged := List.mem_of_mem_drop hpurge
  simp [hlog] at hlogged

end TelegramServer.Api

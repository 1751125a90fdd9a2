import TelegramServer.Api.AppInvariant
import TelegramServer.Auth.KeyLifecycle

/-!
No capability enters `app_capabilities` through the admin surface that is not one of
the five that may be granted. The grants are checked before a transaction begins, and
from then on it can only drop writes of its plan, not add to them; so it does not
matter where it fails, and which of its rows were there already. Only a commit changes
the committed rows, and what has been rolled back is never committed.
-/

namespace TelegramServer.Api

open Lib Registry Auth

section Grants

variable {argon : Argon2} {planner : Planner} {s s' : AdminState} {action : AdminAction}
  {db : AdminDatabase} {tx : Tx} {appID a : String} {c : Capability} {w : AppWrite}

theorem AppWrite.grants_of_apply (h : (w.apply appID db).Grants a c) :
    db.Grants a c ∨ w = .insertCapability c := by
  cases w with
  | insertCapability c' =>
      simp only [apply, AdminDatabase.insertCapability] at h
      split at h
      · obtain hold | hnew := Table.mem_keys_insert_iff.mp h
        · exact .inl hold
        · exact .inr (by rw [(Prod.mk.inj hnew).2])
      · exact .inl h
  | deleteCapability c' =>
      obtain ⟨r, hr, hkey⟩ := List.mem_map.mp h
      exact .inl (List.mem_map.mpr ⟨r, List.mem_of_mem_filter hr, hkey⟩)
  | deleteApp =>
      obtain ⟨r, hr, hkey⟩ := List.mem_map.mp h
      exact .inl (List.mem_map.mpr ⟨r, List.mem_of_mem_filter hr, hkey⟩)
  | _ => exact .inl ((grants_apply_of_quiet rfl rfl).mp h)

theorem Tx.grants_of_view (h : (tx.view db).Grants a c) :
    db.Grants a c ∨ .insertCapability c ∈ tx.writes := by
  revert h
  refine Tx.view_rec (P := fun db' =>
    db'.Grants a c → db.Grants a c ∨ .insertCapability c ∈ tx.writes) .inl fun db' w hw ih h => ?_
  obtain hold | rfl := AppWrite.grants_of_apply h
  · exact ih hold
  · exact .inr hw

theorem WellPlanned.mem_allowed {ws : List AppWrite} (h : WellPlanned ws)
    (hc : .insertCapability c ∈ ws) : c ∈ allowedCapabilities := by
  obtain ⟨w, hlone, rfl⟩ | hall := h
  · obtain rfl := List.mem_singleton.mp hc
    cases hlone
  · exact (hall _ hc).2 c rfl

theorem forbidden_not_allowed : ∀ c ∈ forbiddenCapabilities, c ∉ allowedCapabilities := by
  decide

/-- Along every run from `db`, a pair that `app_capabilities` has gained is one of a
capability that may be granted, hence none of a management capability. A step that is
no commit leaves the rows as they are, and a transaction that has ended is not
committed later. -/
theorem capabilities_granted (argon : Argon2) (planner : Planner) (db : AdminDatabase)
    {before after : List AdminAction} {s₁ s₂ : AdminState}
    (hbefore : run (adminStep argon planner) (.new db) before = some s₁)
    (hafter : run (adminStep argon planner) s₁ after = some s₂) :
    (∀ a c, s₂.db.Grants a c → db.Grants a c ∨ c ∈ allowedCapabilities) ∧
    (∀ a, ∀ c ∈ forbiddenCapabilities, s₂.db.Grants a c → db.Grants a c) ∧
    (∀ action s', adminStep argon planner s₂ action = some s' → (∀ n, action ≠ .commit n) →
      s'.db = s₂.db) ∧
    ∀ n, s₁.txs[n]? = some none → adminStep argon planner s₂ (.commit n) = none := by
  have hgrants : ∀ a c, s₂.db.Grants a c → db.Grants a c ∨ c ∈ allowedCapabilities := by
    intro a c
    have hrun := run_append_eq_some.mpr ⟨s₁, hbefore, hafter⟩
    refine run_history (I := fun _ s => s.db.Grants a c → db.Grants a c ∨ c ∈ allowedCapabilities)
      .inl ?_ hrun
    intro as s action s' hs ih hstep h
    obtain ⟨hdb, -⟩ | ⟨n, tx, -, hopen, -, hdb, -⟩ := adminStep_rows hstep
    · exact ih (hdb ▸ h)
    · obtain hold | hnew := Tx.grants_of_view (hdb ▸ h)
      · exact ih hold
      · exact .inr ((wellPlanned_of_run hs hopen).mem_allowed hnew)
  refine ⟨hgrants, fun a c hc h => ?_, fun action s' h hcommit => ?_, fun n hn => ?_⟩
  · exact (hgrants a c h).resolve_right (forbidden_not_allowed c hc)
  · obtain ⟨hdb, -⟩ | ⟨n, tx, haction, -⟩ := adminStep_rows h
    · exact hdb
    · exact absurd haction (hcommit n)
  · exact commit_eq_none hn hafter

end Grants

/-- A form that asks for a management capability along with another one. -/
def escalationForm : Form
  | "capabilities" => ["apps.register", "messages.topic.send"]
  | _ => []

/-- A refused request, an app with one capability, and a request that is rolled back
after it has inserted a capability. -/
def refusedGrants : List AdminAction :=
  [.create "" (some { id := "news", name := "News", capabilities := ["audit.search"] }),
    .create "" (some { id := "news", name := "News", capabilities := ["noop.invoke"] }),
    .exec 0, .exec 0, .commit 0,
    .patch "news" (some { addCapabilities := ["messages.direct.dm"] }),
    .exec 1, .exec 1, .exec 1, .rollback 1]

def formGrants : List AdminAction :=
  [.uiPatch true "news" escalationForm, .exec 2, .exec 2, .exec 2, .exec 2, .exec 2, .commit 2]

theorem formGrants_granted :
    ∃ s₁ s₂, run (adminStep plainArgon .inOrder) (.new .empty) refusedGrants = some s₁ ∧
      run (adminStep plainArgon .inOrder) s₁ formGrants = some s₂ ∧
      s₂.db.Grants "news" "messages.topic.send" ∧
      (∀ a c, s₂.db.Grants a c → c ∈ allowedCapabilities) ∧
      adminStep plainArgon .inOrder s₂ (.commit 1) = none := by
  have hfirst : (run (adminStep plainArgon .inOrder) (.new .empty) refusedGrants).map
      (fun s => s.txs.map Option.isSome) = some [false, false] := by
    decide +kernel
  have hsecond : (run (adminStep plainArgon .inOrder) (.new .empty)
      (refusedGrants ++ formGrants)).map (fun s => s.db.capabilities.keys) =
        some [("news", "messages.topic.send")] := by
    decide +kernel
  obtain ⟨s₁, hbefore, htxs⟩ := Option.map_eq_some_iff.mp hfirst
  obtain ⟨s₂, hrun, hcaps⟩ := Option.map_eq_some_iff.mp hsecond
  obtain ⟨s₁', hbefore', hafter⟩ := run_append_eq_some.mp hrun
  obtain rfl : s₁ = s₁' := Option.some.inj (hbefore.symm.trans hbefore')
  obtain ⟨hgrants, -, -, hended⟩ := capabilities_granted plainArgon .inOrder .empty hbefore hafter
  refine ⟨s₁, s₂, hbefore, hafter, by simp [AdminDatabase.Grants, hcaps], fun a c h => ?_, ?_⟩
  · exact (hgrants a c h).resolve_left (by simp [AdminDatabase.Grants, AdminDatabase.empty,
      Table.keys, Table.empty])
  · refine hended 1 ?_
    have hone : (s₁.txs.map Option.isSome)[1]? = some false := by rw [htxs]; rfl
    simpa [List.getElem?_map, Option.map_eq_some_iff] using hone

end TelegramServer.Api

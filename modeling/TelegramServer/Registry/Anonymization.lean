import TelegramServer.Registry.Database

/-!
Anonymisation. The nine statements of `UserStore` and `SupergroupStore` write
overlapping columns of one row, and only two of them look at its status. The
effect of a statement on a row that is there is a function of the row
(`StoreOp.onRow`), so a run of statements acts on the row as a fold, whatever the
other rows are. Of the nine, `UpsertOnStart` alone can put something back into an
anonymised row: it sets the username of every row it conflicts with.
-/

namespace TelegramServer.Registry

open Go Lib

/-- A call of one of the statements, with its arguments. -/
inductive StoreOp
  | upsertOnStart (telegramID : ℤ) (username preferredLang : String)
  | markAgreed (now : Time) (userID : ℤ)
  | anonymize (userID : ℤ)
  | setStatus (userID : ℤ) (status : String)
  | issueToken (now : Time) (token : String) (userID ttl : ℤ)
  | consumeToken (now : Time) (token : String)
  | linkSupergroup (userID chatID : ℤ)
  | setBotIsAdmin (userID : ℤ) (isAdmin : Bool)
  | resetLink (userID : ℤ)

/-- The tables after a call, whether or not it returned an error. -/
def Database.exec (db : Database) : StoreOp → Database
  | .upsertOnStart telegramID username preferredLang =>
      (db.upsertOnStart telegramID username preferredLang).2
  | .markAgreed now userID => (db.markAgreed now userID).2
  | .anonymize userID => db.anonymize userID
  | .setStatus userID status => (db.setStatus userID status).2
  | .issueToken now token userID ttl => (db.issueToken now token userID ttl).2
  | .consumeToken now token => (db.consumeToken now token).2
  | .linkSupergroup userID chatID => db.linkSupergroup userID chatID
  | .setBotIsAdmin userID isAdmin => db.setBotIsAdmin userID isAdmin
  | .resetLink userID => db.resetLink userID

/-- What is left of a user after `Anonymize`: none of the personal columns. -/
structure UserRow.Erased (u : UserRow) : Prop where
  status : u.status = .anonymized
  anonymized : u.anonymized = true
  username : u.username = none
  preferredLang : u.preferredLang = none
  personalSupergroupChatID : u.personalSupergroupChatID = none

/-- The row after `Anonymize`. -/
def UserRow.erase (u : UserRow) : UserRow :=
  { u with
    username := none, preferredLang := none, personalSupergroupChatID := none,
    botIsAdmin := false, anonymized := true, status := .anonymized }

theorem UserRow.erased_erase (u : UserRow) : u.erase.Erased := ⟨rfl, rfl, rfl, rfl, rfl⟩

/-- The call is a `/start` of the given account with a username. -/
def StoreOp.NamesAgain (telegramID : ℤ) : StoreOp → Prop
  | .upsertOnStart telegramID' username _ => telegramID' = telegramID ∧ username ≠ ""
  | _ => False

/-- What a call does to a row that is there. -/
def StoreOp.onRow (u : UserRow) : StoreOp → UserRow
  | .upsertOnStart telegramID username _ =>
      if u.telegramID = telegramID then
        { u with username := (nullIf username "").or u.username }
      else u
  | .markAgreed now userID =>
      if u.id = userID ∧ u.agreedAt = none then { u with agreedAt := some now } else u
  | .anonymize userID => if u.id = userID then u.erase else u
  | .setStatus userID status =>
      if (status = "active" ∨ status = "paused") ∧ u.id = userID ∧ u.status ≠ .anonymized then
        { u with status := if status = "active" then .active else .paused }
      else u
  | .issueToken .. => u
  | .consumeToken .. => u
  | .linkSupergroup userID chatID =>
      if u.id = userID ∧ u.status ≠ .anonymized then
        { u with personalSupergroupChatID := some chatID, botIsAdmin := false }
      else u
  | .setBotIsAdmin userID isAdmin =>
      if u.id = userID then { u with botIsAdmin := isAdmin } else u
  | .resetLink userID =>
      if u.id = userID then { u with personalSupergroupChatID := none, botIsAdmin := false } else u

variable {db : Database} {u : UserRow} {id : ℤ}

theorem find?_updateUsers (h : db.users.find? id = some u) {p : UserRow → Bool}
    {f : UserRow → UserRow} {hid : ∀ u, (f u).id = u.id}
    {htg : ∀ u, (f u).telegramID = u.telegramID} :
    (db.updateUsers p f hid htg).users.find? id = some (if p u then f u else u) := by
  rw [Database.updateUsers, Table.find?_modify, h, Option.map_some]

theorem find?_upsertOnStart (h : db.users.find? id = some u) (telegramID : ℤ)
    (username preferredLang : String) :
    (db.upsertOnStart telegramID username preferredLang).2.users.find? id =
      some (StoreOp.onRow u (.upsertOnStart telegramID username preferredLang)) := by
  unfold Database.upsertOnStart
  dsimp only
  split
  · next known hfind =>
      rw [find?_updateUsers h]
      simp [StoreOp.onRow]
  · next hfind =>
      -- nobody has the account, so the row that is there is another one
      have hother : u.telegramID ≠ telegramID := by
        simpa using List.find?_eq_none.mp hfind u (Table.find?_eq_some.mp h).1
      rw [StoreOp.onRow, if_neg hother]
      split
      · exact h
      · rw [Table.find?, List.find?_append]
        rw [Table.find?] at h
        rw [h, Option.some_or]

/-- **Step.** A call changes a row that is there by `onRow`, and never removes it. -/
theorem find?_exec (h : db.users.find? id = some u) (op : StoreOp) :
    (db.exec op).users.find? id = some (op.onRow u) := by
  cases op with
  | upsertOnStart telegramID username preferredLang =>
      exact find?_upsertOnStart h telegramID username preferredLang
  | markAgreed now userID =>
      simp [Database.exec, Database.markAgreed, find?_updateUsers h, StoreOp.onRow]
  | anonymize userID =>
      simp [Database.exec, Database.anonymize, find?_updateUsers h, StoreOp.onRow, UserRow.erase]
  | setStatus userID status =>
      simp only [Database.exec, Database.setStatus, StoreOp.onRow]
      split
      · next hbad => rw [if_neg (by tauto), h]
      · next hgood =>
          have hset : status = "active" ∨ status = "paused" := by tauto
          simp [find?_updateUsers h, hset]
  | issueToken now token userID ttl =>
      simp only [Database.exec, Database.issueToken, StoreOp.onRow]
      split <;> exact h
  | consumeToken now token =>
      simp only [Database.exec, Database.consumeToken, StoreOp.onRow]
      split
      · exact h
      · split <;> exact h
  | linkSupergroup userID chatID =>
      simp [Database.exec, Database.linkSupergroup, find?_updateUsers h, StoreOp.onRow]
  | setBotIsAdmin userID isAdmin =>
      simp [Database.exec, Database.setBotIsAdmin, find?_updateUsers h, StoreOp.onRow]
  | resetLink userID =>
      simp [Database.exec, Database.resetLink, find?_updateUsers h, StoreOp.onRow]

/-- **Run.** A run of calls acts on the row as a fold. -/
theorem find?_foldl_exec (h : db.users.find? id = some u) (ops : List StoreOp) :
    (ops.foldl Database.exec db).users.find? id = some (ops.foldl StoreOp.onRow u) := by
  induction ops generalizing db u with
  | nil => exact h
  | cons op ops ih => exact ih (find?_exec h op)

@[simp] theorem telegramID_onRow (u : UserRow) (op : StoreOp) :
    (op.onRow u).telegramID = u.telegramID := by
  cases op with
  | issueToken | consumeToken => rfl
  | _ =>
      simp only [StoreOp.onRow]
      split <;> rfl

/-- A call leaves an anonymised row anonymised unless it names the account again. -/
theorem UserRow.Erased.onRow_iff (hu : u.Erased) (op : StoreOp) :
    (op.onRow u).Erased ↔ ¬op.NamesAgain u.telegramID := by
  cases op with
  | upsertOnStart telegramID username preferredLang =>
      simp only [StoreOp.onRow, StoreOp.NamesAgain]
      split
      · next heq =>
          constructor
          · rintro herased ⟨-, hne⟩
            simpa [nullIf, hne] using herased.username
          · intro hnot
            have hempty : username = "" := by
              by_contra hne
              exact hnot ⟨heq.symm, hne⟩
            exact { hu with username := by simp [nullIf, hempty, hu.username] }
      · next hne => exact iff_of_true hu fun h => hne h.1.symm
  | markAgreed | setBotIsAdmin =>
      refine iff_of_true ?_ not_false
      simp only [StoreOp.onRow]
      split
      · exact ⟨hu.status, hu.anonymized, hu.username, hu.preferredLang, hu.personalSupergroupChatID⟩
      · exact hu
  | anonymize =>
      refine iff_of_true ?_ not_false
      simp only [StoreOp.onRow]
      split
      · exact u.erased_erase
      · exact hu
  | setStatus | linkSupergroup =>
      -- both are guarded by the status
      refine iff_of_true ?_ not_false
      simpa only [StoreOp.onRow, hu.status, ne_eq, not_true_eq_false, and_false, if_false] using hu
  | issueToken | consumeToken => exact iff_of_true hu not_false
  | resetLink =>
      refine iff_of_true ?_ not_false
      simp only [StoreOp.onRow]
      split
      · exact { hu with personalSupergroupChatID := rfl }
      · exact hu

/-- The row is anonymised all along a run exactly if no call of the run names the
account again. -/
theorem UserRow.Erased.foldl_iff (hu : u.Erased) (ops : List StoreOp) :
    (∀ later, later <+: ops → (later.foldl StoreOp.onRow u).Erased) ↔
      ∀ op ∈ ops, ¬op.NamesAgain u.telegramID := by
  induction ops generalizing u with
  | nil => simp [hu]
  | cons op ops ih =>
      rw [List.forall_mem_cons, ← hu.onRow_iff op]
      constructor
      · intro h
        have hop : (op.onRow u).Erased := h [op] (by simp)
        refine ⟨hop, fun op' hmem => ?_⟩
        rw [← telegramID_onRow u op]
        refine (ih hop).mp (fun later hlater => ?_) op' hmem
        exact h (op :: later) (List.cons_prefix_cons.mpr ⟨rfl, hlater⟩)
      · rintro ⟨hop, hrest⟩ later hlater
        rcases List.prefix_cons_iff.mp hlater with rfl | ⟨rest, rfl, hprefix⟩
        · exact hu
        · rw [← telegramID_onRow u op] at hrest
          exact (ih hop).mpr hrest rest hprefix

/-- **Anonymisation is one-way** exactly until a `/start` of the same account carries a
username: along any run of calls after `Anonymize(u)` the row of `u` stays anonymised, with
no personal column set, if and only if the run has no such call. -/
theorem anonymize_oneWay_iff (hu : u ∈ db.users.rows) (ops : List StoreOp) :
    (∀ later, later <+: ops → ∃ row,
      ((StoreOp.anonymize u.id :: later).foldl Database.exec db).users.find? u.id = some row ∧
        row.Erased) ↔
      ∀ op ∈ ops, ¬op.NamesAgain u.telegramID := by
  have hrow : db.users.find? u.id = some u := Table.find?_eq_some.mpr ⟨hu, rfl⟩
  have herase : (StoreOp.anonymize u.id).onRow u = u.erase := by simp [StoreOp.onRow]
  rw [show u.telegramID = u.erase.telegramID from rfl, ← u.erased_erase.foldl_iff ops]
  refine forall₂_congr fun later _ => ?_
  rw [find?_foldl_exec hrow, List.foldl_cons, herase]
  simp

/-- A user with the account 101 and the username `ann`. -/
def namedUser : Database where
  users := ⟨[{ id := 1, telegramID := 101, username := some "ann" }], by decide⟩
  telegramID_nodup := by decide
  userSeq := 1
  subscriptions := .empty
  topics := .empty
  tokens := .empty
  apps := .empty

/-- After `/leave-all` a `/start` without a username leaves the row anonymised. -/
theorem namedUser_start_without_name :
    ∃ row, ([StoreOp.anonymize 1, .upsertOnStart 101 "" "ko", .linkSupergroup 1 (-100)].foldl
      Database.exec namedUser).users.find? 1 = some row ∧ row.Erased := by
  have hann : ({ id := 1, telegramID := 101, username := some "ann" } : UserRow) ∈
      namedUser.users.rows := by decide
  have hnot : ∀ op ∈ [StoreOp.upsertOnStart 101 "" "ko", .linkSupergroup 1 (-100)],
      ¬op.NamesAgain 101 := by simp [StoreOp.NamesAgain]
  exact (anonymize_oneWay_iff hann _).mpr hnot _ List.prefix_rfl

/-- After `/leave-all` a `/start` of the same account brings its username back. -/
theorem namedUser_named_again :
    ¬∃ row,
      ([StoreOp.anonymize 1, .upsertOnStart 101 "ann" "ko"].foldl Database.exec
        namedUser).users.find? 1 = some row ∧ row.Erased := by
  rintro ⟨row, hfind, herased⟩
  have hname : (([StoreOp.anonymize 1, .upsertOnStart 101 "ann" "ko"].foldl Database.exec
      namedUser).users.find? 1).bind UserRow.username = some "ann" := by decide
  rw [hfind, Option.bind_some, herased.username] at hname
  cases hname

end TelegramServer.Registry

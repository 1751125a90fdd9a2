import TelegramServer.Dispatch.Recipients
import Mathlib.Data.List.Dedup
import Mathlib.Data.List.Rotate

/-!
One verdict for each requested id. `ResolveDirect` and `ResolveDirectDM` are given
a list of ids and should say of each distinct id, once, what becomes of it. Both
drop the repeated rows of a user they have seen, but not the repeated rows of an
id that matches nobody. `ResolveDirect` does not select the requested id either:
it reads it off the request by the number of the row, so that a row without a user
is reported under whatever id stands at its place, and the query has no order.
-/

namespace TelegramServer.Dispatch

open Go Lib Registry

/-! ### What should be said of an id -/

/-- The verdict on a user: the code of the first condition that fails, or the handle. -/
def firstFailing (conditions : List (Bool × String)) (rh : RecipientHandle) : RowVerdict :=
  match conditions.find? fun c => !c.1 with
  | some c => .error ⟨rh.userID, c.2⟩
  | none => .ok rh

/-- Who may get a message in the topic of an app. -/
def directConditions (db : Database) (appID : String) (u : UserRow) : List (Bool × String) :=
  [(u.status = .active, resolveCodeRecipientInactive),
    ((⟨u.id, appID⟩ : Subscription) ∈ db.subscriptions.rows, resolveCodeRecipientNotSubbed),
    (u.personalSupergroupChatID ≠ none, resolveCodeRecipientNotLinked),
    (u.botIsAdmin, resolveCodeBotNotAdmin),
    (db.topics.find? (u.id, appID) |>.isSome, resolveCodeTopicMissing)]

/-- The topic; the two zeros are not reached if the conditions hold. -/
def directHandle (db : Database) (appID : String) (u : UserRow) : RecipientHandle where
  userID := u.id
  chatID := u.personalSupergroupChatID.getD 0
  topicID := ((db.topics.find? (u.id, appID)).map UserTopic.topicID).getD 0
  channel := "supergroup"

/-- The verdict on a requested id, where `owner` is the user it stands for. -/
def report (owner : ℤ → Option UserRow) (verdict : UserRow → RowVerdict) (id : ℤ) : RowVerdict :=
  match owner id with
  | none => .error ⟨id, resolveCodeUnknownRecipient⟩
  | some u => verdict u

def directReport (db : Database) (appID : String) : ℤ → RowVerdict :=
  report db.users.find? fun u => firstFailing (directConditions db appID u)
    (directHandle db appID u)

def directDMReport (db : Database) : ℤ → RowVerdict :=
  report db.userByTelegramID fun u =>
    firstFailing [(u.status = .active, resolveCodeRecipientInactive)] ⟨u.id, u.telegramID, 0, "dm"⟩

/-- All verdicts of a result. -/
def ResolveResult.verdicts (res : ResolveResult) : List RowVerdict :=
  res.recipients.map .ok ++ res.skipped.map .error

/-- The index stayed in range, and a result has the expected verdict on every distinct
requested id exactly once, and nothing else. -/
def OneVerdictEach (expected : ℤ → RowVerdict) (ids : List ℤ)
    (out : Except StrategyErr ResolveResult) : Prop :=
  out ≠ .error .other ∧ ∀ res, out = .ok res → res.verdicts.Perm (ids.dedup.map expected)

/-! ### Lists -/

theorem perm_dedup_cons {α : Type} [DecidableEq α] (a : α) (l : List α) :
    (a :: l).dedup.Perm (a :: (l.filter fun b => b ≠ a).dedup) := by
  refine (List.perm_ext_iff_of_nodup (List.nodup_dedup _) ?_).mpr fun b => ?_
  · exact List.nodup_cons.mpr ⟨by simp, List.nodup_dedup _⟩
  · by_cases hb : b = a
    · simp [hb]
    · simp [hb]

theorem map_perm_map_dedup_iff {α β : Type} [DecidableEq α] {l : List α} (f : α → β) :
    (l.map f).Perm (l.dedup.map f) ↔ l.Nodup := by
  constructor
  · intro h
    have hlen : l.length = l.dedup.length := by simpa using h.length_eq
    rw [← l.dedup_sublist.eq_of_length hlen.symm]
    exact l.nodup_dedup
  · intro h
    rw [h.dedup]

/-- A reordering of images is the image of a reordering. -/
theorem exists_perm_of_perm_map {α β : Type} {f : α → β} {l : List α} {l' : List β}
    (h : l'.Perm (l.map f)) : ∃ m : List α, m.Perm l ∧ l' = m.map f := by
  generalize hl : l.map f = r at h
  induction h generalizing l with
  | nil => exact ⟨[], by simp_all⟩
  | cons b _ ih =>
      obtain ⟨a, m, rfl, rfl, hm⟩ := List.map_eq_cons_iff.mp hl
      obtain ⟨m', hperm, rfl⟩ := ih hm
      exact ⟨a :: m', hperm.cons a, rfl⟩
  | swap b c r =>
      obtain ⟨a, m, rfl, rfl, hm⟩ := List.map_eq_cons_iff.mp hl
      obtain ⟨a', m, rfl, rfl, rfl⟩ := List.map_eq_cons_iff.mp hm
      exact ⟨a' :: a :: m, .swap .., rfl⟩
  | trans _ _ ih₁ ih₂ =>
      obtain ⟨m, hperm, rfl⟩ := ih₂ hl
      obtain ⟨m', hperm', rfl⟩ := ih₁ rfl
      exact ⟨m', hperm'.trans hperm, rfl⟩

/-! ### The loop -/

/-- What a row says, and about which user. -/
def Candidate.entry (c : Candidate) : Option ℤ × RowVerdict :=
  match c.userID with
  | none => (none, .error ⟨c.requested, resolveCodeUnknownRecipient⟩)
  | some userID => (some userID, c.verdict)

/-- The verdicts that remain if of several about one user the first counts. -/
def firstOfEach : List (Option ℤ × RowVerdict) → List ℤ → List RowVerdict
  | [], _ => []
  | (none, v) :: rest, seen => v :: firstOfEach rest seen
  | (some userID, v) :: rest, seen =>
      if userID ∈ seen then firstOfEach rest seen else v :: firstOfEach rest (userID :: seen)

theorem verdicts_add (res : ResolveResult) (v : RowVerdict) (vs : List RowVerdict) :
    ((res.add v).verdicts ++ vs).Perm (res.verdicts ++ v :: vs) := by
  cases v with
  | error e => simp [ResolveResult.add, ResolveResult.verdicts]
  | ok rh =>
      simp only [ResolveResult.add, ResolveResult.verdicts, List.map_append, List.append_assoc,
        List.map_cons, List.map_nil, List.singleton_append]
      exact (List.perm_middle.symm).append_left _

theorem verdicts_candidateLoop (cs : List Candidate) (seen : List ℤ) (res : ResolveResult) :
    (candidateLoop cs seen res).verdicts.Perm
      (res.verdicts ++ firstOfEach (cs.map Candidate.entry) seen) := by
  induction cs generalizing seen res with
  | nil => simp [candidateLoop, firstOfEach]
  | cons c cs ih =>
      rw [candidateLoop, List.map_cons, Candidate.entry]
      cases c.userID with
      | none => exact (ih _ _).trans (verdicts_add ..)
      | some userID =>
          simp only [firstOfEach]
          split
          · exact ih _ _
          · exact (ih _ _).trans (verdicts_add ..)

theorem mem_firstOfEach_of_none {es : List (Option ℤ × RowVerdict)} {v : RowVerdict}
    (h : (none, v) ∈ es) (seen : List ℤ) : v ∈ firstOfEach es seen := by
  induction es generalizing seen with
  | nil => cases h
  | cons e es ih =>
      obtain ⟨_ | userID, v'⟩ := e
      · rcases List.mem_cons.mp h with heq | h
        · cases heq
          exact List.mem_cons_self ..
        · exact List.mem_cons_of_mem _ (ih h seen)
      · have h : (none, v) ∈ es := by simpa using h
        rw [firstOfEach]
        split
        · exact ih h seen
        · exact List.mem_cons_of_mem _ (ih h _)

section Owner

variable {owner : ℤ → Option UserRow} {verdict : UserRow → RowVerdict}

/-- No user has two of the ids. -/
def Owns (owner : ℤ → Option UserRow) : Prop :=
  ∀ a b u v, owner a = some u → owner b = some v → u.id = v.id → a = b

/-- What the row of a requested id says. -/
def entryFor (owner : ℤ → Option UserRow) (verdict : UserRow → RowVerdict) (id : ℤ) :
    Option ℤ × RowVerdict :=
  ((owner id).map UserRow.id, report owner verdict id)

/-- The requested ids that stand for nobody. -/
def unknowns (owner : ℤ → Option UserRow) (ids : List ℤ) : List ℤ :=
  ids.filter fun id => (owner id).isNone

/-- Nothing is dropped of the unknown ids; of the others each is kept once. -/
theorem firstOfEach_perm (howner : Owns owner) (ids seen : List ℤ) :
    (firstOfEach (ids.map (entryFor owner verdict)) seen).Perm
      ((unknowns owner ids).map (report owner verdict) ++
        (ids.filter fun id => (owner id).any (·.id ∉ seen)).dedup.map (report owner verdict)) := by
  induction ids generalizing seen with
  | nil => simp [firstOfEach, unknowns]
  | cons id ids ih =>
      cases hid : owner id with
      | none =>
          simp only [List.map_cons, entryFor, hid, Option.map_none, firstOfEach, unknowns,
            List.filter_cons, Option.isNone_none, if_true, Option.any_none, Bool.false_eq_true,
            if_false, List.cons_append]
          exact (ih seen).cons _
      | some u =>
          simp only [List.map_cons, entryFor, hid, Option.map_some, firstOfEach, unknowns,
            List.filter_cons, Option.isNone_some, Bool.false_eq_true, if_false, Option.any_some,
            decide_eq_true_eq]
          by_cases hseen : u.id ∈ seen
          · rw [if_pos hseen, if_neg (not_not.mpr hseen)]
            exact ih seen
          · rw [if_neg hseen, if_pos hseen]
            -- the rows of the same user are those of the same id
            have hfilter : (ids.filter fun id => (owner id).any (·.id ∉ u.id :: seen)) =
                (ids.filter fun id => (owner id).any (·.id ∉ seen)).filter fun b => b ≠ id := by
              rw [List.filter_filter]
              refine List.filter_congr fun b _ => ?_
              cases hb : owner b with
              | none => simp
              | some v =>
                  have hsame : v.id = u.id ↔ b = id := by
                    constructor
                    · exact howner b id v u hb hid
                    · rintro rfl
                      rw [Option.some.inj (hb.symm.trans hid)]
                  simp [hsame]
            refine ((ih (u.id :: seen)).cons _).trans ?_
            refine List.perm_middle.symm.trans (List.Perm.append_left _ ?_)
            rw [hfilter]
            exact ((perm_dedup_cons id _).map (report owner verdict)).symm

theorem dedup_map_perm (ids : List ℤ) :
    (ids.dedup.map (report owner verdict)).Perm
      ((unknowns owner ids).dedup.map (report owner verdict) ++
        (ids.filter fun id => (owner id).any (·.id ∉ ([] : List ℤ))).dedup.map
          (report owner verdict)) := by
  rw [← List.map_append]
  refine List.Perm.map _ ((List.perm_ext_iff_of_nodup ids.nodup_dedup ?_).mpr fun id => ?_)
  · refine List.Nodup.append (List.nodup_dedup _) (List.nodup_dedup _) fun id hid hid' => ?_
    cases howner : owner id with
    | none => simp [howner] at hid'
    | some u => simp [unknowns, howner] at hid
  · cases howner : owner id with
    | none => simp [unknowns, howner]
    | some u => simp [unknowns, howner]

/-- If every row says what its id deserves, there is one verdict for each id exactly if
no unknown id is repeated, whatever the order of the rows. -/
theorem firstOfEach_perm_dedup_iff (howner : Owns owner) {ids : List ℤ}
    {es : List (Option ℤ × RowVerdict)} (hes : es.Perm (ids.map (entryFor owner verdict))) :
    (firstOfEach es []).Perm (ids.dedup.map (report owner verdict)) ↔
      (unknowns owner ids).Nodup := by
  obtain ⟨ids', hperm, rfl⟩ := exists_perm_of_perm_map hes
  have hunknowns : (unknowns owner ids').Perm (unknowns owner ids) := hperm.filter _
  have hexpected := (hperm.symm.dedup.map (report owner verdict)).trans (dedup_map_perm ids')
  have hfirst := (firstOfEach_perm howner ids' [] : List.Perm (firstOfEach (ids'.map
    (entryFor owner verdict)) []) _)
  rw [← hunknowns.nodup_iff, ← map_perm_map_dedup_iff (report owner verdict)]
  constructor
  · intro h
    exact (List.perm_append_right_iff _).mp (hfirst.symm.trans (h.trans hexpected))
  · intro h
    exact hfirst.trans ((h.append_right _).trans hexpected.symm)

end Owner

/-! ### `ResolveDirectDM` -/

theorem dmVerdict_eq (u : UserRow) :
    dmVerdict u = firstFailing [(u.status = .active, resolveCodeRecipientInactive)]
      ⟨u.id, u.telegramID, 0, "dm"⟩ := by
  by_cases hactive : u.status = .active
  · simp [dmVerdict, firstFailing, hactive]
  · simp [dmVerdict, firstFailing, hactive]

theorem owns_userByTelegramID (db : Database) : Owns db.userByTelegramID := by
  intro a b u v hu hv hid
  obtain rfl := db.users.eq_of_key_eq (List.mem_of_find?_eq_some hu)
    (List.mem_of_find?_eq_some hv) hid
  have ha : u.telegramID = a := by simpa using List.find?_some hu
  have hb : u.telegramID = b := by simpa using List.find?_some hv
  exact ha.symm.trans hb

/-- The Telegram id is a key of the users as well, so there is one row for each requested id. -/
theorem entry_directDMQuery (db : Database) (telegramIDs : List ℤ) :
    (directDMQuery db telegramIDs).map Candidate.entry =
      telegramIDs.map (entryFor db.userByTelegramID fun u =>
        firstFailing [(u.status = .active, resolveCodeRecipientInactive)]
          ⟨u.id, u.telegramID, 0, "dm"⟩) := by
  have hon : ∀ (req : ℤ) (u : UserRow), decide (u.telegramID = req) = true ↔
      some u.telegramID = some req := by simp
  have hjoin := leftJoin_table (t := (⟨db.users.rows, db.telegramID_nodup⟩ :
    Table UserRow.telegramID)) (fun req => some req) hon telegramIDs
  rw [directDMQuery, hjoin, List.map_map, List.map_map]
  refine List.map_congr_left fun req _ => ?_
  have hfind : Table.find? (⟨db.users.rows, db.telegramID_nodup⟩ : Table UserRow.telegramID) req =
      db.userByTelegramID req := rfl
  simp only [Function.comp_apply, Option.bind_some, hfind, entryFor, report, Candidate.entry]
  cases db.userByTelegramID req with
  | none => rfl
  | some u => simp [dmVerdict_eq]

theorem resolveDirectDM_oneVerdictEach_iff (db : Database) (planner : Planner)
    (telegramIDs : List ℤ) :
    OneVerdictEach (directDMReport db) telegramIDs (resolveDirectDM db planner telegramIDs) ↔
      (unknowns db.userByTelegramID telegramIDs).Nodup := by
  have hes := (planner.perm (directDMQuery db telegramIDs)).map Candidate.entry
  rw [entry_directDMQuery] at hes
  have hloop := verdicts_candidateLoop (planner.arrange (directDMQuery db telegramIDs)) [] {}
  rw [show ({} : ResolveResult).verdicts = [] from rfl, List.nil_append] at hloop
  rw [← firstOfEach_perm_dedup_iff (owns_userByTelegramID db) hes]
  simp only [OneVerdictEach, resolveDirectDM, Except.ok.injEq, forall_eq', ne_eq, reduceCtorEq,
    not_false_eq_true, true_and]
  exact ⟨hloop.symm.trans, hloop.trans⟩

/-! ### `ResolveDirect` -/

theorem directRowOf_verdict_eq (db : Database) (appID : String) (u : UserRow) :
    (directRowOf db appID u).verdict u.id =
      firstFailing (directConditions db appID u) (directHandle db appID u) := by
  have hsub : db.subscriptions.find? (u.id, appID) = none ↔
      (⟨u.id, appID⟩ : Subscription) ∉ db.subscriptions.rows := by
    rw [← find?_subscription, Option.not_isSome_iff_eq_none]
  simp only [DirectRow.verdict, directRowOf, directConditions, firstFailing, directHandle]
  by_cases hactive : u.status = .active
  swap
  · simp [hactive]
  by_cases hsubbed : (⟨u.id, appID⟩ : Subscription) ∈ db.subscriptions.rows
  swap
  · simp [hactive, hsubbed, hsub]
  cases hchat : u.personalSupergroupChatID with
  | none => simp [hactive, hsubbed, hsub]
  | some chatID =>
      by_cases hadmin : u.botIsAdmin = true
      swap
      · simp [hactive, hsubbed, hsub, hadmin]
      cases htopic : db.topics.find? (u.id, appID) with
      | none => simp [hactive, hsubbed, hsub, hadmin]
      | some t => simp [hactive, hsubbed, hsub, hadmin]

/-- A row at the place of a requested id. -/
def candidateAt (requested : ℤ) (row : DirectRow) : Candidate :=
  ⟨requested, row.userID, row.verdict (row.userID.getD 0)⟩

/-- The index runs along the request. -/
theorem directCandidates_eq (before ids : List ℤ) (rows : List DirectRow)
    (hlen : rows.length ≤ ids.length) :
    directCandidates (before ++ ids) before.length rows =
      some (List.zipWith candidateAt ids rows) := by
  induction rows generalizing before ids with
  | nil => simp [directCandidates]
  | cons row rows ih =>
      cases ids with
      | nil => simp at hlen
      | cons id ids =>
          have hrest := ih (before ++ [id]) ids (by simpa using hlen)
          rw [List.append_assoc, List.singleton_append, List.length_append, List.length_singleton]
            at hrest
          have hget : (before ++ id :: ids)[before.length]? = some id := by simp
          rw [directCandidates, hget, hrest]
          rfl

/-- What is said of the id `asked` where the row of `requested` stands at its place. -/
def entryAt (db : Database) (appID : String) (asked requested : ℤ) : Option ℤ × RowVerdict :=
  match db.users.find? requested with
  | none => (none, .error ⟨asked, resolveCodeUnknownRecipient⟩)
  | some u =>
      (some u.id, firstFailing (directConditions db appID u) (directHandle db appID u))

theorem entry_candidateAt (db : Database) (appID : String) (asked requested : ℤ) :
    (candidateAt asked (directRowFor db appID requested)).entry =
      entryAt db appID asked requested := by
  unfold candidateAt directRowFor entryAt Candidate.entry
  cases db.users.find? requested with
  | none => rfl
  | some u => exact congrArg (Prod.mk (some u.id)) (directRowOf_verdict_eq db appID u)

theorem entry_zipWith (db : Database) (appID : String) (ids ids' : List ℤ) :
    (List.zipWith candidateAt ids (ids'.map (directRowFor db appID))).map Candidate.entry =
      List.zipWith (entryAt db appID) ids ids' := by
  simp only [List.zipWith_map_right, List.map_zipWith, entry_candidateAt]

section Direct

variable {db : Database} {planner : Planner} {ids ids' : List ℤ} {appID : String}

/-- The verdicts of `ResolveDirect` if Postgres returns the rows in the order of `ids'`. -/
theorem oneVerdictEach_resolveDirect_iff (happ : appActive db appID = true)
    (harrange : planner.arrange (directQuery db ids appID) = ids'.map (directRowFor db appID)) :
    OneVerdictEach (directReport db appID) ids (resolveDirect db planner ids appID) ↔
      (firstOfEach (List.zipWith (entryAt db appID) ids ids') []).Perm
        (ids.dedup.map (directReport db appID)) := by
  have hlen : ids'.length = ids.length := by
    have hperm := (planner.perm (directQuery db ids appID)).length_eq
    rwa [harrange, directQuery_eq, List.length_map, List.length_map] at hperm
  have hcs := directCandidates_eq [] ids (ids'.map (directRowFor db appID)) (by simp [hlen])
  rw [List.nil_append, List.length_nil] at hcs
  have hloop := verdicts_candidateLoop
    (List.zipWith candidateAt ids (ids'.map (directRowFor db appID))) [] {}
  rw [show ({} : ResolveResult).verdicts = [] from rfl, List.nil_append, entry_zipWith] at hloop
  simp only [OneVerdictEach, resolveDirect, happ, harrange, hcs, Bool.not_true, Bool.false_eq_true,
    if_false, Except.ok.injEq, forall_eq', ne_eq, reduceCtorEq, not_false_eq_true, true_and]
  exact ⟨hloop.symm.trans, hloop.trans⟩

theorem owns_find? (db : Database) : Owns db.users.find? := by
  intro a b u v hu hv hid
  rw [← (Table.find?_eq_some.mp hu).2, ← (Table.find?_eq_some.mp hv).2, hid]

theorem entryAt_self (id : ℤ) : entryAt db appID id id = entryFor db.users.find?
    (fun u => firstFailing (directConditions db appID u) (directHandle db appID u)) id := by
  unfold entryAt entryFor report
  cases db.users.find? id <;> rfl

/-- In the order of the request every row stands at its place. -/
theorem zipWith_entryAt_self (ids : List ℤ) :
    List.zipWith (entryAt db appID) ids ids = ids.map (entryFor db.users.find? fun u =>
      firstFailing (directConditions db appID u) (directHandle db appID u)) := by
  rw [List.zipWith_self]
  exact List.map_congr_left fun id _ => entryAt_self id

/-- Rows that all have a user say the same at any place. -/
theorem zipWith_entryAt_of_known (hlen : ids'.length = ids.length)
    (hknown : ∀ id ∈ ids', db.users.find? id ≠ none) :
    List.zipWith (entryAt db appID) ids ids' = ids'.map (entryFor db.users.find? fun u =>
      firstFailing (directConditions db appID u) (directHandle db appID u)) := by
  induction ids' generalizing ids with
  | nil => simp
  | cons id' ids' ih =>
      cases ids with
      | nil => simp at hlen
      | cons id ids =>
          obtain ⟨u, hu⟩ := Option.ne_none_iff_exists'.mp (hknown id' (List.mem_cons_self ..))
          have hhead : entryAt db appID id id' = entryAt db appID id' id' := by
            simp only [entryAt, hu]
          rw [List.zipWith_cons_cons, List.map_cons, hhead, entryAt_self,
            ih (by simpa using hlen) fun x hx => hknown x (List.mem_cons_of_mem _ hx)]

/-- Rows without a user say what the place says. -/
theorem zipWith_entryAt_of_unknown (hlen : ids'.length = ids.length)
    (hids : ∀ id ∈ ids, db.users.find? id = none)
    (hunknown : ∀ id ∈ ids', db.users.find? id = none) :
    List.zipWith (entryAt db appID) ids ids' = ids.map (entryFor db.users.find? fun u =>
      firstFailing (directConditions db appID u) (directHandle db appID u)) := by
  induction ids generalizing ids' with
  | nil => simp
  | cons id ids ih =>
      cases ids' with
      | nil => simp at hlen
      | cons id' ids' =>
          have hhead : entryAt db appID id id' = entryAt db appID id id := by
            simp only [entryAt, hunknown id' (List.mem_cons_self ..),
              hids id (List.mem_cons_self ..)]
          rw [List.zipWith_cons_cons, List.map_cons, hhead, entryAt_self,
            ih (by simpa using hlen) (fun x hx => hids x (List.mem_cons_of_mem _ hx))
              fun x hx => hunknown x (List.mem_cons_of_mem _ hx)]

/-- Only an id without a user is expected to be reported as unknown. -/
theorem directReport_eq_unknown {id id' : ℤ}
    (h : directReport db appID id = .error ⟨id', resolveCodeUnknownRecipient⟩) :
    id = id' ∧ db.users.find? id = none := by
  unfold directReport report at h
  cases hfind : db.users.find? id with
  | none =>
      rw [hfind] at h
      simpa using h
  | some u =>
      simp only [hfind, firstFailing] at h
      split at h
      · next c hc =>
          have hmem := List.mem_of_find?_eq_some hc
          have hcode := (ResolveError.mk.inj (Except.error.inj h)).2
          have hcodes : ∀ c ∈ directConditions db appID u,
              c.2 ≠ resolveCodeUnknownRecipient := by
            simp [directConditions, resolveCodeUnknownRecipient, resolveCodeRecipientInactive,
              resolveCodeRecipientNotSubbed, resolveCodeRecipientNotLinked,
              resolveCodeBotNotAdmin, resolveCodeTopicMissing]
          exact absurd hcode (hcodes c hmem)
      · cases h

/-- The rows in the order of the request, started at another place. -/
def rotated (n : ℕ) : Planner := ⟨fun l => l.rotate n, fun l => List.rotate_perm l n⟩

theorem rotated_arrange (n : ℕ) : (rotated n).arrange (directQuery db ids appID) =
    (ids.rotate n).map (directRowFor db appID) := by
  rw [directQuery_eq, List.map_rotate]
  rfl

/-- If the row of an unknown id can stand at the place of a known one, that one is reported. -/
theorem all_of_oneVerdictEach (happ : appActive db appID = true)
    (h : ∀ planner : Planner,
      OneVerdictEach (directReport db appID) ids (resolveDirect db planner ids appID)) :
    (∀ id ∈ ids, db.users.find? id ≠ none) ∨ ∀ id ∈ ids, db.users.find? id = none := by
  by_contra hmixed
  push Not at hmixed
  obtain ⟨⟨unknown, hunknown, hnone⟩, known, hknown, hsome⟩ := hmixed
  obtain ⟨p, hp, rfl⟩ := List.getElem_of_mem hknown
  obtain ⟨q, hq, rfl⟩ := List.getElem_of_mem hunknown
  have hverdicts := (oneVerdictEach_resolveDirect_iff happ
    (rotated_arrange (q + (ids.length - p)))).mp (h (rotated (q + (ids.length - p))))
  have hentry : (none, .error ⟨ids[p], resolveCodeUnknownRecipient⟩) ∈
      List.zipWith (entryAt db appID) ids (ids.rotate (q + (ids.length - p))) := by
    have hlen : p < (List.zipWith (entryAt db appID) ids
        (ids.rotate (q + (ids.length - p)))).length := by
      simpa using hp
    refine List.mem_of_getElem (i := p) (h := hlen) ?_
    have hplace : (p + (q + (ids.length - p))) % ids.length = q := by
      rw [show p + (q + (ids.length - p)) = q + ids.length by omega, Nat.add_mod_right,
        Nat.mod_eq_of_lt hq]
    simp only [List.getElem_zipWith, List.getElem_rotate, hplace, entryAt, hnone]
  have hreported := hverdicts.mem_iff.mp (mem_firstOfEach_of_none hentry [])
  obtain ⟨id, -, hid⟩ := List.mem_map.mp hreported
  obtain ⟨rfl, hfind⟩ := directReport_eq_unknown hid
  exact hsome hfind

theorem unknowns_eq_self (h : ∀ id ∈ ids, db.users.find? id = none) :
    unknowns db.users.find? ids = ids := by
  refine List.filter_eq_self.mpr fun id hid => ?_
  simp [h id hid]

theorem unknowns_eq_nil (h : ∀ id ∈ ids, db.users.find? id ≠ none) :
    unknowns db.users.find? ids = [] := by
  refine List.filter_eq_nil_iff.mpr fun id hid => ?_
  simpa using h id hid

theorem resolveDirect_oneVerdictEach_iff (happ : appActive db appID = true) :
    (∀ planner : Planner,
      OneVerdictEach (directReport db appID) ids (resolveDirect db planner ids appID)) ↔
      (∀ id ∈ ids, db.users.find? id ≠ none) ∨
        (∀ id ∈ ids, db.users.find? id = none) ∧ ids.Nodup := by
  constructor
  · intro h
    refine (all_of_oneVerdictEach happ h).imp_right fun hunknown => ⟨hunknown, ?_⟩
    have hinOrder := (oneVerdictEach_resolveDirect_iff happ (directQuery_eq db ids appID)).mp
      (h .inOrder)
    rw [zipWith_entryAt_self] at hinOrder
    rw [← unknowns_eq_self hunknown]
    exact (firstOfEach_perm_dedup_iff (owns_find? db) (List.Perm.refl _)).mp hinOrder
  · intro h planner
    have hrows := planner.perm (directQuery db ids appID)
    rw [directQuery_eq] at hrows
    obtain ⟨ids', hperm, harrange⟩ := exists_perm_of_perm_map hrows
    rw [← directQuery_eq] at harrange
    rw [oneVerdictEach_resolveDirect_iff happ harrange]
    rcases h with hknown | ⟨hunknown, hnodup⟩
    · rw [zipWith_entryAt_of_known hperm.length_eq fun id hid => hknown id (hperm.mem_iff.mp hid)]
      refine (firstOfEach_perm_dedup_iff (owns_find? db) (hperm.map _)).mpr ?_
      rw [unknowns_eq_nil hknown]
      exact List.nodup_nil
    · rw [zipWith_entryAt_of_unknown hperm.length_eq hunknown fun id hid =>
        hunknown id (hperm.mem_iff.mp hid)]
      refine (firstOfEach_perm_dedup_iff (owns_find? db) (List.Perm.refl _)).mpr ?_
      rwa [unknowns_eq_self hunknown]

end Direct

/-- **One verdict for each requested id.** `ResolveDirect` gives one in every order of the rows
exactly if all requested users exist, or none of them and no id is repeated;
`ResolveDirectDM` exactly if no unknown id is repeated. -/
theorem oneVerdictEach_iff (db : Database) (appID : String) (ids : List ℤ) :
    ((∀ planner : Planner,
        OneVerdictEach (directReport db appID) ids (resolveDirect db planner ids appID)) ↔
      (appActive db appID = true → (∀ id ∈ ids, db.users.find? id ≠ none) ∨
        (∀ id ∈ ids, db.users.find? id = none) ∧ ids.Nodup)) ∧
    ((∀ planner : Planner,
        OneVerdictEach (directDMReport db) ids (resolveDirectDM db planner ids)) ↔
      (ids.filter fun id => (db.userByTelegramID id).isNone).Nodup) := by
  constructor
  · cases happ : appActive db appID with
    | false => simp [OneVerdictEach, resolveDirect, happ]
    | true => simpa using resolveDirect_oneVerdictEach_iff happ
  · constructor
    · intro h
      exact (resolveDirectDM_oneVerdictEach_iff db .inOrder ids).mp (h .inOrder)
    · intro h planner
      exact (resolveDirectDM_oneVerdictEach_iff db planner ids).mpr h

/-- One user, who is not subscribed to anything. -/
def loneUser : Database where
  users := ⟨[{ id := 1, telegramID := 101 }], by decide⟩
  telegramID_nodup := by decide
  userSeq := 1
  subscriptions := .empty
  topics := .empty
  tokens := .empty
  apps := ⟨[{ id := "alerts", name := "Alerts" }], by decide⟩

/-- If Postgres returns the row of the unknown user 2 first, user 1 is reported as unknown and
user 2 not at all; and of an unknown Telegram id that is given twice there are two reports. -/
theorem loneUser_misreported :
    ¬OneVerdictEach (directReport loneUser "alerts") [1, 2]
        (resolveDirect loneUser (rotated 1) [1, 2] "alerts") ∧
      ¬OneVerdictEach (directDMReport loneUser) [102, 102]
        (resolveDirectDM loneUser .inOrder [102, 102]) := by
  constructor
  · have hout : resolveDirect loneUser (rotated 1) [1, 2] "alerts" = .ok { skipped :=
        [⟨1, resolveCodeUnknownRecipient⟩, ⟨1, resolveCodeRecipientNotSubbed⟩] } := rfl
    rintro ⟨-, h⟩
    have htwo : directReport loneUser "alerts" 2 = .error ⟨2, resolveCodeUnknownRecipient⟩ := rfl
    have hmem : directReport loneUser "alerts" 2 ∈
        ([1, 2] : List ℤ).dedup.map (directReport loneUser "alerts") :=
      List.mem_map_of_mem (by decide)
    rw [← (h _ hout).mem_iff, htwo] at hmem
    simp [ResolveResult.verdicts] at hmem
  · have hout : resolveDirectDM loneUser .inOrder [102, 102] = .ok { skipped :=
        [⟨102, resolveCodeUnknownRecipient⟩, ⟨102, resolveCodeUnknownRecipient⟩] } := rfl
    rintro ⟨-, h⟩
    have hlen := (h _ hout).length_eq
    simp [ResolveResult.verdicts] at hlen

end TelegramServer.Dispatch

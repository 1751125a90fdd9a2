import TelegramServer.Adminui.AuditPages

/-!
Following the "다음" links shows every row that matched at the first page, once, newest
first, and comes to an end.

The argument is an induction over the rows that are still to be shown. A page shows
the first of them; the cursor in its link is the id of the last one shown, and the
rows below that id are those still to be shown, in the log of the next request as
well, because all that was appended in between lies above.
-/

namespace TelegramServer.Adminui

open Go Lib Audit

section Requests

variable {layouts : TimeLayouts} {now : Time} {f : AuditFilters}

/-! ### What a request carries -/

theorem get_searchValues (p : AuditFilters) :
    (searchValues p).get "limit" = p.limit ∧ (searchValues p).get "since" = p.since ∧
      (searchValues p).get "until" = p.until ∧ (searchValues p).get "trace_id" = p.traceID ∧
      (searchValues p).get "app_id" = p.appID ∧ (searchValues p).get "stage" = p.stage ∧
      (searchValues p).get "before_id" = p.beforeID := by
  simp [searchValues, Values.get_set_ne, Values.get_set_self]

/-- The dates of the filters are as `handleAuditPage` leaves them. -/
def AuditFilters.Normalized (layouts : TimeLayouts) (f : AuditFilters) : Prop :=
  normalizeAuditDate layouts f.since = f.since ∧ normalizeAuditDate layouts f.until = f.until

theorem requestFilters_normalized (url : PageURL) :
    (requestFilters layouts now url).Normalized layouts := by
  cases url <;> simp [requestFilters, defaultAuditFilters, AuditFilters.Normalized]

/-- A link carries the filters of its page and the cursor. -/
theorem requestFilters_auditPageURL {b : String} (hf : f.Normalized layouts) (hlimit : f.limit ≠ "")
    (hb : b ≠ "") :
    requestFilters layouts now (auditPageURL f b) = { f with beforeID := b } := by
  have hurl : auditPageURL f b = some (((((((Values.set [] "stage" f.stage).set "app_id"
      f.appID).set "trace_id" f.traceID).set "limit" f.limit).set "since" f.since).set "until"
      f.until).set "before_id" b) := by
    rw [auditPageURL, if_neg]
    simp [Values.set, hb]
  rw [hurl, requestFilters]
  simp [Values.get_set_ne, Values.get_set_self, hlimit, hf.1, hf.2]

/-! ### What the server makes of it -/

/-- The conditions of the search for a page with these filters. -/
def criteriaOf (layouts : TimeLayouts) (f : AuditFilters) : Except SearchErr (ℤ × Criteria) :=
  parseSearch layouts (searchValues (searchParams layouts f))

theorem pageLimits_eq {n : ℤ} (hlimit : parseInt f.limit = some n) (h₁ : 1 ≤ n) (h₂ : n ≤ 499) :
    pageLimits f.limit = (n.toNat, formatInt (n + 1)) := by
  have hmod : Int.bmod (n + 1) (2 ^ 64) = n + 1 := by
    rw [Int.bmod_eq_of_le] <;> omega
  rw [pageLimits, hlimit]
  simp only [show (0 : ℤ) < n by omega, if_true, hmod]
  rw [min_eq_left (by omega)]

theorem parseLimit_formatInt {n : ℤ} (h₁ : 1 ≤ n) (h₂ : n ≤ 500) :
    parseLimit (formatInt n) = .ok n := by
  have hparse : parseInt (formatInt n) = some n := by
    rw [parseInt_formatInt_eq, if_pos (by omega)]
  have hne : formatInt n ≠ "" := fun h => by simp [h, parseInt_empty] at hparse
  rw [parseLimit, if_neg hne, hparse]
  simp only
  rw [if_neg (by omega)]

theorem parseBeforeID_formatInt {n : ℤ} (h₁ : 0 < n) (h₂ : n < 2 ^ 63) :
    formatInt n ≠ "" ∧ parseBeforeID (formatInt n) = .ok n := by
  have hparse : parseInt (formatInt n) = some n := by
    rw [parseInt_formatInt_eq, if_pos (by omega)]
  have hne : formatInt n ≠ "" := fun h => by simp [h, parseInt_empty] at hparse
  refine ⟨hne, ?_⟩
  rw [parseBeforeID, if_neg hne, hparse]
  simp only
  rw [if_neg (by omega)]

/-- A query that is accepted, field by field. -/
theorem parseSearch_eq_ok {p : AuditFilters} {limit : ℤ} {c : Criteria} :
    parseSearch layouts (searchValues p) = .ok (limit, c) ↔
      parseLimit p.limit = .ok limit ∧
      parseBound layouts p.since .invalidSince = .ok c.since ∧
      parseBound layouts p.until .invalidUntil = .ok c.until ∧
      parseBeforeID p.beforeID = .ok c.beforeID ∧
      ¬(p.stage ≠ "" ∧ p.stage ∉ validAuditStages.map Stage.text) ∧
      c.traceID = p.traceID ∧ c.appID = p.appID ∧ c.stage = p.stage := by
  obtain ⟨h₁, h₂, h₃, h₄, h₅, h₆, h₇⟩ := get_searchValues p
  simp only [parseSearch, h₁, h₂, h₃, h₄, h₅, h₆, h₇]
  cases parseLimit p.limit with
  | error err => simp [bind, Except.bind]
  | ok limit' =>
  cases parseBound layouts p.since .invalidSince with
  | error err => simp [bind, Except.bind]
  | ok since =>
  cases parseBound layouts p.until .invalidUntil with
  | error err => simp [bind, Except.bind]
  | ok upper =>
  cases parseBeforeID p.beforeID with
  | error err => simp [bind, Except.bind]
  | ok beforeID =>
      simp only [bind, Except.bind]
      obtain ⟨since', upper', beforeID', traceID', appID', stage'⟩ := c
      split
      · next hstage => simp [hstage]
      · next hstage =>
          simp only [hstage, Except.ok.injEq, Prod.mk.injEq, Criteria.mk.injEq, not_false_eq_true,
            true_and, eq_comm (a := p.traceID), eq_comm (a := p.appID), eq_comm (a := p.stage)]

/-- Another cursor changes nothing but the cursor. -/
theorem criteriaOf_cursor {limit n : ℤ} {c : Criteria} {b : String}
    (h : criteriaOf layouts f = .ok (limit, c)) (hb : parseBeforeID b = .ok n) :
    criteriaOf layouts { f with beforeID := b } = .ok (limit, { c with beforeID := n }) := by
  obtain ⟨h₁, h₂, h₃, -, h₅, h₆⟩ := parseSearch_eq_ok.mp h
  exact parseSearch_eq_ok.mpr ⟨h₁, h₂, h₃, hb, h₅, h₆⟩

end Requests

/-! ### One page -/

section Page

variable {layouts : TimeLayouts} {f : AuditFilters} {c : Criteria} {n : ℤ}
  {log : List (AuditRow Bytes)}

/-- What is shown of a row. -/
def shown (layouts : TimeLayouts) (row : AuditRow Bytes) : AuditDisplayRow :=
  displayRow layouts (auditResult layouts row)

/-- The rows of the log that the filters admit, newest first. -/
def matching (log : List (AuditRow Bytes)) (c : Criteria) : List (AuditRow Bytes) :=
  descending AuditRow.id (log.filter c.admits)

theorem search_eq (hc : criteriaOf layouts f = .ok (n + 1, c)) :
    search layouts log (searchValues (searchParams layouts f)) =
      .ok (((matching log c).take (n + 1).toNat).map (auditResult layouts)) := by
  rw [criteriaOf] at hc
  rw [search, hc]
  rfl

/-- A page that shows no error was searched for with its size and one more. -/
theorem criteriaOf_of_answered (hlimit : parseInt f.limit = some n) (h₁ : 1 ≤ n) (h₂ : n ≤ 499)
    (h : (auditPageData layouts log f).error = none) :
    ∃ c, criteriaOf layouts f = .ok (n + 1, c) := by
  cases hparse : criteriaOf layouts f with
  | error err =>
      have hsearch : search layouts log (searchValues (searchParams layouts f)) = .error err := by
        rw [criteriaOf] at hparse
        rw [search, hparse]
        rfl
      simp [auditPageData, hsearch] at h
  | ok parsed =>
      obtain ⟨limit, c⟩ := parsed
      have hlimit' : parseLimit (pageLimits f.limit).2 = .ok limit :=
        (parseSearch_eq_ok.mp hparse).1
      rw [pageLimits_eq hlimit h₁ h₂, parseLimit_formatInt (by omega) (by omega),
        Except.ok.injEq] at hlimit'
      exact ⟨c, by rw [hlimit']⟩

/-- The last page: it shows all the rows that are left. -/
theorem auditPageData_last (hlimit : parseInt f.limit = some n) (h₁ : 1 ≤ n) (h₂ : n ≤ 499)
    (hc : criteriaOf layouts f = .ok (n + 1, c)) (hlen : (matching log c).length ≤ n.toNat) :
    (auditPageData layouts log f).error = none ∧ (auditPageData layouts log f).filters = f ∧
      (auditPageData layouts log f).rows = (matching log c).map (shown layouts) ∧
      (auditPageData layouts log f).nextURL = none := by
  have hsize : (pageLimits f.limit).1 = n.toNat := by rw [pageLimits_eq hlimit h₁ h₂]
  have htake : (matching log c).take (n + 1).toNat = matching log c :=
    List.take_of_length_le (by omega)
  simp only [auditPageData, search_eq hc, hsize, htake, List.length_map]
  rw [if_neg (by omega), if_neg (by omega), List.map_map]
  exact ⟨trivial, trivial, rfl, rfl⟩

/-- A page that is not the last: its link has the id of its last row as the cursor. -/
theorem auditPageData_next (hlimit : parseInt f.limit = some n) (h₁ : 1 ≤ n) (h₂ : n ≤ 499)
    (hc : criteriaOf layouts f = .ok (n + 1, c)) (hlen : n.toNat < (matching log c).length) :
    ∃ last, ((matching log c).take n.toNat).getLast? = some last ∧
      (auditPageData layouts log f).error = none ∧ (auditPageData layouts log f).filters = f ∧
      (auditPageData layouts log f).rows =
        ((matching log c).take n.toNat).map (shown layouts) ∧
      (auditPageData layouts log f).nextURL = some (auditPageURL f (formatInt last.id)) := by
  have hsize : (pageLimits f.limit).1 = n.toNat := by rw [pageLimits_eq hlimit h₁ h₂]
  have hne : (matching log c).take n.toNat ≠ [] := by
    rw [← List.length_pos_iff, List.length_take]
    omega
  refine ⟨_, List.getLast?_eq_some_getLast hne, ?_⟩
  have hhas : 0 < n.toNat ∧
      n.toNat < ((matching log c).take (n + 1).toNat).length := by
    rw [List.length_take]
    omega
  have htake : ((matching log c).take (n + 1).toNat).take n.toNat =
      (matching log c).take n.toNat := by
    rw [List.take_take, min_eq_left (by omega)]
  simp only [auditPageData, search_eq hc, hsize, List.length_map]
  rw [if_pos hhas, if_pos hhas, ← List.map_take, htake, List.map_map, List.getLast?_map,
    List.getLast?_eq_some_getLast hne]
  exact ⟨trivial, trivial, rfl, rfl⟩

/-- Below an admitted row, its id is the only cursor that counts. -/
theorem admits_below {last row : AuditRow Bytes} (hlast : c.admits last = true)
    (hpos : 0 < last.id) :
    ({ c with beforeID := last.id } : Criteria).admits row =
      (c.admits row && decide (row.id < last.id)) := by
  simp only [Criteria.admits, Bool.and_eq_true, Bool.or_eq_true, decide_eq_true_eq] at hlast
  have hcursor := hlast.2
  rw [Bool.eq_iff_iff]
  simp only [Criteria.admits, Bool.and_eq_true, Bool.or_eq_true, decide_eq_true_eq]
  constructor
  · rintro ⟨hcore, hbelow⟩
    exact ⟨⟨hcore, by omega⟩, by omega⟩
  · rintro ⟨⟨hcore, -⟩, hbelow⟩
    exact ⟨hcore, by omega⟩

/-- The next request finds the rows that this page did not show, whatever was appended
in the meantime. -/
theorem matching_next {log' new : List (AuditRow Bytes)} {last : AuditRow Bytes} {k : ℕ}
    (hnodup : (log.map AuditRow.id).Nodup) (hlog : log' = log ++ new)
    (hnew : ∀ row ∈ new, ∀ old ∈ log, old.id < row.id)
    (hlast : ((matching log c).take k).getLast? = some last) (hpos : 0 < last.id) :
    matching log' { c with beforeID := last.id } = (matching log c).drop k := by
  have hmem : last ∈ log.filter c.admits :=
    mem_descending.mp (List.mem_of_mem_take (List.mem_of_getLast? hlast))
  obtain ⟨hmem, hadmits⟩ := List.mem_filter.mp hmem
  have hfilter : log'.filter ({ c with beforeID := last.id } : Criteria).admits =
      (log.filter c.admits).filter fun row => row.id < last.id := by
    have hnone : new.filter ({ c with beforeID := last.id } : Criteria).admits = [] := by
      refine List.filter_eq_nil_iff.mpr fun row hrow => ?_
      have habove := hnew row hrow last hmem
      rw [admits_below hadmits hpos]
      simp [habove.le]
    rw [hlog, List.filter_append, hnone, List.append_nil, List.filter_filter]
    refine List.filter_congr fun row _ => ?_
    rw [admits_below hadmits hpos, Bool.and_comm]
  have hnodup' : ((log.filter c.admits).map AuditRow.id).Nodup :=
    hnodup.sublist (List.filter_sublist.map _)
  rw [matching, hfilter, ← filter_descending hnodup', ← matching]
  exact filter_lt_eq_drop (pairwise_descending hnodup') hlast

end Page

/-! ### The walk -/

section Walk

variable {layouts : TimeLayouts} {now : ℕ → Time} {n : ℤ}

/-- The pages from a request on show the rows it matches. -/
theorem followNext_from (log : ℕ → List (AuditRow Bytes)) (h₁ : 1 ≤ n) (h₂ : n ≤ 499)
    (hnodup : ∀ k, ((log k).map AuditRow.id).Nodup)
    (hgrow : ∀ k, ∃ new, log (k + 1) = log k ++ new ∧ ∀ row ∈ new, ∀ old ∈ log k, old.id < row.id)
    (rest : List (AuditRow Bytes)) (k : ℕ) (url : PageURL) (f : AuditFilters) (c : Criteria)
    (hf : requestFilters layouts (now k) url = f) (hlimit : parseInt f.limit = some n)
    (hc : criteriaOf layouts f = .ok (n + 1, c)) (hrest : matching (log k) c = rest)
    (hids : ∀ row ∈ rest, 0 < row.id ∧ row.id < 2 ^ 63) :
    ∃ fuel pages,
      followNext (fun k => handleAuditPage layouts (now k) (log k)) fuel k url = some pages ∧
      pages.flatMap AuditPage.rows = rest.map (shown layouts) ∧
      ∀ page ∈ pages, page.error = none ∧
        { page.filters with beforeID := f.beforeID } = f := by
  -- on the number of rows that are left
  induction hm : rest.length using Nat.strong_induction_on generalizing rest k url f c with
  | _ m ih =>
  subst hm
  have hpage : handleAuditPage layouts (now k) (log k) url = auditPageData layouts (log k) f := by
    rw [handleAuditPage, hf]
  by_cases hlen : rest.length ≤ n.toNat
  · obtain ⟨herr, hfilters, hrows, hnext⟩ :=
      auditPageData_last hlimit h₁ h₂ hc (hrest ▸ hlen)
    refine ⟨1, [auditPageData layouts (log k) f], ?_, ?_, ?_⟩
    · simp only [followNext, hpage, hnext]
    · simp [hrows, hrest]
    · simp [herr, hfilters]
  · obtain ⟨last, hlast, herr, hfilters, hrows, hnext⟩ :=
      auditPageData_next hlimit h₁ h₂ hc (hrest ▸ not_le.mp hlen)
    obtain ⟨hpos, hmax⟩ := hids last (hrest ▸ List.mem_of_mem_take (List.mem_of_getLast? hlast))
    obtain ⟨hne, hcursor⟩ :=
      parseBeforeID_formatInt (n := last.id) (by exact_mod_cast hpos) (by exact_mod_cast hmax)
    have hnonempty : f.limit ≠ "" := fun h => by simp [h, parseInt_empty] at hlimit
    have hnormal : f.Normalized layouts := hf ▸ requestFilters_normalized url
    obtain ⟨new, hlog, hnew⟩ := hgrow k
    have hrest' : matching (log (k + 1)) { c with beforeID := last.id } = rest.drop n.toNat :=
      (matching_next (hnodup k) hlog hnew hlast hpos).trans (by rw [hrest])
    obtain ⟨fuel, pages, hfollow, hshown, hsame⟩ :=
      ih _ (by rw [List.length_drop]; omega) _ (k + 1) (auditPageURL f (formatInt last.id))
        { f with beforeID := formatInt last.id } { c with beforeID := last.id }
        (requestFilters_auditPageURL hnormal hnonempty hne) hlimit (criteriaOf_cursor hc hcursor)
        hrest' (fun row hrow => hids row (List.mem_of_mem_drop hrow)) rfl
    refine ⟨fuel + 1, auditPageData layouts (log k) f :: pages, ?_, ?_, ?_⟩
    · simp only [followNext, hpage, hnext, hfollow, Option.map_some]
    · rw [List.flatMap_cons, hrows, hshown, hrest, ← List.map_append, List.take_append_drop]
    · intro page hmem
      obtain rfl | hmem := List.mem_cons.mp hmem
      · simp [herr, hfilters]
      · obtain ⟨hok, heq⟩ := hsame page hmem
        refine ⟨hok, ?_⟩
        exact congrArg (fun g : AuditFilters => { g with beforeID := f.beforeID }) heq

variable {P : Type} [DecidableEq P] {sha : Sha256} {r : Rendering} {stored : Columns → Columns}

/-- Following the "다음" links from any request that is answered, with `1 ≤ n ≤ 499` rows a
page and any writes to the log before the first request and between two requests: the
links come to an end, every page has the filters of the first, and together they show
the rows that matched the first request in its snapshot, newest first and each once. -/
theorem auditPages_complete (layouts : TimeLayouts) (now : ℕ → Time)
    (initial : List (AuditRow Bytes)) (lastID : ℕ) (hids : (initial.map AuditRow.id).Nodup)
    (hseq : ∀ row ∈ initial, row.id ≤ lastID) (state : ℕ → LogState P)
    (schedule : ℕ → List (Action P))
    (hfirst : run (step sha r stored) (LogState.quiet initial lastID) (schedule 0) =
      some (state 0))
    (hnext : ∀ k, run (step sha r stored) (state k) (schedule (k + 1)) = some (state (k + 1)))
    (hrange : ∀ row ∈ (state 0).rows, 0 < row.id ∧ row.id < 2 ^ 63)
    (url : PageURL) {n : ℤ} (h₁ : 1 ≤ n) (h₂ : n ≤ 499)
    (hlimit : parseInt (requestFilters layouts (now 0) url).limit = some n)
    (hanswered : (handleAuditPage layouts (now 0) (state 0).rows url).error = none) :
    ∃ c fuel pages,
      criteriaOf layouts (requestFilters layouts (now 0) url) = .ok (n + 1, c) ∧
      followNext (fun k => handleAuditPage layouts (now k) (state k).rows) fuel 0 url =
        some pages ∧
      pages.flatMap AuditPage.rows = (matching (state 0).rows c).map (shown layouts) ∧
      ((pages.flatMap AuditPage.rows).map AuditDisplayRow.id).Pairwise (· > ·) ∧
      ∀ page ∈ pages, page.error = none ∧
        { page.filters with beforeID := (requestFilters layouts (now 0) url).beforeID } =
          requestFilters layouts (now 0) url := by
  have hinv : ∀ k, LockInv DistinctIds HighestId (state k) := by
    intro k
    induction k with
    | zero => exact (rows_run (lockInv_quiet hids hseq) hfirst).1
    | succ k ih => exact (rows_run ih (hnext k)).1
  obtain ⟨c, hc⟩ := criteriaOf_of_answered hlimit h₁ h₂ hanswered
  obtain ⟨fuel, pages, hfollow, hshown, hsame⟩ :=
    followNext_from (fun k => (state k).rows) h₁ h₂ (fun k => (hinv k).good)
      (fun k => (rows_run (hinv k) (hnext k)).2) _ 0 url _ c rfl hlimit hc rfl
      fun row hrow => hrange row (List.mem_of_mem_filter (mem_descending.mp hrow))
  refine ⟨c, fuel, pages, hc, hfollow, hshown, ?_, hsame⟩
  rw [hshown, List.map_map, List.pairwise_map]
  refine (pairwise_descending ?_).imp fun h => ?_
  · exact List.Nodup.sublist (List.filter_sublist.map _) (hinv 0).good
  · exact Int.ofNat_lt.mpr h

end Walk

/-- A request that came in on a day of 2024. -/
def receivedRow (id : ℕ) (month day : ℤ) : AuditRow Bytes where
  id := id
  cols := insertValues (date 2024 month day 12 0 0 0) { stage := .received } (.map [])
  prevHash := []
  rowHash := []

/-- A request of the viewer writes a row itself. -/
def viewerWrites : List (Action Unit) :=
  [.beginTx () { stage := .received }, .lock (), .startInsert (),
    .finishInsert () (date 2024 3 1 13 0 0 0) 0, .commit ()]

def leapRows : List (AuditRow Bytes) :=
  [receivedRow 1 2 28, receivedRow 2 2 29, receivedRow 4 2 29, receivedRow 5 3 1]

/-- Pages of two rows from 29 February on, over three of four rows, with a row appended before the
second request. -/
theorem leapRows_complete :
    ∃ s : LogState Unit,
      run (step sampleSha sampleRendering id) (.quiet leapRows 5) viewerWrites = some s ∧
      s.rows.map AuditRow.id = [1, 2, 4, 5, 6] ∧
      ∃ fuel pages,
        followNext (fun k => handleAuditPage utcLayouts (date 2024 3 1 13 0 0 0)
            (if k = 0 then leapRows else s.rows)) fuel 0
          (some [("stage", "received"), ("since", "2024-02-29"), ("limit", "2")]) = some pages ∧
        (pages.flatMap AuditPage.rows).map (fun row => (row.id, row.time)) =
          [(5, "03-01 12:00"), (4, "02-29 12:00"), (2, "02-29 12:00")] := by
  let now := date 2024 3 1 13 0 0 0
  let url : PageURL := some [("stage", "received"), ("since", "2024-02-29"), ("limit", "2")]
  have hfinal : (run (step sampleSha sampleRendering id) (LogState.quiet (P := Unit) leapRows 5)
      viewerWrites).map (fun s => s.rows.map AuditRow.id) = some [1, 2, 4, 5, 6] := by
    decide +kernel
  obtain ⟨s, hrun, hrows⟩ := Option.map_eq_some_iff.mp hfinal
  have hnext : ∀ k, run (step sampleSha sampleRendering id)
      (if k = 0 then LogState.quiet leapRows 5 else s) (if k = 0 then viewerWrites else []) =
        some (if k + 1 = 0 then LogState.quiet leapRows 5 else s) := by
    intro k
    cases k with
    | zero => exact hrun
    | succ k => rfl
  have hanswered : (handleAuditPage utcLayouts now leapRows url).error = none := by decide +kernel
  obtain ⟨c, fuel, pages, hc, hfollow, hshown, -, -⟩ :=
    auditPages_complete utcLayouts (fun _ => now) leapRows 5 (by decide)
      (by decide) (fun k => if k = 0 then LogState.quiet leapRows 5 else s)
      (fun k => if k = 1 then viewerWrites else []) rfl (fun k => by simpa using hnext k)
      (show ∀ row ∈ leapRows, _ by decide) url (n := 2) (by decide) (by decide) (by decide +kernel)
      hanswered
  refine ⟨s, hrun, hrows, fuel, pages, ?_, ?_⟩
  · have hrequests :
        (fun k => handleAuditPage utcLayouts now (if k = 0 then leapRows else s.rows)) =
        fun k => handleAuditPage utcLayouts now
          (if k = 0 then LogState.quiet leapRows 5 else s).rows := by
      funext k
      rw [apply_ite LogState.rows]
      rfl
    exact (congrArg (fun requests => followNext requests fuel 0 url) hrequests).trans hfollow
  · have hcriteria : criteriaOf utcLayouts (requestFilters utcLayouts now url) =
        .ok (3, ⟨some (date 2024 2 29 0 0 0 0), none, 0, "", "", "received"⟩) := by
      decide +kernel
    obtain rfl := (Prod.mk.inj (Except.ok.inj (hc.symm.trans hcriteria))).2
    rw [hshown, List.map_map]
    change (matching leapRows _).map _ = _
    decide +kernel

end TelegramServer.Adminui

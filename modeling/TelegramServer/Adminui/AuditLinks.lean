import TelegramServer.Adminui.AuditPages
import TelegramServer.Audit.Payload
import TelegramServer.Go.Url

/-!
The links of the audit log viewer as texts (`internal/adminui/audit.go`,
`internal/adminui/apiclient/audit.go`). In `AuditPages` a query string is the list of its values.
Here a link is the bytes that `auditPageURL` writes, escaped and in the order of the keys, and the
next request is read from those bytes. The same happens once more between the viewer and the
server, where `SearchAudit` writes the query and `Search` reads it. The walk along the texts is
compared with the walk along the values.

The values of the model are texts, and a request with a value that is not UTF-8 has no page here.
-/

namespace TelegramServer.Adminui

open Go Lib Audit

/-! ### Links as texts -/

namespace Values

def bytes (vs : Values) : QueryValues := vs.map fun p => (utf8 p.1, utf8 p.2)

/-- The values in the order of `Encode`. -/
def inKeyOrder (vs : Values) : Values := sortBy (fun p => (utf8 p.1).map UInt8.toNat) vs

end Values

def readPair (p : Bytes × Bytes) : Option (String × String) := do
  return (← fromUtf8 p.1, ← fromUtf8 p.2)

/-- The values of a query as texts, `none` where one is not UTF-8. -/
def readValues (q : QueryValues) : Option Values := q.mapM readPair

/-- A path with the query of some values, and the bare path if there are none. -/
def withQuery (path : String) (vs : Values) : Bytes :=
  if vs.isEmpty then utf8 path else utf8 path ++ 0x3f :: vs.bytes.encode

/-- The text that `auditPageURL` makes. -/
def auditLink (url : PageURL) : Bytes := withQuery "/audit" (url.getD [])

/-- The path that `SearchAudit` asks for. -/
def searchLink (p : AuditFilters) : Bytes := withQuery "/admin/audit/search" (searchValues p)

/-- What `handleAuditPage` reads from a link. -/
def readLink (link : Bytes) : Option PageURL :=
  if rawQuery link = [] then some none else (readValues (parseQuery (rawQuery link))).map some

/-- `Search`, for the text of a request. -/
def answerSearch (layouts : TimeLayouts) (rows : List (AuditRow Bytes)) (link : Bytes) :
    Option (Except SearchErr (List AuditResult)) :=
  (readValues (parseQuery (rawQuery link))).map (search layouts rows)

/-- A page whose links are texts. -/
structure LinkedPage where
  filters : AuditFilters
  error : Option String := none
  rows : List AuditDisplayRow := []
  nextURL : Option Bytes := none
  firstURL : Option Bytes := none

/-- `auditPageData`, with the search and the links as texts. -/
def linkedPageData (layouts : TimeLayouts) (log : List (AuditRow Bytes)) (filters : AuditFilters) :
    Option LinkedPage := do
  let pageSize := (pageLimits filters.limit).1
  match ← answerSearch layouts log (searchLink (searchParams layouts filters)) with
  | .error err => return { filters := filters, error := some (friendlyAPIError err) }
  | .ok results =>
      let hasNext := 0 < pageSize ∧ pageSize < results.length
      let rows := (if hasNext then results.take pageSize else results).map (displayRow layouts)
      return {
        filters := filters
        rows := rows
        nextURL :=
          if hasNext then
            rows.getLast?.map fun last => auditLink (auditPageURL filters (formatInt last.id))
          else none
        firstURL :=
          if filters.beforeID ≠ "" then some (auditLink (auditPageURL filters "")) else none }

def handleAuditLink (layouts : TimeLayouts) (now : Time) (log : List (AuditRow Bytes))
    (link : Bytes) : Option LinkedPage :=
  (readLink link).bind fun url => linkedPageData layouts log (requestFilters layouts now url)

/-- The pages from `link` on, following the "다음" links as they are written on them. -/
def followLinks (fetch : ℕ → Bytes → Option LinkedPage) :
    ℕ → ℕ → Bytes → Option (List LinkedPage)
  | 0, _, _ => none
  | fuel + 1, k, link =>
      (fetch k link).bind fun page =>
        match page.nextURL with
        | none => some [page]
        | some next => (followLinks fetch fuel (k + 1) next).map (page :: ·)

/-- The page with its links written out. -/
def AuditPage.linked (page : AuditPage) : LinkedPage where
  filters := page.filters
  error := page.error
  rows := page.rows
  nextURL := page.nextURL.map auditLink
  firstURL := page.firstURL.map auditLink

example : auditLink (auditPageURL { appID := "R&D", traceID := "t 1", limit := "10" } "7") =
    utf8 "/audit?app_id=R%26D&before_id=7&limit=10&trace_id=t+1" := by
  decide +kernel

/-! ### Reading what was written -/

theorem readValues_bytes (vs : Values) : readValues vs.bytes = some vs := by
  induction vs with
  | nil => rfl
  | cons p vs ih =>
      have hpair : readPair (utf8 p.1, utf8 p.2) = some p := by
        simp [readPair, fromUtf8_utf8]
      rw [readValues, Values.bytes, List.map_cons, List.mapM_cons, hpair]
      rw [readValues, Values.bytes] at ih
      rw [ih]
      rfl

/-- The values come back in the order of the keys. -/
theorem readValues_parseQuery (vs : Values) :
    readValues (parseQuery vs.bytes.encode) = some vs.inKeyOrder := by
  have hsorted : vs.bytes.inKeyOrder = vs.inKeyOrder.bytes :=
    sortBy_map _ _ _ vs fun _ => rfl
  rw [parseQuery_encode, hsorted, readValues_bytes]

/-- The order of the keys does not matter, since values of one key stay in their order. -/
@[simp] theorem Values.get_inKeyOrder (vs : Values) (key : String) :
    vs.inKeyOrder.get key = vs.get key := by
  have hfilter : (vs.inKeyOrder.filter fun p => p.1 = key) = vs.filter fun p => p.1 = key := by
    refine filter_sortBy fun a _ b _ ha hb => ?_
    rw [of_decide_eq_true ha, of_decide_eq_true hb]
  rw [Values.get, Values.get, ← List.head?_filter, ← List.head?_filter, hfilter]

theorem encode_bytes_eq_nil {vs : Values} (h : vs.bytes.encode = []) : vs = [] := by
  have hread := readValues_parseQuery vs
  rw [h] at hread
  have hlength := congrArg List.length (Option.some.inj hread)
  rw [Values.inKeyOrder, length_sortBy] at hlength
  exact List.length_eq_zero_iff.mp hlength.symm

theorem rawQuery_withQuery {path : String} (hpath : 0x3f ∉ utf8 path) (vs : Values) :
    rawQuery (withQuery path vs) = vs.bytes.encode := by
  cases vs with
  | nil => exact rawQuery_of_notMem hpath
  | cons p vs => exact rawQuery_append hpath _

/-- A link leads to the page it was made for. -/
theorem readLink_auditLink {url : PageURL} (hurl : url ≠ some []) :
    readLink (auditLink url) = some (url.map Values.inKeyOrder) := by
  rw [readLink, auditLink, rawQuery_withQuery (by decide)]
  cases url with
  | none => rfl
  | some vs =>
      have hvs : vs ≠ [] := fun h => hurl (congrArg some h)
      rw [Option.getD_some, if_neg fun h => hvs (encode_bytes_eq_nil h), readValues_parseQuery]
      rfl

theorem requestFilters_inKeyOrder (layouts : TimeLayouts) (now : Time) (url : PageURL) :
    requestFilters layouts now (url.map Values.inKeyOrder) = requestFilters layouts now url := by
  cases url with
  | none => rfl
  | some vs => simp only [Option.map_some, requestFilters, Values.get_inKeyOrder]

theorem search_inKeyOrder (layouts : TimeLayouts) (rows : List (AuditRow Bytes)) (vs : Values) :
    search layouts rows vs.inKeyOrder = search layouts rows vs := by
  simp only [search, parseSearch, Values.get_inKeyOrder]

/-- The server gets the search the viewer asks for. -/
theorem answerSearch_searchLink (layouts : TimeLayouts) (rows : List (AuditRow Bytes))
    (p : AuditFilters) :
    answerSearch layouts rows (searchLink p) = some (search layouts rows (searchValues p)) := by
  rw [answerSearch, searchLink, rawQuery_withQuery (by decide), readValues_parseQuery,
    Option.map_some, search_inKeyOrder]

/-! ### The walk -/

section Walk

variable {layouts : TimeLayouts} {now : Time} {log : List (AuditRow Bytes)}

theorem linkedPageData_eq (layouts : TimeLayouts) (log : List (AuditRow Bytes))
    (filters : AuditFilters) :
    linkedPageData layouts log filters = some (auditPageData layouts log filters).linked := by
  rw [linkedPageData, answerSearch_searchLink, auditPageData]
  cases search layouts log (searchValues (searchParams layouts filters)) with
  | error err => rfl
  | ok results =>
      simp only [Option.bind_eq_bind, Option.bind_some, Option.pure_def, AuditPage.linked]
      congr 2
      · split
        · rw [Option.map_map]
          rfl
        · rfl
      · split <;> rfl

theorem handleAuditLink_eq (layouts : TimeLayouts) (now : Time) (log : List (AuditRow Bytes))
    (link : Bytes) :
    handleAuditLink layouts now log link =
      (readLink link).map fun url => (handleAuditPage layouts now log url).linked := by
  cases h : readLink link with
  | none => rw [handleAuditLink, h, Option.bind_none, Option.map_none]
  | some url => rw [handleAuditLink, h, Option.bind_some, linkedPageData_eq, Option.map_some,
      handleAuditPage]

theorem auditPageURL_ne_some_nil (f : AuditFilters) (beforeID : String) :
    auditPageURL f beforeID ≠ some [] := by
  unfold auditPageURL
  dsimp only
  split
  · exact Option.some_ne_none _ ∘ Eq.symm
  · next h => exact fun heq => h (by rw [Option.some.inj heq]; rfl)

theorem nextURL_ne_some_nil {url next : PageURL}
    (h : (handleAuditPage layouts now log url).nextURL = some next) : next ≠ some [] := by
  unfold handleAuditPage auditPageData at h
  dsimp only at h
  split at h
  · cases h
  · dsimp only at h
    split at h
    · obtain ⟨last, -, rfl⟩ := Option.map_eq_some_iff.mp h
      exact auditPageURL_ne_some_nil _ _
    · cases h

/-- A walk only depends on what its first request gets. -/
theorem followNext_congr {fetch : ℕ → PageURL → AuditPage} {k : ℕ} {url url' : PageURL}
    (h : fetch k url = fetch k url') (fuel : ℕ) :
    followNext fetch fuel k url = followNext fetch fuel k url' := by
  cases fuel with
  | zero => rfl
  | succ fuel => rw [followNext, followNext, h]

/-- **The texts carry the walk.** From every link whose values are UTF-8, whatever characters they
have, the "다음" links as texts lead through exactly the pages of the walk along the values, with
each request and each search written and read on the way, and while the log grows between them. -/
theorem followLinks_eq (layouts : TimeLayouts) (now : ℕ → Time) (log : ℕ → List (AuditRow Bytes))
    (fuel k : ℕ) (link : Bytes) :
    followLinks (fun k => handleAuditLink layouts (now k) (log k)) fuel k link =
      (readLink link).bind fun url =>
        (followNext (fun k => handleAuditPage layouts (now k) (log k)) fuel k url).map
          (List.map AuditPage.linked) := by
  induction fuel generalizing k link with
  | zero => cases readLink link <;> rfl
  | succ fuel ih =>
      rw [followLinks, handleAuditLink_eq]
      cases readLink link with
      | none => rfl
      | some url =>
          rw [Option.map_some, Option.bind_some, Option.bind_some, followNext]
          cases hnext : (handleAuditPage layouts (now k) (log k) url).nextURL with
          | none => simp [AuditPage.linked, hnext]
          | some next =>
              -- the next request is read from the text of the link, in the order of the keys
              have hsame :
                  followNext (fun k => handleAuditPage layouts (now k) (log k)) fuel (k + 1)
                      (next.map Values.inKeyOrder) =
                    followNext (fun k => handleAuditPage layouts (now k) (log k)) fuel (k + 1)
                      next :=
                followNext_congr (by simp only [handleAuditPage, requestFilters_inKeyOrder]) fuel
              have hlink : (handleAuditPage layouts (now k) (log k) url).linked.nextURL =
                  some (auditLink next) := by
                rw [AuditPage.linked, hnext, Option.map_some]
              simp only [hlink, ih, readLink_auditLink (nextURL_ne_some_nil hnext),
                Option.bind_some, hsame, Option.map_map, Function.comp_def, List.map_cons]

end Walk

end TelegramServer.Adminui

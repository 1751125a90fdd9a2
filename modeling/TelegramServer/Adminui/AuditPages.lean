import TelegramServer.Audit.Writer
import TelegramServer.Go.Rfc3339
import TelegramServer.Go.Strconv

/-!
The audit log viewer (`internal/adminui/audit.go`), the search it asks the server for
(`internal/adminui/apiclient/audit.go`, `internal/api/handlers/admin_audit.go`), and
what an operator sees who follows the "다음" links from a first page to the last.

The viewer asks for one row more than it shows. The row too many tells it that there
is another page, and the id of the last row shown is the cursor of that page. Between
two pages the writers append to the log, with ids above all those there were, so a
page below a cursor never sees what they added.

A query string is the list of its decoded values, and a JSON answer the rows it was
made from: encoding and decoding are taken to be inverse. The database is taken to
answer. How the pages offer the filters (the lists of stages, limits and apps) is left
out, since nothing depends on it.
-/

namespace TelegramServer.Adminui

open Go Lib Audit

/-! ### Query strings -/

/-- `url.Values`, in the order of the query string. -/
abbrev Values := List (String × String)

namespace Values

/-- `Get`: the first value, or the empty text. -/
def get (vs : Values) (key : String) : String :=
  ((vs.find? fun p => p.1 = key).map Prod.snd).getD ""

/-- `Set` where the text is not empty, as the `set` of both callers does it. -/
def set (vs : Values) (key value : String) : Values :=
  if value ≠ "" then vs.filter (fun p => p.1 ≠ key) ++ [(key, value)] else vs

@[simp] theorem get_nil (key : String) : get [] key = "" := rfl

theorem get_set_self {vs : Values} {key : String} (hvs : vs.get key = "") (value : String) :
    (vs.set key value).get key = value := by
  unfold set
  split
  · have hnone : (vs.filter fun p => p.1 ≠ key).find? (fun p => p.1 = key) = none := by
      simp [List.find?_eq_none]
    rw [get, List.find?_append, hnone]
    simp
  · next hempty => rw [hvs, not_not.mp hempty]

@[simp] theorem get_set_nil (key value : String) : (Values.set [] key value).get key = value :=
  get_set_self rfl value

theorem get_set_ne (vs : Values) {key key' : String} (hne : key' ≠ key) (value : String) :
    (vs.set key value).get key' = vs.get key' := by
  unfold set
  split
  · have hfind : (vs.filter fun p => p.1 ≠ key).find? (fun p => p.1 = key') =
        vs.find? fun p => p.1 = key' := by
      rw [List.find?_filter]
      congr 1
      funext p
      by_cases hp : p.1 = key'
      · simp [hp, hne]
      · simp [hp]
    have hnew : [(key, value)].find? (fun p => p.1 = key') = none := by simp [Ne.symm hne]
    rw [get, List.find?_append, hfind, hnew, Option.or_none, get]
  · rfl

end Values

/-- A path with or without a query string: `none` is the bare path. -/
abbrev PageURL := Option Values

/-! ### Dates -/

/-- The layouts of package `time` that are used here. A date is not in the layout of
RFC 3339, which asks for a `T` after it. -/
structure TimeLayouts where
  parseRFC3339 : String → Option Time
  /-- `t.UTC().Format(time.RFC3339)`. -/
  formatRFC3339 : Time → String
  /-- `time.Parse("2006-01-02", v)`. -/
  parseDate : String → Option Time
  /-- `t.UTC().Format("2006-01-02")`. -/
  formatDate : Time → String
  /-- `t.Format("01-02 15:04")`. -/
  formatLabel : Time → String
  parseRFC3339_formatDate : ∀ t, parseRFC3339 (formatDate t) = none
  parseRFC3339_empty : parseRFC3339 "" = none

/-- The layouts on a server in UTC. -/
def utcLayouts : TimeLayouts where
  parseRFC3339 := parseRFC3339
  formatRFC3339 := formatRFC3339
  parseDate := parseDate
  formatDate := format .day
  formatLabel := formatLabel
  parseRFC3339_formatDate := parseRFC3339_format_day
  parseRFC3339_empty := by decide +kernel

def day : ℤ := 24 * 3600 * second

structure AuditFilters where
  limit : String := ""
  since : String := ""
  «until» : String := ""
  traceID : String := ""
  appID : String := ""
  stage : String := ""
  beforeID : String := ""
  deriving DecidableEq

def defaultAuditLimit : String := "10"

section Dates

variable (layouts : TimeLayouts)

def defaultAuditFilters (now : Time) : AuditFilters where
  since := layouts.formatDate now
  limit := defaultAuditLimit

def auditDateToRFC3339 (v : String) (endOfDay : Bool) : String :=
  match layouts.parseDate v with
  | none => v
  | some t =>
      if v = "" then v else layouts.formatRFC3339 (if endOfDay then t + day else t)

def normalizeAuditDate (v : String) : String :=
  match layouts.parseRFC3339 v with
  | some t => layouts.formatDate t
  | none => v

@[simp] theorem normalizeAuditDate_formatDate (t : Time) :
    normalizeAuditDate layouts (layouts.formatDate t) = layouts.formatDate t := by
  rw [normalizeAuditDate, layouts.parseRFC3339_formatDate]

@[simp] theorem normalizeAuditDate_empty : normalizeAuditDate layouts "" = "" := by
  rw [normalizeAuditDate, layouts.parseRFC3339_empty]

@[simp] theorem normalizeAuditDate_idem (v : String) :
    normalizeAuditDate layouts (normalizeAuditDate layouts v) = normalizeAuditDate layouts v := by
  cases hv : layouts.parseRFC3339 v with
  | none => simp [normalizeAuditDate, hv]
  | some t =>
      have heq : normalizeAuditDate layouts v = layouts.formatDate t := by
        simp [normalizeAuditDate, hv]
      rw [heq, normalizeAuditDate_formatDate]

end Dates

/-! ### The search -/

inductive SearchErr
  | invalidLimit | invalidSince | invalidUntil | invalidBeforeID | invalidStage
  deriving DecidableEq

def SearchErr.code : SearchErr → String
  | .invalidLimit => "invalid_limit"
  | .invalidSince => "invalid_since"
  | .invalidUntil => "invalid_until"
  | .invalidBeforeID => "invalid_before_id"
  | .invalidStage => "invalid_stage"

/-- `friendlyAPIError`, for the errors of a search. -/
def friendlyAPIError : SearchErr → String
  | .invalidLimit => "limit은 1~500 사이 숫자여야 합니다"
  | .invalidBeforeID => "페이지 커서(before_id)가 올바르지 않습니다"
  | .invalidSince => "since는 RFC3339 형식이어야 합니다 (예: 2026-07-06T00:00:00Z)"
  | .invalidUntil => "until은 RFC3339 형식이어야 합니다 (예: 2026-07-06T00:00:00Z)"
  | .invalidStage => "stage 값이 올바르지 않습니다"

def validAuditStages : List Stage :=
  [.received, .validated, .dispatched, .delivered, .denied, .retried, .deferred, .intrusionKick,
    .intrusionUnmitigated, .botNotAdmin, .telegramAuthFailed, .keyIssued, .keyRevoked]

/-- The conditions of a search, without its limit. -/
@[ext]
structure Criteria where
  since : Option Time
  «until» : Option Time
  /-- `0` where there is no cursor. -/
  beforeID : ℤ
  traceID : String
  appID : String
  stage : String
  deriving DecidableEq

/-- `time.Parse(time.RFC3339, v)` of a bound that was given. -/
def parseBound (layouts : TimeLayouts) (v : String) (err : SearchErr) :
    Except SearchErr (Option Time) :=
  if v = "" then .ok none
  else
    match layouts.parseRFC3339 v with
    | some t => .ok (some t)
    | none => .error err

def parseLimit (v : String) : Except SearchErr ℤ :=
  if v = "" then .ok 50
  else
    match parseInt v with
    | some n => if n ≤ 0 ∨ 500 < n then .error .invalidLimit else .ok n
    | none => .error .invalidLimit

def parseBeforeID (v : String) : Except SearchErr ℤ :=
  if v = "" then .ok 0
  else
    match parseInt v with
    | some n => if n ≤ 0 then .error .invalidBeforeID else .ok n
    | none => .error .invalidBeforeID

/-- The part of `Search` that reads the query: the limit and the conditions. -/
def parseSearch (layouts : TimeLayouts) (q : Values) : Except SearchErr (ℤ × Criteria) := do
  let limit ← parseLimit (q.get "limit")
  let since ← parseBound layouts (q.get "since") .invalidSince
  let upper ← parseBound layouts (q.get "until") .invalidUntil
  let beforeID ← parseBeforeID (q.get "before_id")
  let stage := q.get "stage"
  if stage ≠ "" ∧ stage ∉ validAuditStages.map Stage.text then .error .invalidStage
  else
    .ok (limit,
      { since := since, «until» := upper, beforeID := beforeID, traceID := q.get "trace_id",
        appID := q.get "app_id", stage := stage })

/-- The `WHERE` clause; a comparison with NULL does not hold. -/
def Criteria.admits (c : Criteria) (row : AuditRow Bytes) : Bool :=
  (c.traceID = "" || row.cols.traceID = some c.traceID) &&
    (c.appID = "" || row.cols.appID = some c.appID) &&
    (c.stage = "" || row.cols.stage = some c.stage) &&
    (c.since.all fun t => t ≤ row.cols.time) &&
    (c.until.all fun t => row.cols.time ≤ t) &&
    (c.beforeID ≤ 0 || (row.id : ℤ) < c.beforeID)

/-- A row of the answer. -/
structure AuditResult where
  id : ℤ
  /-- The Go field `At`. -/
  time : String
  traceID : Option String
  messageID : Option String
  stage : String
  appID : Option String
  capability : Option String
  capabilitySetVer : Option ℤ
  endpoint : Option String
  routeStrategy : Option String
  deliveryChannel : Option String
  recipientUserID : Option ℤ
  recipientChatID : Option ℤ
  errorCode : Option String
  detailsJSON : Option JsonValue

def auditResult (layouts : TimeLayouts) (row : AuditRow Bytes) : AuditResult where
  id := row.id
  time := layouts.formatRFC3339 row.cols.time
  traceID := row.cols.traceID
  messageID := row.cols.messageID
  stage := row.cols.stage.getD ""
  appID := row.cols.appID
  capability := row.cols.capability
  capabilitySetVer := row.cols.capabilitySetVer
  endpoint := row.cols.endpoint
  routeStrategy := row.cols.routeStrategy
  deliveryChannel := row.cols.deliveryChannel
  recipientUserID := row.cols.recipientUserID
  recipientChatID := row.cols.recipientChatID
  errorCode := row.cols.errorCode
  detailsJSON := row.cols.detailsJSON

/-- `Search` on the committed rows: `ORDER BY id DESC LIMIT`. -/
def search (layouts : TimeLayouts) (rows : List (AuditRow Bytes)) (q : Values) :
    Except SearchErr (List AuditResult) := do
  let (limit, criteria) ← parseSearch layouts q
  .ok (((descending AuditRow.id (rows.filter criteria.admits)).take limit.toNat).map
    (auditResult layouts))

/-- The query of `SearchAudit`. -/
def searchValues (p : AuditFilters) : Values :=
  ((((((Values.set [] "limit" p.limit).set "since" p.since).set "until" p.until).set "trace_id"
    p.traceID).set "app_id" p.appID).set "stage" p.stage).set "before_id" p.beforeID

/-! ### The page -/

structure AuditDisplayRow where
  id : ℤ
  /-- The Go field `At`. -/
  time : String
  stage : String
  stageBadge : String
  appID : String
  endpoint : String
  deliveryChannel : String
  recipient : String
  errorCode : String
  traceID : String

def stageBadge (stage : String) : String :=
  if stage ∈ ["key_revoked", "denied", "intrusion_kick", "intrusion_unmitigated",
      "telegram_auth_failed", "bot_not_admin"] then "badge-red"
  else if stage ∈ ["key_issued", "delivered", "validated"] then "badge-green"
  else if stage ∈ ["received", "dispatched"] then "badge-blue"
  else if stage ∈ ["retried", "deferred"] then "badge-purple"
  else "badge-gray"

def recipientLabel (row : AuditResult) : String :=
  match row.recipientUserID, row.recipientChatID with
  | some userID, _ => formatInt userID
  | none, some chatID => "chat:" ++ formatInt chatID
  | none, none => ""

def auditTimeLabel (layouts : TimeLayouts) (v : String) : String :=
  match layouts.parseRFC3339 v with
  | some t => layouts.formatLabel t
  | none => v

def displayRow (layouts : TimeLayouts) (row : AuditResult) : AuditDisplayRow where
  id := row.id
  time := auditTimeLabel layouts row.time
  stage := row.stage
  stageBadge := stageBadge row.stage
  appID := row.appID.getD ""
  endpoint := row.endpoint.getD ""
  deliveryChannel := row.deliveryChannel.getD ""
  recipient := recipientLabel row
  errorCode := row.errorCode.getD ""
  traceID := row.traceID.getD ""

/-- What `auditPageData` puts on the page. -/
structure AuditPage where
  filters : AuditFilters
  error : Option String := none
  rows : List AuditDisplayRow := []
  nextURL : Option PageURL := none
  firstURL : Option PageURL := none

def auditPageURL (f : AuditFilters) (beforeID : String) : PageURL :=
  let v := ((((((Values.set [] "stage" f.stage).set "app_id" f.appID).set "trace_id"
    f.traceID).set "limit" f.limit).set "since" f.since).set "until" f.until).set "before_id"
    beforeID
  if v.isEmpty then none else some v

/-- The size of a page and the limit that is asked for; the size is `0` where the
limit is no positive number. The sum is one of machine integers. -/
def pageLimits (limit : String) : ℕ × String :=
  match parseInt limit with
  | some n =>
      if 0 < n then (n.toNat, formatInt (min (Int.bmod (n + 1) (2 ^ 64)) 500)) else (0, limit)
  | none => (0, limit)

/-- What `SearchAudit` is asked for. -/
def searchParams (layouts : TimeLayouts) (filters : AuditFilters) : AuditFilters :=
  { filters with
    limit := (pageLimits filters.limit).2
    since := auditDateToRFC3339 layouts filters.since false
    «until» := auditDateToRFC3339 layouts filters.until true }

def auditPageData (layouts : TimeLayouts) (log : List (AuditRow Bytes)) (filters : AuditFilters) :
    AuditPage :=
  let pageSize := (pageLimits filters.limit).1
  match search layouts log (searchValues (searchParams layouts filters)) with
  | .error err => { filters := filters, error := some (friendlyAPIError err) }
  | .ok results =>
      let hasNext := 0 < pageSize ∧ pageSize < results.length
      let rows := (if hasNext then results.take pageSize else results).map (displayRow layouts)
      { filters := filters
        rows := rows
        nextURL :=
          if hasNext then
            rows.getLast?.map fun last => auditPageURL filters (formatInt last.id)
          else none
        firstURL := if filters.beforeID ≠ "" then some (auditPageURL filters "") else none }

/-- The filters `handleAuditPage` reads from the request. -/
def requestFilters (layouts : TimeLayouts) (now : Time) : PageURL → AuditFilters
  | none => defaultAuditFilters layouts now
  | some q =>
      { limit := if q.get "limit" = "" then defaultAuditLimit else q.get "limit"
        since := normalizeAuditDate layouts (q.get "since")
        «until» := normalizeAuditDate layouts (q.get "until")
        traceID := q.get "trace_id"
        appID := q.get "app_id"
        stage := q.get "stage"
        beforeID := q.get "before_id" }

def handleAuditPage (layouts : TimeLayouts) (now : Time) (log : List (AuditRow Bytes))
    (url : PageURL) : AuditPage :=
  auditPageData layouts log (requestFilters layouts now url)

/-- The pages from `url` on, following the "다음" links. The `k`-th request is answered
by `fetch k`; `none` where the links go on after `fuel` pages. -/
def followNext (fetch : ℕ → PageURL → AuditPage) : ℕ → ℕ → PageURL → Option (List AuditPage)
  | 0, _, _ => none
  | fuel + 1, k, url =>
      match (fetch k url).nextURL with
      | none => some [fetch k url]
      | some next => (followNext fetch fuel (k + 1) next).map (fetch k url :: ·)

end TelegramServer.Adminui

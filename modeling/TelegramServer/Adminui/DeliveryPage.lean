import TelegramServer.Adminui.AuditWalk
import TelegramServer.Adminui.DeliveryQueries
import TelegramServer.Go.Url
import Mathlib.Algebra.Order.BigOperators.Group.List

/-!
The delivery page (`internal/adminui/delivery.go`). A request names a window, a screen and filters;
the page runs the query of that screen and shows recent failures, the trend of the days or a funnel
for each app, with links to the other screens.

What a chart is drawn with (coordinates, labels of the axis, tips) is left out, and so are the texts
of percentages: a width or a rate is a rational number here.
-/

namespace TelegramServer.Adminui

open Go Lib Registry Audit

/-! ### The request -/

structure DeliveryWindow where
  key : String
  label : String
  days : ℕ
  deriving DecidableEq

def deliveryWindows : List DeliveryWindow :=
  [⟨"1d", "1일", 1⟩, ⟨"7d", "7일", 7⟩, ⟨"1m", "1개월", 30⟩, ⟨"3m", "3개월", 90⟩,
    ⟨"6m", "6개월", 180⟩, ⟨"1y", "1년", 365⟩]

/-- The entry of the dropdown for `?window=`. Old links say `24h` for a day. -/
def resolveDeliveryWindow (key : Bytes) : DeliveryWindow :=
  let key := if key = utf8 "24h" then utf8 "1d" else key
  (deliveryWindows.find? fun w => utf8 w.key = key).getD ⟨"1d", "1일", 1⟩

/-- A segment of the toggle. -/
structure DeliveryScreenKey where
  key : String
  label : String
  deriving DecidableEq

def deliveryViews : List DeliveryScreenKey :=
  [⟨"failures", "최근 실패"⟩, ⟨"trend", "전달 추이"⟩, ⟨"funnel", "퍼널"⟩]

def resolveDeliveryView (key : Bytes) : String :=
  ((deliveryViews.find? fun v => utf8 v.key = key).map DeliveryScreenKey.key).getD "failures"

def deliveryStageOptions : List String :=
  deliveryFailureStages.foldl (fun opts s => if s ∈ opts then opts else opts ++ [s])
    deliveryFunnelStages

/-- What the page takes from the query of a request. -/
structure DeliveryRequest where
  window : DeliveryWindow
  view : String
  app : Bytes
  stage : Bytes
  error : Bytes
  deriving DecidableEq

def readDeliveryRequest (q : QueryValues) : DeliveryRequest where
  window := resolveDeliveryWindow (q.get (utf8 "window"))
  view := resolveDeliveryView (q.get (utf8 "view"))
  app := q.get (utf8 "app")
  stage :=
    let stage := q.get (utf8 "stage")
    if stage ∈ deliveryStageOptions.map utf8 then stage else []
  error := q.get (utf8 "error")

/-! ### The links -/

/-- `if value != "" { vals.Set(key, value) }`. -/
def setFilter (vals : QueryValues) (key : String) (value : Bytes) : QueryValues :=
  if value ≠ [] then vals.set (utf8 key) value else vals

def deliveryViewURL (r : DeliveryRequest) (view : String) : Bytes :=
  let vals := (QueryValues.set [] (utf8 "view") (utf8 view)).set (utf8 "window")
    (utf8 r.window.key)
  let vals := setFilter (setFilter (setFilter vals "app" r.app) "stage" r.stage) "error" r.error
  utf8 "/delivery" ++ 0x3f :: vals.encode

/-! ### The trend -/

structure TrendSeriesDef where
  label : String
  color : String
  stages : List String

def trendSeriesDefs (stageFilter : String) : List TrendSeriesDef :=
  if stageFilter ≠ "" then [⟨stageFilter, "#2563eb", [stageFilter]⟩]
  else
    [⟨"received", "#2563eb", ["received"]⟩, ⟨"delivered", "#16a34a", ["delivered"]⟩,
      ⟨"실패", "#dc2626", deliveryFailureStages⟩]

/-- Consecutive days that end today. -/
def trendAxis (days : ℕ) (now : Time) (i : Fin days) : Time :=
  let c := civil now
  addDate (date c.year c.month c.day 0 0 0 0) 0 0 (i - days + 1)

/-- The map `dayIndex`. -/
def dayIndex (days : ℕ) (now : Time) : String → Option (Fin days) :=
  (List.finRange days).foldl
    (fun index i => Function.update index (format .day (trendAxis days now i)) (some i))
    fun _ => none

/-- A line of the trend. -/
structure TrendLine (days : ℕ) where
  series : TrendSeriesDef
  counts : Fin days → ℕ

/-- One round of the loop over the counts: the lines, and whether one of them `matched`. -/
def trendRound {days : ℕ} (index : String → Option (Fin days)) (acc : List (TrendLine days) × Bool)
    (c : StageDayCount) : List (TrendLine days) × Bool :=
  match index (format .day c.day) with
  | none => acc
  | some i =>
      (acc.1.map fun line =>
        if c.stage ∈ line.series.stages then
          { line with counts := Function.update line.counts i (line.counts i + c.count) }
        else line,
      acc.2 || acc.1.any fun line => c.stage ∈ line.series.stages)

/-- The lines that are drawn, `none` where there is no chart. -/
def buildTrendChart (counts : List StageDayCount) (days : ℕ) (stageFilter : String) (now : Time) :
    Option (List (TrendLine days)) :=
  if counts.isEmpty then none
  else
    let (lines, matched) := counts.foldl (trendRound (dayIndex days now))
      ((trendSeriesDefs stageFilter).map fun series => ⟨series, fun _ => 0⟩, false)
    if matched then some lines else none

/-! ### The funnels -/

structure FunnelBar where
  stage : String
  count : ℕ
  widthPct : ℚ

structure AppFunnel where
  appID : String
  received : ℕ
  delivered : ℕ
  denied : ℕ
  retried : ℕ
  deferred : ℕ
  /-- `none` where nothing was received. -/
  successRate : Option ℚ
  bars : List FunnelBar

/-- The widest of the four stages, at least 1. -/
def maxCount (stages : String → ℕ) : ℕ :=
  funnelStageOrder.foldl (fun m stage => if m < stages stage then stages stage else m) 1

/-- A count that is not zero is not too narrow to be seen. -/
def barWidth (n max : ℕ) : ℚ :=
  if n = 0 then 0
  else
    let pct : ℚ := 100 * n / max
    if pct < 2 then 2 else pct

/-- The rate of a page, which never reads more than 100. -/
def clampedRate (delivered received : ℕ) : Option ℚ :=
  if 0 < received then
    let rate : ℚ := 100 * delivered / received
    some (if 100 < rate then 100 else rate)
  else none

def appFunnel (entry : InnerMap String String) : AppFunnel where
  appID := entry.key
  received := entry.counts "received"
  delivered := entry.counts "delivered"
  denied := entry.counts "denied"
  retried := entry.counts "retried"
  deferred := entry.counts "deferred"
  successRate := clampedRate (entry.counts "delivered") (entry.counts "received")
  bars := funnelStageOrder.map fun stage =>
    ⟨stage, entry.counts stage, barWidth (entry.counts stage) (maxCount entry.counts)⟩

/-- The map `byApp`. -/
def byApp (counts : List AppStageCount) : MapOfMaps String String :=
  counts.foldl (fun m c => m.assign c.appID c.stage c.count) .empty

/-- A loop visits the entries of a map in any order. -/
def buildFunnels (planner : Planner) (counts : List AppStageCount) : List AppFunnel :=
  sortBy (fun f => toLex (OrderDual.toDual f.received, f.appID))
    ((planner.arrange (byApp counts).rows).map appFunnel)

/-! ### The failures -/

def recentFailureLimit : ℕ := 30

def failureRecipient (f : FailureRow) : String :=
  match f.recipientUserID, f.recipientChatID with
  | some userID, _ => formatInt userID
  | none, some chatID => "chat:" ++ formatInt chatID
  | none, none => ""

def failureDisplayRow (layouts : TimeLayouts) (f : FailureRow) : AuditDisplayRow where
  id := 0
  time := layouts.formatLabel f.time
  stage := f.stage
  stageBadge := stageBadge f.stage
  appID := f.appID
  endpoint := ""
  deliveryChannel := ""
  recipient := failureRecipient f
  errorCode := f.errorCode
  traceID := f.traceID

/-! ### The page -/

/-- The text of a parameter of a query. Postgres refuses what is not UTF-8, and zero bytes. -/
def asText (b : Bytes) : Option String :=
  (String.fromUTF8? b.toByteArray).filter fun s => !s.toList.contains (Char.ofNat 0)

/-- The filters of the request as the parameters of a query. -/
def DeliveryRequest.filter (r : DeliveryRequest) : Option TrendFilter :=
  match asText r.app, asText r.stage, asText r.error with
  | some app, some stage, some error => some ⟨r.window.days, app, stage, error⟩
  | _, _, _ => none

/-- The data of the screen that is shown; `none` is the flag for a query that failed. -/
inductive DeliveryScreen (days : ℕ)
  | failures (rows : Option (List AuditDisplayRow))
  | trend (chart : Option (Option (List (TrendLine days))))
  | funnel (funnels : Option (List AppFunnel))

/-- The answers of the database to the queries of a page, `none` for one that fails. -/
structure DeliveryAnswers where
  /-- The ids of `ListApps`. -/
  apps : Option (List String)
  codes : Option Snapshot
  screen : Option Snapshot

/-- An option of a dropdown. -/
structure DeliveryOption where
  key : String
  label : String
  url : Bytes := []
  on : Bool

structure DeliveryView (days : ℕ) where
  windows : List DeliveryOption
  views : List DeliveryOption
  appOptions : List Bytes
  errorOptions : List Bytes
  filtered : Bool
  /-- `none` without a database. -/
  screen : Option (DeliveryScreen days)

/-- The filter that is set stays among the options. -/
def keepSelected (options : List Bytes) (selected : Bytes) : List Bytes :=
  if selected ≠ [] ∧ selected ∉ options then
    sortBy (fun b => b.map UInt8.toNat) (options ++ [selected])
  else options

/-- The one query of the selected screen. `drawn` is the clock of the server. -/
def deliveryScreen (layouts : TimeLayouts) (db go : Planner) (r : DeliveryRequest)
    (answer : Option Snapshot) (drawn : Time) : DeliveryScreen r.window.days :=
  if r.view = "funnel" then
    .funnel do
      let app ← asText r.app
      let s ← answer
      return buildFunnels go (stageCounts db r.window.days app s)
  else if r.view = "trend" then
    .trend do
      let f ← r.filter
      let s ← answer
      return buildTrendChart (deliveryDailyCounts db f s) r.window.days f.stage drawn
  else
    .failures do
      let f ← r.filter
      let s ← answer
      return (recentFailures ⟨f, recentFailureLimit⟩ s).map (failureDisplayRow layouts)

def deliveryPage (layouts : TimeLayouts) (db go : Planner) (r : DeliveryRequest)
    (store : Option DeliveryAnswers) (drawn : Time) : DeliveryView r.window.days where
  windows := deliveryWindows.map fun w => { key := w.key, label := w.label, on := w = r.window }
  views := deliveryViews.map fun v =>
    { key := v.key, label := v.label, url := deliveryViewURL r v.key, on := v.key = r.view }
  appOptions := (store.map fun a => keepSelected ((a.apps.getD []).map utf8) r.app).getD []
  errorOptions :=
    (store.map fun a => keepSelected
      (((a.codes.map (failureErrorCodes db r.window.days)).getD []).map utf8) r.error).getD []
  filtered := r.app ≠ [] || r.stage ≠ [] || r.error ≠ []
  screen := store.map fun a => deliveryScreen layouts db go r a.screen drawn

/-! ### Following a link -/

section Links

/-- What the page reads off a query names a window and a stage there is, or none. -/
structure DeliveryRequest.WellFormed (r : DeliveryRequest) : Prop where
  window : r.window ∈ deliveryWindows
  stage : r.stage ≠ [] → r.stage ∈ deliveryStageOptions.map utf8

theorem wellFormed_readDeliveryRequest (q : QueryValues) : (readDeliveryRequest q).WellFormed where
  window := by
    simp only [readDeliveryRequest, resolveDeliveryWindow]
    generalize (if q.get (utf8 "window") = utf8 "24h" then _ else _) = key
    cases hfind : deliveryWindows.find? fun w => utf8 w.key = key with
    | none => exact (by decide : (⟨"1d", "1일", 1⟩ : DeliveryWindow) ∈ deliveryWindows)
    | some w => exact List.mem_of_find?_eq_some hfind
  stage := by
    simp only [readDeliveryRequest]
    split
    · next hmem => exact fun _ => hmem
    · exact fun hne => absurd rfl hne

theorem view_readDeliveryRequest (q : QueryValues) :
    ∃ v ∈ deliveryViews, (readDeliveryRequest q).view = v.key := by
  simp only [readDeliveryRequest, resolveDeliveryView]
  cases hfind : deliveryViews.find? fun v => utf8 v.key = q.get (utf8 "view") with
  | none => exact ⟨⟨"failures", "최근 실패"⟩, by decide, rfl⟩
  | some v => exact ⟨v, List.mem_of_find?_eq_some hfind, rfl⟩

theorem resolveDeliveryWindow_key {w : DeliveryWindow} (h : w ∈ deliveryWindows) :
    resolveDeliveryWindow (utf8 w.key) = w :=
  (by decide +kernel : ∀ w ∈ deliveryWindows, resolveDeliveryWindow (utf8 w.key) = w) w h

theorem resolveDeliveryView_key {v : DeliveryScreenKey} (h : v ∈ deliveryViews) :
    resolveDeliveryView (utf8 v.key) = v.key :=
  (by decide +kernel : ∀ v ∈ deliveryViews, resolveDeliveryView (utf8 v.key) = v.key) v h

theorem get_setFilter (vals : QueryValues) (key key' : String) (value : Bytes) :
    (setFilter vals key value).get (utf8 key') =
      if key = key' ∧ value ≠ [] then value else vals.get (utf8 key') := by
  unfold setFilter
  split
  · next hvalue => simp [QueryValues.get_set, utf8_inj, hvalue]
  · next hvalue => simp [not_not.mp hvalue]

/-- A link to a screen asks for that screen, and for what the page was asked for. -/
theorem readDeliveryRequest_deliveryViewURL {r : DeliveryRequest} (hr : r.WellFormed)
    {v : DeliveryScreenKey} (hv : v ∈ deliveryViews) :
    readDeliveryRequest (parseQuery (rawQuery (deliveryViewURL r v.key))) =
      { r with view := v.key } := by
  have hpath : (0x3f : UInt8) ∉ utf8 "/delivery" := by decide
  have hnone (value : Bytes) : (if value = [] then [] else value) = value := by
    split
    · next h => exact h.symm
    · rfl
  rw [deliveryViewURL, rawQuery_append hpath]
  simp only [readDeliveryRequest, QueryValues.get_parseQuery_encode, get_setFilter,
    QueryValues.get_set, utf8_inj, String.reduceEq, false_and, true_and, if_false, if_true,
    QueryValues.get_nil, ne_eq, ite_not, hnone, resolveDeliveryWindow_key hr.window,
    resolveDeliveryView_key hv]
  congr 1
  by_cases hstage : r.stage = []
  · simp [hstage]
  · exact if_pos (hr.stage hstage)

/-- **The links of the page keep the query.** Whatever the query of a request is, following the
link to a screen asks for that screen with the same window and the same filters, and the link that
is marked is the one that leads to the page itself. -/
theorem deliveryLinks_roundTrip (layouts : TimeLayouts) (db go : Planner) (query : Bytes)
    (store : Option DeliveryAnswers) (drawn : Time) :
    let r := readDeliveryRequest (parseQuery query)
    let follow (o : DeliveryOption) := readDeliveryRequest (parseQuery (rawQuery o.url))
    let views := (deliveryPage layouts db go r store drawn).views
    views.map follow = deliveryViews.map (fun v => { r with view := v.key }) ∧
      (views.filter DeliveryOption.on).map follow = [r] := by
  intro r follow views
  have hr : r.WellFormed := wellFormed_readDeliveryRequest _
  have hfollow : ∀ v ∈ deliveryViews, readDeliveryRequest (parseQuery (rawQuery
      (deliveryViewURL r v.key))) = { r with view := v.key } :=
    fun v hv => readDeliveryRequest_deliveryViewURL hr hv
  refine ⟨?_, ?_⟩
  · simp only [views, follow, deliveryPage, List.map_map]
    exact List.map_congr_left hfollow
  · simp only [views, follow, deliveryPage, List.filter_map, List.map_map]
    have hmarked : (deliveryViews.filter fun v => decide (v.key = r.view)).map
        DeliveryScreenKey.key = [r.view] := by
      obtain ⟨v, hv, heq⟩ := view_readDeliveryRequest (parseQuery query)
      rw [show r.view = v.key from heq]
      exact (by decide : ∀ v ∈ deliveryViews, (deliveryViews.filter fun v' =>
        decide (v'.key = v.key)).map DeliveryScreenKey.key = [v.key]) v hv
    have hmap := List.map_congr_left (l := deliveryViews.filter fun v => decide (v.key = r.view))
      fun v hv => hfollow v (List.mem_of_mem_filter hv)
    refine hmap.trans ?_
    have hviews := congrArg (List.map fun key => { r with view := key }) hmarked
    rwa [List.map_map] at hviews

end Links

/-! ### The trend shows the log -/

section Trend

variable {days : ℕ} {now : Time} {i : Fin days}

/-- The axis is that of the requests chart. -/
theorem trendAxis_eq (days : ℕ) (now : Time) :
    trendAxis days now = bucketAxis ⟨"day", days⟩ now := by
  funext i
  have hk : (i : ℤ) - days + 1 = i + 1 - days := by omega
  simp only [trendAxis, bucketAxis, String.reduceEq, if_false, hk]

theorem dayIndex_eq (days : ℕ) (now : Time) :
    dayIndex days now = bucketIndex ⟨"day", days⟩ now := by
  rw [dayIndex, bucketIndex, trendAxis_eq]
  rfl

/-- A text that has an index is that of its day. -/
theorem eq_of_dayIndex {key : String} (h : dayIndex days now key = some i) :
    key = format .day (trendAxis days now i) := by
  rw [dayIndex, foldl_update_apply] at h
  cases hfind : (List.finRange days).reverse.find? fun i =>
      format .day (trendAxis days now i) = key with
  | none =>
      rw [hfind] at h
      cases h
  | some j =>
      rw [hfind] at h
      obtain rfl := Option.some.inj h
      have hday : format .day (trendAxis days now j) = key := by simpa using List.find?_some hfind
      exact hday.symm

/-- What the counts give on one day for some stages. -/
def trendSum (index : String → Option (Fin days)) (counts : List StageDayCount)
    (stages : List String) (j : Fin days) : ℕ :=
  ((counts.filter fun c => index (format .day c.day) = some j && c.stage ∈ stages).map
    StageDayCount.count).sum

/-- A count has its place on the axis and in one of the series. -/
def Placed (index : String → Option (Fin days)) (defs : List TrendSeriesDef) (c : StageDayCount) :
    Bool :=
  (index (format .day c.day)).isSome && defs.any fun series => c.stage ∈ series.stages

/-- **Step.** A count is added to the lines of its stage on its day. -/
theorem trendRound_eq (index : String → Option (Fin days)) (lines : List (TrendLine days))
    (matched : Bool) (c : StageDayCount) :
    trendRound index (lines, matched) c =
      (lines.map fun line => ⟨line.series, fun j =>
          line.counts j + trendSum index [c] line.series.stages j⟩,
        matched || Placed index (lines.map TrendLine.series) c) := by
  unfold trendRound
  cases hindex : index (format .day c.day) with
  | none => simp [trendSum, Placed, hindex]
  | some i =>
      refine Prod.ext (List.map_congr_left fun line _ => ?_)
        (by simp [Placed, hindex, Function.comp_def])
      by_cases hstage : c.stage ∈ line.series.stages
      · simp only [hstage, if_true, TrendLine.mk.injEq, true_and]
        funext j
        by_cases hij : i = j
        · subst hij
          simp [trendSum, hindex, hstage]
        · simp [trendSum, hindex, hij, Function.update_of_ne (Ne.symm hij)]
      · simp [hstage, trendSum]

/-- **Run.** The lines have the sums of their counts. -/
theorem foldl_trendRound (index : String → Option (Fin days)) (counts : List StageDayCount)
    (lines : List (TrendLine days)) (matched : Bool) :
    counts.foldl (trendRound index) (lines, matched) =
      (lines.map fun line => ⟨line.series, fun j =>
          line.counts j + trendSum index counts line.series.stages j⟩,
        matched || counts.any (Placed index (lines.map TrendLine.series))) := by
  induction counts generalizing lines matched with
  | nil => simp [trendSum]
  | cons c counts ih =>
      have hsum (stages : List String) (j : Fin days) : trendSum index (c :: counts) stages j =
          trendSum index [c] stages j + trendSum index counts stages j := by
        simp only [trendSum, ← List.singleton_append (l := counts), List.filter_append,
          List.map_append, List.sum_append]
      rw [List.foldl_cons, trendRound_eq, ih, List.map_map, List.map_map, List.any_cons,
        Bool.or_assoc]
      simp only [Function.comp_def, hsum, add_assoc]

theorem buildTrendChart_eq (counts : List StageDayCount) (days : ℕ) (stageFilter : String)
    (now : Time) :
    buildTrendChart counts days stageFilter now =
      if counts.any (Placed (dayIndex days now) (trendSeriesDefs stageFilter)) then
        some ((trendSeriesDefs stageFilter).map fun series =>
          ⟨series, trendSum (dayIndex days now) counts series.stages⟩)
      else none := by
  unfold buildTrendChart
  split
  · next hempty => simp [List.isEmpty_iff.mp hempty]
  · simp [foldl_trendRound, Function.comp_def]

/-- The rows of some stages on one day that pass the filters. -/
def dayCount (f : TrendFilter) (stages : List String) (log : List (AuditRow Bytes)) (t : Time) :
    ℕ :=
  log.countP fun row =>
    anyOf row.cols.stage stages && f.admits row && dateTrunc .day row.cols.time = t

/-- The chart shows the log. -/
structure TrendFaithful (f : TrendFilter) (log : List (AuditRow Bytes)) (drawn : Time)
    (chart : Option (List (TrendLine days))) : Prop where
  increasing : StrictMono (trendAxis days drawn)
  last : ∀ i : Fin days, (i : ℕ) + 1 = days → trendAxis days drawn i = dateTrunc .day drawn
  lines : ∀ lines ∈ chart, lines = (trendSeriesDefs f.stage).map fun series =>
    ⟨series, fun i => dayCount f series.stages log (trendAxis days drawn i)⟩
  /-- There is no chart only where all lines would be zero. -/
  empty : chart = none ↔ ∀ series ∈ trendSeriesDefs f.stage, ∀ i,
    dayCount f series.stages log (trendAxis days drawn i) = 0

/-- The stages of the series are counted by the query. -/
theorem queried_of_mem_trendSeriesDefs {f : TrendFilter}
    (hstage : f.stage = "" ∨ f.stage ∈ deliveryStageOptions) {series : TrendSeriesDef}
    (hseries : series ∈ trendSeriesDefs f.stage) {stage : String} (h : stage ∈ series.stages) :
    stage ∈ deliveryFunnelStages ∨ stage ∈ deliveryFailureStages := by
  have hdefault : ∀ series ∈ trendSeriesDefs "", ∀ stage ∈ series.stages,
      stage ∈ deliveryFunnelStages ∨ stage ∈ deliveryFailureStages := by
    decide
  have hoptions : ∀ stage ∈ deliveryStageOptions,
      stage ∈ deliveryFunnelStages ∨ stage ∈ deliveryFailureStages := by
    decide
  by_cases hempty : f.stage = ""
  · rw [hempty] at hseries
    exact hdefault series hseries stage h
  · rw [trendSeriesDefs, if_pos hempty, List.mem_singleton] at hseries
    subst hseries
    rw [List.mem_singleton.mp h]
    exact hoptions _ (hstage.resolve_left hempty)

theorem dateTrunc_dateTrunc (unit : TruncUnit) (t : Time) :
    dateTrunc unit (dateTrunc unit t) = dateTrunc unit t := by
  rw [dateTrunc_eq_floor unit t, dateTrunc_eq_floor]
  exact (buckets unit).floor_start _

section Query

variable (planner : Planner) {f : TrendFilter} {s : Snapshot} {drawn : Time}
  (hnow : 1000 ≤ (civil s.now).year) (hdrawn : s.now ≤ drawn) (hdays : f.days ≤ 1000)
include hnow hdrawn hdays

/-- The days of the query that are on the axis are found there. -/
theorem dayIndex_dateTrunc {row : AuditRow Bytes} (hrow : firstDay f.days s.now ≤ row.cols.time)
    (i : Fin f.days) :
    dayIndex f.days drawn (format .day (dateTrunc .day row.cols.time)) = some i ↔
      dateTrunc .day row.cols.time = trendAxis f.days drawn i := by
  have hyear : 1000 ≤ (civil drawn).year :=
    (le_year_iff 1000).mpr (((le_year_iff 1000).mp hnow).trans hdrawn)
  have hunit : seriesUnitSQL "day" = some ⟨.day, { days := 1 }⟩ := rfl
  rw [trendAxis_eq]
  constructor
  · intro h
    have hkey := eq_of_dayIndex h
    rw [trendAxis_eq] at hkey
    have hstart : 0 ≤ firstDay f.days s.now := by
      rw [firstDay_eq, Int.sub_eq_add_neg]
      exact start_nonneg hnow (by omega)
    have hday : 0 ≤ dateTrunc .day row.cols.time := by
      rw [dateTrunc_eq_floor]
      exact mul_nonneg (Int.ediv_nonneg (hstart.trans hrow) (by decide)) (by decide)
    have htrunc := dateTrunc_eq_of_format_eq hday
      (@bucketAxis_nonneg _ ⟨"day", f.days⟩ _ hunit hdays hyear i) hkey
    simp only [Layout.unit] at htrunc
    rwa [@dateTrunc_bucketAxis _ ⟨"day", f.days⟩ _ hunit, dateTrunc_dateTrunc] at htrunc
  · intro h
    rw [h, dayIndex_eq]
    exact @bucketIndex_eq ⟨"day", f.days⟩ _ (bucketKeys_injective hunit hdays hyear) i

/-- The sums of the chart are counts of rows. -/
theorem trendSum_eq (stages : List String)
    (hstages : ∀ v ∈ stages, v ∈ deliveryFunnelStages ∨ v ∈ deliveryFailureStages)
    (i : Fin f.days) :
    trendSum (dayIndex f.days drawn) (deliveryDailyCounts planner f s) stages i =
      dayCount f stages s.log (trendAxis f.days drawn i) := by
  have hsum := sum_groups (planner.perm (countBy (dailyRow f s.now) s.log)) fun k =>
    dayIndex f.days drawn (format .day k.1) = some i && k.2 ∈ stages
  have hchart : trendSum (dayIndex f.days drawn) (deliveryDailyCounts planner f s) stages i =
      (((planner.arrange (countBy (dailyRow f s.now) s.log)).filter fun g =>
        dayIndex f.days drawn (format .day g.1.1) = some i &&
          g.1.2 ∈ stages).map Prod.snd).sum := by
    rw [trendSum, deliveryDailyCounts, List.filter_map, List.map_map]
    rfl
  rw [hchart, hsum, dayCount]
  refine List.countP_congr fun row _ => ?_
  simp only [Option.any_eq_true, Bool.and_eq_true, decide_eq_true_eq, Prod.exists,
    dailyRow_eq_some, anyOf_eq_true]
  constructor
  · rintro ⟨day, stage, ⟨hstage, -, hsince, hadmits, rfl⟩, hindex, hmem⟩
    exact ⟨⟨⟨stage, hstage, hmem⟩, hadmits⟩,
      (dayIndex_dateTrunc hnow hdrawn hdays hsince i).mp hindex⟩
  · rintro ⟨⟨⟨stage, hstage, hmem⟩, hadmits⟩, hday⟩
    have hsince : firstDay f.days s.now ≤ row.cols.time := by
      rw [trendAxis_eq] at hday
      exact (firstDay_mono hdrawn).trans (@windowStart_le _ ⟨"day", f.days⟩ _ rfl _ _ hday)
    exact ⟨_, stage, ⟨hstage, hstages stage hmem, hsince, hadmits, rfl⟩,
      (dayIndex_dateTrunc hnow hdrawn hdays hsince i).mpr hday, hmem⟩

/-- There is a chart where some line is not zero. -/
theorem any_placed_iff (hstage : f.stage = "" ∨ f.stage ∈ deliveryStageOptions) :
    (deliveryDailyCounts planner f s).any (Placed (dayIndex f.days drawn)
        (trendSeriesDefs f.stage)) = true ↔
      ∃ series ∈ trendSeriesDefs f.stage, ∃ i,
        dayCount f series.stages s.log (trendAxis f.days drawn i) ≠ 0 := by
  have hpos (c : StageDayCount) (hc : c ∈ deliveryDailyCounts planner f s) : c.count ≠ 0 := by
    obtain ⟨g, hg, rfl⟩ := List.mem_map.mp hc
    exact (mem_countBy.mp ((planner.perm _).mem_iff.mp hg)).1
  simp only [List.any_eq_true, Placed, Bool.and_eq_true, Option.isSome_iff_exists,
    decide_eq_true_eq]
  constructor
  · rintro ⟨c, hc, ⟨i, hi⟩, series, hseries, hmem⟩
    refine ⟨series, hseries, i, ?_⟩
    rw [← trendSum_eq planner hnow hdrawn hdays _ fun v hv =>
      queried_of_mem_trendSeriesDefs hstage hseries hv]
    have hle : c.count ≤ trendSum (dayIndex f.days drawn) (deliveryDailyCounts planner f s)
        series.stages i :=
      List.single_le_sum (fun _ _ => Nat.zero_le _) _
        (List.mem_map_of_mem (List.mem_filter.mpr ⟨hc, by simp [hi, hmem]⟩))
    have hne := hpos c hc
    omega
  · rintro ⟨series, hseries, i, hne⟩
    rw [← trendSum_eq planner hnow hdrawn hdays _ fun v hv =>
      queried_of_mem_trendSeriesDefs hstage hseries hv] at hne
    obtain ⟨c, hc⟩ : ∃ c, c ∈ (deliveryDailyCounts planner f s).filter fun c =>
        dayIndex f.days drawn (format .day c.day) = some i && c.stage ∈ series.stages := by
      refine List.exists_mem_of_ne_nil _ fun hnil => hne ?_
      rw [trendSum, hnil]
      rfl
    obtain ⟨hc, hplace⟩ := List.mem_filter.mp hc
    rw [Bool.and_eq_true, decide_eq_true_eq, decide_eq_true_eq] at hplace
    exact ⟨c, hc, ⟨i, hplace.1⟩, series, hseries, hplace.2⟩

theorem trendFaithful_buildTrendChart
    (hstage : f.stage = "" ∨ f.stage ∈ deliveryStageOptions) :
    TrendFaithful f s.log drawn
      (buildTrendChart (deliveryDailyCounts planner f s) f.days f.stage drawn) where
  increasing := by
    rw [trendAxis_eq]
    exact bucketAxis_strictMono rfl
  last := by
    intro i hi
    rw [trendAxis_eq, @bucketAxis_eq _ ⟨"day", f.days⟩ _ rfl, dateTrunc_eq_floor,
      Buckets.floor]
    congr 1
    simp only
    omega
  lines := by
    intro lines hlines
    rw [buildTrendChart_eq] at hlines
    split at hlines
    · rw [← Option.some.inj hlines]
      refine List.map_congr_left fun series hseries => ?_
      congr 1
      funext i
      exact trendSum_eq planner hnow hdrawn hdays _ (fun v hv =>
        queried_of_mem_trendSeriesDefs hstage hseries hv) i
    · cases hlines
  empty := by
    have hplaced := any_placed_iff planner hnow hdrawn hdays hstage
    rw [buildTrendChart_eq]
    split
    · next h =>
        obtain ⟨series, hseries, i, hne⟩ := hplaced.mp h
        simp only [reduceCtorEq, false_iff]
        exact fun hall => hne (hall series hseries i)
    · next h =>
        refine iff_of_true rfl fun series hseries i => ?_
        by_contra hne
        exact h (hplaced.mpr ⟨series, hseries, i, hne⟩)

end Query

/-! ### On the page -/

theorem utf8_of_asText {b : Bytes} {text : String} (h : asText b = some text) : utf8 text = b := by
  obtain ⟨hutf8, -⟩ := Option.filter_eq_some_iff.mp h
  unfold String.fromUTF8? at hutf8
  split at hutf8
  · obtain rfl := Option.some.inj hutf8
    simp [utf8, String.fromUTF8]
  · cases hutf8

theorem asText_utf8 {text : String} (h : Char.ofNat 0 ∉ text.toList) :
    asText (utf8 text) = some text := by
  have hbytes : (utf8 text).toByteArray = text.toUTF8 := by
    apply ByteArray.ext
    simp [utf8]
  have hvalid : String.fromUTF8? text.toUTF8 = some text := by
    simp [String.fromUTF8?, String.fromUTF8, text.isValidUTF8]
  rw [asText, hbytes, hvalid]
  simp [Option.filter, h]

theorem filter_eq_some {r : DeliveryRequest} {f : TrendFilter} (h : r.filter = some f) :
    ∃ app stage error, asText r.app = some app ∧ asText r.stage = some stage ∧
      asText r.error = some error ∧ f = ⟨r.window.days, app, stage, error⟩ := by
  unfold DeliveryRequest.filter at h
  split at h
  · next app stage error happ hstage herror =>
      exact ⟨app, stage, error, happ, hstage, herror, (Option.some.inj h).symm⟩
  · cases h

/-- The filter on the stage is one of the options. -/
theorem stage_of_filter {r : DeliveryRequest} (hr : r.WellFormed) {f : TrendFilter}
    (h : r.filter = some f) : f.stage = "" ∨ f.stage ∈ deliveryStageOptions := by
  obtain ⟨app, stage, error, -, hstage, -, rfl⟩ := filter_eq_some h
  have htext := utf8_of_asText hstage
  by_cases hempty : r.stage = []
  · left
    rw [hempty] at htext
    exact utf8_inj.mp htext
  · right
    obtain ⟨option, hoption, heq⟩ := List.mem_map.mp (hr.stage hempty)
    have hsame : option = stage := utf8_inj.mp (heq.trans htext.symm)
    exact hsame ▸ hoption

theorem days_le {r : DeliveryRequest} (hr : r.WellFormed) : r.window.days ≤ 1000 :=
  (by decide : ∀ w ∈ deliveryWindows, w.days ≤ 1000) _ hr.window

/-- **The trend shows the log.** For every query that asks for the trend, the chart has for each
series and each of the last days the number of rows that pass the filters. That holds also if
midnight goes by between the query and the drawing. -/
theorem trend_faithful (layouts : TimeLayouts) (db go : Planner) (query : Bytes)
    (hview : (readDeliveryRequest (parseQuery query)).view = "trend") {f : TrendFilter}
    (hfilter : (readDeliveryRequest (parseQuery query)).filter = some f) {store : DeliveryAnswers}
    {s : Snapshot} (hanswer : store.screen = some s) (hnow : 1000 ≤ (civil s.now).year)
    {drawn : Time} (hdrawn : s.now ≤ drawn) :
    ∃ chart, (deliveryPage layouts db go (readDeliveryRequest (parseQuery query)) (some store)
        drawn).screen = some (.trend (some chart)) ∧
      TrendFaithful f s.log drawn chart := by
  have hr := wellFormed_readDeliveryRequest (parseQuery query)
  generalize readDeliveryRequest (parseQuery query) = r at hview hfilter hr
  have hstage := stage_of_filter hr hfilter
  have hdays := days_le hr
  refine ⟨buildTrendChart (deliveryDailyCounts db f s) r.window.days f.stage drawn, ?_, ?_⟩
  · simp [deliveryPage, deliveryScreen, hview, hfilter, hanswer]
  · obtain ⟨app, stage, error, -, -, -, rfl⟩ := filter_eq_some hfilter
    exact trendFaithful_buildTrendChart db hnow hdrawn hdays hstage

/-- A request of 29 February 2024, as it is seen on the next day. -/
def leapDaySnapshot : Snapshot := ⟨date 2024 3 1 0 30 0 0, [leapDayRequest]⟩

theorem asText_nil : asText [] = some "" := @asText_utf8 "" (by simp)

theorem leapWeek_trend_faithful :
    dayCount { days := 7 } ["received"] [leapDayRequest] (date 2024 2 29 0 0 0 0) = 1 ∧
      ∃ chart, (deliveryPage utcLayouts .inOrder .inOrder
          (readDeliveryRequest (parseQuery (utf8 "view=trend&window=7d")))
          (some ⟨none, none, some leapDaySnapshot⟩) (date 2024 3 1 0 30 0 0)).screen =
            some (.trend (some chart)) ∧
        TrendFaithful { days := 7 } leapDaySnapshot.log (date 2024 3 1 0 30 0 0) chart := by
  have hrequest : readDeliveryRequest (parseQuery (utf8 "view=trend&window=7d")) =
      ⟨⟨"7d", "7일", 7⟩, "trend", [], [], []⟩ := by
    decide +kernel
  have hview : (readDeliveryRequest (parseQuery (utf8 "view=trend&window=7d"))).view = "trend" := by
    rw [hrequest]
  have hfilter : (readDeliveryRequest (parseQuery (utf8 "view=trend&window=7d"))).filter =
      some { days := 7 } := by
    rw [hrequest, DeliveryRequest.filter]
    simp only [asText_nil]
  have hyear : 1000 ≤ (civil leapDaySnapshot.now).year := by decide +kernel
  exact ⟨by decide +kernel, trend_faithful utcLayouts .inOrder .inOrder _ hview hfilter rfl hyear
    le_rfl⟩

end Trend

/-! ### The funnels show the log -/

section Funnels

theorem foldl_max_le (stages : String → ℕ) (order : List String) (m : ℕ) :
    m ≤ order.foldl (fun m stage => if m < stages stage then stages stage else m) m ∧
      ∀ stage ∈ order, stages stage ≤
        order.foldl (fun m stage => if m < stages stage then stages stage else m) m := by
  induction order generalizing m with
  | nil => simp
  | cons stage order ih =>
      rw [List.foldl_cons]
      obtain ⟨hm, hmem⟩ := ih (if m < stages stage then stages stage else m)
      have hfirst : m ≤ (if m < stages stage then stages stage else m) ∧
          stages stage ≤ (if m < stages stage then stages stage else m) := by
        split <;> omega
      refine ⟨hfirst.1.trans hm, fun stage' hstage' => ?_⟩
      obtain rfl | hstage' := List.mem_cons.mp hstage'
      · exact hfirst.2.trans hm
      · exact hmem stage' hstage'

theorem one_le_maxCount (stages : String → ℕ) : 1 ≤ maxCount stages :=
  (foldl_max_le stages funnelStageOrder 1).1

theorem le_maxCount {stages : String → ℕ} {stage : String} (h : stage ∈ funnelStageOrder) :
    stages stage ≤ maxCount stages :=
  (foldl_max_le stages funnelStageOrder 1).2 stage h

/-- The widths of bars, of which none is longer than the longest. -/
theorem barWidth_mem {n max : ℕ} (hmax : 1 ≤ max) (hn : n ≤ max) :
    0 ≤ barWidth n max ∧ barWidth n max ≤ 100 ∧ (barWidth n max = 0 ↔ n = 0) := by
  unfold barWidth
  split
  · next hzero => simp [hzero]
  · next hne =>
      have hmaxQ : (0 : ℚ) < max := by exact_mod_cast hmax
      have hle : (100 * n / max : ℚ) ≤ 100 := by
        rw [div_le_iff₀ hmaxQ]
        exact_mod_cast Nat.mul_le_mul_left 100 hn
      dsimp only
      split
      · exact ⟨by norm_num, by norm_num, by simp [hne]⟩
      · next hlarge =>
          have htwo : (2 : ℚ) ≤ 100 * n / max := not_lt.mp hlarge
          refine ⟨by linarith, hle, iff_of_false ?_ hne⟩
          intro hzero
          rw [hzero] at htwo
          norm_num at htwo

theorem barWidth_mono {n n' max : ℕ} (hmax : 1 ≤ max) (h : n ≤ n') (hn' : n' ≤ max) :
    barWidth n max ≤ barWidth n' max := by
  by_cases hzero : n = 0
  · rw [barWidth, if_pos hzero]
    exact (barWidth_mem hmax hn').1
  · have hzero' : n' ≠ 0 := by omega
    have hmaxQ : (0 : ℚ) < max := by exact_mod_cast hmax
    have hle : (100 * n / max : ℚ) ≤ 100 * n' / max := by
      gcongr
    rw [barWidth, barWidth, if_neg hzero, if_neg hzero']
    dsimp only
    split_ifs <;> linarith

theorem clampedRate_eq (delivered received : ℕ) :
    clampedRate delivered received =
      if received = 0 then none else some (min 100 (100 * (delivered : ℚ) / received)) := by
  simp only [clampedRate, Nat.pos_iff_ne_zero, ite_not]
  split
  · rfl
  · rw [Option.some.injEq]
    split
    · next hmore => rw [min_eq_left hmore.le]
    · next hless => rw [min_eq_right (not_lt.mp hless)]

variable {days : ℕ} {filter : String} {s : Snapshot} {planner db : Planner}

/-- The rows of an app in one stage and in the window. -/
def stageCount (days : ℕ) (s : Snapshot) (app stage : String) : ℕ :=
  s.log.countP fun row => row.cols.appID = some app && row.cols.stage = some stage &&
    rollingStart days s.now ≤ row.cols.time

/-- The funnels show the log. -/
structure FunnelsFaithful (days : ℕ) (filter : String) (s : Snapshot) (funnels : List AppFunnel) :
    Prop where
  nodup : (funnels.map AppFunnel.appID).Nodup
  /-- There is a funnel for every app with a row. -/
  apps : ∀ app, app ∈ funnels.map AppFunnel.appID ↔ passes filter (some app) = true ∧
    ∃ stage ∈ deliveryFunnelStages, stageCount days s app stage ≠ 0
  ordered : funnels.Pairwise fun f g =>
    g.received < f.received ∨ f.received = g.received ∧ f.appID < g.appID
  counts : ∀ f ∈ funnels, f.received = stageCount days s f.appID "received" ∧
    f.delivered = stageCount days s f.appID "delivered" ∧
    f.denied = stageCount days s f.appID "denied" ∧
    f.retried = stageCount days s f.appID "retried" ∧
    f.deferred = stageCount days s f.appID "deferred"
  bars : ∀ f ∈ funnels, (f.bars.map fun b => (b.stage, b.count)) =
    funnelStageOrder.map fun stage => (stage, stageCount days s f.appID stage)
  /-- The bars can be compared, and all of them can be seen. -/
  widths : ∀ f ∈ funnels, ∀ b ∈ f.bars, 0 ≤ b.widthPct ∧ b.widthPct ≤ 100 ∧
    (b.widthPct = 0 ↔ b.count = 0) ∧ ∀ b' ∈ f.bars, b.count ≤ b'.count → b.widthPct ≤ b'.widthPct
  rate : ∀ f ∈ funnels, f.successRate =
    if f.received = 0 then none else some (min 100 (100 * (f.delivered : ℚ) / f.received))

theorem byApp_stageCounts :
    byApp (stageCounts db days filter s) =
      MapOfMaps.ofGroups (db.arrange (countBy (stageCountRow days filter s.now) s.log)) := by
  rw [byApp, stageCounts, List.foldl_map]
  rfl

/-- An entry of the map has the counts of its app. -/
theorem counts_byApp {entry : InnerMap String String}
    (h : entry ∈ (byApp (stageCounts db days filter s)).rows) {stage : String}
    (hstage : stage ∈ deliveryFunnelStages) :
    entry.counts stage = stageCount days s entry.key stage := by
  rw [byApp_stageCounts] at h
  have hkey := (MapOfMaps.mem_keys_ofGroups (db.perm _)).mp (List.mem_map_of_mem h)
  obtain ⟨row, -, stage', hrow⟩ := hkey
  have hpasses := (stageCountRow_eq_some.mp hrow).2.2.2.2
  rw [MapOfMaps.counts_ofGroups (db.perm _) h, stageCount]
  refine List.countP_congr fun row _ => ?_
  simp only [decide_eq_true_eq, stageCountRow_eq_some, Bool.and_eq_true]
  tauto

theorem mem_keys_byApp {app : String} :
    app ∈ (byApp (stageCounts db days filter s)).keys ↔ passes filter (some app) = true ∧
      ∃ stage ∈ deliveryFunnelStages, stageCount days s app stage ≠ 0 := by
  rw [byApp_stageCounts, MapOfMaps.mem_keys_ofGroups (db.perm _)]
  simp only [stageCountRow_eq_some, stageCount, ← Nat.pos_iff_ne_zero, List.countP_pos_iff,
    Bool.and_eq_true, decide_eq_true_eq]
  constructor
  · rintro ⟨row, hrow, stage, happ, hstage, hmem, hsince, hpasses⟩
    exact ⟨hpasses, stage, hmem, row, hrow, ⟨happ, hstage⟩, hsince⟩
  · rintro ⟨hpasses, stage, hmem, row, hrow, ⟨happ, hstage⟩, hsince⟩
    exact ⟨row, hrow, stage, happ, hstage, hmem, hsince, hpasses⟩

theorem buildFunnels_perm (planner : Planner) (counts : List AppStageCount) :
    (buildFunnels planner counts).Perm ((byApp counts).rows.map appFunnel) :=
  (sortBy_perm _ _).trans ((planner.perm _).map _)

theorem mem_buildFunnels {counts : List AppStageCount} {f : AppFunnel} :
    f ∈ buildFunnels planner counts ↔ ∃ entry ∈ (byApp counts).rows, appFunnel entry = f := by
  rw [(buildFunnels_perm planner counts).mem_iff, List.mem_map]

theorem appIDs_buildFunnels (counts : List AppStageCount) :
    ((buildFunnels planner counts).map AppFunnel.appID).Perm (byApp counts).keys := by
  have hperm := (buildFunnels_perm planner counts).map AppFunnel.appID
  rwa [List.map_map] at hperm

theorem funnelsFaithful_buildFunnels (planner db : Planner) :
    FunnelsFaithful days filter s (buildFunnels planner (stageCounts db days filter s)) := by
  have hnodup : ((buildFunnels planner (stageCounts db days filter s)).map AppFunnel.appID).Nodup :=
    (appIDs_buildFunnels _).nodup_iff.mpr (byApp _).nodup
  refine ⟨hnodup, fun app => ?_, ?_, fun f hf => ?_, fun f hf => ?_, fun f hf => ?_, fun f hf => ?_⟩
  · rw [(appIDs_buildFunnels _).mem_iff, mem_keys_byApp]
  · refine (pairwise_sortBy _ _).imp₂ (fun f g hle hne => ?_) (List.pairwise_map.mp hnodup)
    obtain hlt | ⟨heq, hid⟩ := Prod.Lex.toLex_le_toLex.mp hle
    · exact .inl hlt
    · exact .inr ⟨heq, lt_of_le_of_ne hid hne⟩
  · obtain ⟨entry, hentry, rfl⟩ := mem_buildFunnels.mp hf
    exact ⟨counts_byApp hentry (by decide), counts_byApp hentry (by decide),
      counts_byApp hentry (by decide), counts_byApp hentry (by decide),
      counts_byApp hentry (by decide)⟩
  · obtain ⟨entry, hentry, rfl⟩ := mem_buildFunnels.mp hf
    have hbars : ∀ stage ∈ funnelStageOrder, stage ∈ deliveryFunnelStages := by decide
    rw [appFunnel, List.map_map]
    refine List.map_congr_left fun stage hstage => ?_
    simp only [Function.comp_apply, counts_byApp hentry (hbars stage hstage)]
  · obtain ⟨entry, -, rfl⟩ := mem_buildFunnels.mp hf
    intro b hb
    obtain ⟨stage, hstage, rfl⟩ := List.mem_map.mp hb
    obtain ⟨hnonneg, hle, hzero⟩ :=
      barWidth_mem (one_le_maxCount entry.counts) (le_maxCount hstage)
    refine ⟨hnonneg, hle, hzero, fun b' hb' hcount => ?_⟩
    obtain ⟨stage', hstage', rfl⟩ := List.mem_map.mp hb'
    exact barWidth_mono (one_le_maxCount entry.counts) hcount (le_maxCount hstage')
  · obtain ⟨entry, -, rfl⟩ := mem_buildFunnels.mp hf
    exact clampedRate_eq _ _

/-- **The funnels show the log.** For every query that asks for the funnels, there is one for each
app with rows in the window, the busiest first, and it has the counts of its rows. -/
theorem funnels_faithful (layouts : TimeLayouts) (db go : Planner) (query : Bytes)
    (hview : (readDeliveryRequest (parseQuery query)).view = "funnel") {filter : String}
    (hfilter : asText (readDeliveryRequest (parseQuery query)).app = some filter)
    {store : DeliveryAnswers} {s : Snapshot} (hanswer : store.screen = some s) (drawn : Time) :
    ∃ funnels, (deliveryPage layouts db go (readDeliveryRequest (parseQuery query)) (some store)
        drawn).screen = some (.funnel (some funnels)) ∧
      FunnelsFaithful (readDeliveryRequest (parseQuery query)).window.days filter s funnels := by
  refine ⟨_, ?_, funnelsFaithful_buildFunnels go db⟩
  simp [deliveryPage, deliveryScreen, hview, hfilter, hanswer]

theorem leapDay_funnels_faithful :
    stageCount 1 leapDaySnapshot "news" "received" = 1 ∧
      ∃ funnels, (deliveryPage utcLayouts .inOrder .inOrder
          (readDeliveryRequest (parseQuery (utf8 "view=funnel")))
          (some ⟨none, none, some leapDaySnapshot⟩) (date 2024 3 1 0 30 0 0)).screen =
            some (.funnel (some funnels)) ∧
        FunnelsFaithful (readDeliveryRequest (parseQuery (utf8 "view=funnel"))).window.days ""
          leapDaySnapshot funnels := by
  have hrequest : readDeliveryRequest (parseQuery (utf8 "view=funnel")) =
      ⟨⟨"1d", "1일", 1⟩, "funnel", [], [], []⟩ := by
    decide +kernel
  have hview : (readDeliveryRequest (parseQuery (utf8 "view=funnel"))).view = "funnel" := by
    rw [hrequest]
  have hfilter : asText (readDeliveryRequest (parseQuery (utf8 "view=funnel"))).app = some "" := by
    rw [hrequest]
    exact asText_nil
  exact ⟨by decide +kernel, funnels_faithful utcLayouts .inOrder .inOrder _ hview hfilter rfl _⟩

end Funnels

/-! ### The codes of the failures -/

section ErrorOptions

variable {s : Snapshot} {row : AuditRow Bytes} {db : Planner} {days : ℕ}

/-- A row of 1 March 2024. An app without a name is none. -/
def marchRow (id : ℕ) (hour : ℤ) (app : String) (stage : Stage) (errorCode : String := "") :
    AuditRow Bytes where
  id := id
  cols := insertValues (date 2024 3 1 hour 0 0 0)
    { appID := app, stage := stage, errorCode := errorCode } (.map [])
  prevHash := []
  rowHash := []

/-- A day with two apps, with a request without a key and with an intruder. -/
def marchSnapshot : Snapshot where
  now := date 2024 3 1 18 0 0 0
  log := [marchRow 1 8 "news" .received, marchRow 2 8 "news" .validated,
    marchRow 3 8 "news" .dispatched, marchRow 4 9 "news" .delivered,
    marchRow 5 10 "news" .received, marchRow 6 11 "shop" .received,
    marchRow 7 11 "shop" .denied "forbidden", marchRow 8 12 "" .denied "unauthenticated",
    marchRow 9 13 "" .intrusionKick, marchRow 10 14 "news" .denied "forbidden"]

end ErrorOptions

end TelegramServer.Adminui

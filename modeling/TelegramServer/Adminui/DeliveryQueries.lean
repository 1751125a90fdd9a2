import TelegramServer.Adminui.RequestChart
import TelegramServer.Lib.Counting

/-!
The queries behind the delivery page and the cards of the dashboard (`internal/adminui/store.go`).
Each of them counts or lists rows of the audit log by stage, over a window that rolls with the clock
or over whole days.

A query sees one snapshot of the log, under the time of its transaction. The session of the
database is taken to be in UTC, where a day has 24 hours. The order of texts is that of the
database's collation, so groups come in any order here.
-/

namespace TelegramServer.Adminui

open Go Lib Registry Audit

/-- What a query sees. -/
structure Snapshot where
  now : Time
  log : List (AuditRow Bytes)

/-! ### Stages and windows -/

def deliveryFunnelStages : List String :=
  ["received", "validated", "dispatched", "delivered", "denied", "retried", "deferred"]

def deliveryFailureStages : List String :=
  ["denied", "telegram_auth_failed", "bot_not_admin", "intrusion_kick", "intrusion_unmitigated"]

def funnelStageOrder : List String := ["received", "validated", "dispatched", "delivered"]

/-- `column = ANY(...)`. -/
def anyOf (column : Option String) (values : List String) : Bool :=
  column.any fun v => v ∈ values

/-- `$n = '' OR column = $n`. -/
def passes (filter : String) (column : Option String) : Bool :=
  filter = "" || column = some filter

/-- `COALESCE(NULLIF(error_code, ''), 'unknown')`. -/
def errorCause (row : AuditRow Bytes) : String :=
  (row.cols.errorCode.bind fun code => nullIf code "").getD "unknown"

/-- `now() - days * interval '1 day'`. -/
def rollingStart (days : ℕ) (now : Time) : Time :=
  minusInterval now (Interval.scale days { days := 1 })

/-- `now() - interval '24 hours'`. -/
def lastDayStart (now : Time) : Time := minusInterval now { time := 24 * hourNs }

/-- The filters of `DeliveryDailyCounts`. An empty text is no filter. -/
structure TrendFilter where
  days : ℕ
  appID : String := ""
  stage : String := ""
  errorCode : String := ""

/-- The filters of `RecentFailures`. -/
structure FailureFilter extends TrendFilter where
  limit : ℕ

/-- What both queries ask of a row. -/
def TrendFilter.admits (f : TrendFilter) (row : AuditRow Bytes) : Bool :=
  passes f.appID row.cols.appID && passes f.stage row.cols.stage &&
    passes f.errorCode (some (errorCause row))

/-! ### The queries of the delivery page -/

structure AppStageCount where
  appID : String
  stage : String
  count : ℕ

/-- The `WHERE` clause of `StageCounts`, and the columns to group by. -/
def stageCountRow (days : ℕ) (appID : String) (now : Time) (row : AuditRow Bytes) :
    Option (String × String) :=
  match row.cols.appID, row.cols.stage with
  | some app, some stage =>
      if stage ∈ deliveryFunnelStages ∧ rollingStart days now ≤ row.cols.time ∧
          passes appID (some app) = true then
        some (app, stage)
      else none
  | _, _ => none

def stageCounts (planner : Planner) (days : ℕ) (appID : String) (s : Snapshot) :
    List AppStageCount :=
  (planner.arrange (countBy (stageCountRow days appID s.now) s.log)).map fun g =>
    ⟨g.1.1, g.1.2, g.2⟩

structure StageDayCount where
  day : Time
  stage : String
  count : ℕ

/-- The start of the first day of `DeliveryDailyCounts`. -/
def firstDay (days : ℕ) (now : Time) : Time := windowStart ⟨.day, { days := 1 }⟩ days now

/-- The `WHERE` clause of `DeliveryDailyCounts`, and the columns to group by. -/
def dailyRow (f : TrendFilter) (now : Time) (row : AuditRow Bytes) : Option (Time × String) :=
  match row.cols.stage with
  | some stage =>
      if (stage ∈ deliveryFunnelStages ∨ stage ∈ deliveryFailureStages) ∧
          firstDay f.days now ≤ row.cols.time ∧ f.admits row = true then
        some (dateTrunc .day row.cols.time, stage)
      else none
  | none => none

def deliveryDailyCounts (planner : Planner) (f : TrendFilter) (s : Snapshot) :
    List StageDayCount :=
  (planner.arrange (countBy (dailyRow f s.now) s.log)).map fun g => ⟨g.1.1, g.1.2, g.2⟩

/-- A row of a failure stage in the window of so many days. -/
def isFailure (days : ℕ) (now : Time) (row : AuditRow Bytes) : Bool :=
  anyOf row.cols.stage deliveryFailureStages && rollingStart days now ≤ row.cols.time

structure FailureRow where
  /-- The Go field `At`. -/
  time : Time
  stage : String
  appID : String
  recipientUserID : Option ℤ
  recipientChatID : Option ℤ
  errorCode : String
  traceID : String

def failureRow (row : AuditRow Bytes) : FailureRow where
  time := row.cols.time
  stage := row.cols.stage.getD ""
  appID := row.cols.appID.getD ""
  recipientUserID := row.cols.recipientUserID
  recipientChatID := row.cols.recipientChatID
  errorCode := row.cols.errorCode.getD ""
  traceID := row.cols.traceID.getD ""

/-- The rows `RecentFailures` is about, in any number. -/
def matchingFailures (f : TrendFilter) (s : Snapshot) : List (AuditRow Bytes) :=
  s.log.filter fun row => isFailure f.days s.now row && f.admits row

/-- `RecentFailures`: `ORDER BY id DESC LIMIT`. -/
def recentFailures (f : FailureFilter) (s : Snapshot) : List FailureRow :=
  ((descending AuditRow.id (matchingFailures f.toTrendFilter s)).take f.limit).map failureRow

/-- `FailureErrorCodes`: `SELECT DISTINCT`. -/
def failureErrorCodes (planner : Planner) (days : ℕ) (s : Snapshot) : List String :=
  planner.arrange ((s.log.filter (isFailure days s.now)).map errorCause).dedup

/-! ### The queries of the dashboard -/

structure KPICounts where
  received : ℕ
  delivered : ℕ
  failed : ℕ

def deliveryKPICounts (s : Snapshot) : KPICounts :=
  let rows := s.log.filter fun row => lastDayStart s.now ≤ row.cols.time
  { received := rows.countP fun row => row.cols.stage = some "received"
    delivered := rows.countP fun row => row.cols.stage = some "delivered"
    failed := rows.countP fun row => anyOf row.cols.stage deliveryFailureStages }

structure StageCount where
  stage : String
  count : ℕ

def pipelineRow (now : Time) (row : AuditRow Bytes) : Option String :=
  if anyOf row.cols.stage funnelStageOrder = true ∧ lastDayStart now ≤ row.cols.time then
    row.cols.stage
  else none

def pipelineStageCounts (planner : Planner) (s : Snapshot) : List StageCount :=
  (planner.arrange (countBy (pipelineRow s.now) s.log)).map fun g => ⟨g.1, g.2⟩

structure ErrorCodeCount where
  code : String
  count : ℕ

def causeRow (now : Time) (row : AuditRow Bytes) : Option String :=
  if anyOf row.cols.stage deliveryFailureStages = true ∧ lastDayStart now ≤ row.cols.time then
    some (errorCause row)
  else none

/-- `FailureCauseCounts`: `ORDER BY count(*) DESC`, the codes of one count in any order. -/
def failureCauseCounts (planner : Planner) (s : Snapshot) : List ErrorCodeCount :=
  (descending Prod.snd (planner.arrange (countBy (causeRow s.now) s.log))).map fun g => ⟨g.1, g.2⟩

/-! ### What the queries select -/

section Selection

variable {days : ℕ} {now now' : Time} {row : AuditRow Bytes}

theorem rollingStart_eq (days : ℕ) (now : Time) : rollingStart days now = now - days * dayNs :=
  minusInterval_days now days

/-- The last 24 hours are the rolling window of one day. -/
theorem lastDayStart_eq (now : Time) : lastDayStart now = rollingStart 1 now := by
  rw [rollingStart_eq, lastDayStart, minusInterval, Nat.cast_one, one_mul]
  simp [dayNs]

theorem firstDay_eq (days : ℕ) (now : Time) :
    firstDay days now = (buckets .day).start ((buckets .day).index now - (days - 1)) :=
  @windowStart_eq _ ⟨"day", days⟩ now rfl

/-- As time goes on, the window of days moves on. -/
theorem firstDay_mono (h : now ≤ now') : firstDay days now ≤ firstDay days now' := by
  rw [firstDay_eq, firstDay_eq]
  exact (buckets .day).strictMono.monotone (Int.sub_le_sub_right ((buckets .day).gc.monotone_u h) _)

theorem anyOf_eq_true {column : Option String} {values : List String} :
    anyOf column values = true ↔ ∃ v, column = some v ∧ v ∈ values := by
  cases column <;> simp [anyOf]

theorem stageCountRow_eq_some {appID app stage : String} :
    stageCountRow days appID now row = some (app, stage) ↔
      row.cols.appID = some app ∧ row.cols.stage = some stage ∧ stage ∈ deliveryFunnelStages ∧
        rollingStart days now ≤ row.cols.time ∧ passes appID (some app) = true := by
  unfold stageCountRow
  split
  · next app' stage' happ hstage =>
      rw [Option.ite_none_right_eq_some, happ, hstage]
      simp only [Option.some.injEq, Prod.mk.injEq]
      constructor
      · rintro ⟨⟨hmem, hsince, hpasses⟩, rfl, rfl⟩
        exact ⟨rfl, rfl, hmem, hsince, hpasses⟩
      · rintro ⟨rfl, rfl, hmem, hsince, hpasses⟩
        exact ⟨⟨hmem, hsince, hpasses⟩, rfl, rfl⟩
  · next hnull =>
      simp only [reduceCtorEq, false_iff]
      rintro ⟨happ, hstage, -⟩
      exact hnull app stage happ hstage

theorem dailyRow_eq_some {f : TrendFilter} {day : Time} {stage : String} :
    dailyRow f now row = some (day, stage) ↔
      row.cols.stage = some stage ∧
        (stage ∈ deliveryFunnelStages ∨ stage ∈ deliveryFailureStages) ∧
        firstDay f.days now ≤ row.cols.time ∧ f.admits row = true ∧
        dateTrunc .day row.cols.time = day := by
  unfold dailyRow
  split
  · next stage' hstage =>
      rw [Option.ite_none_right_eq_some, hstage]
      simp only [Option.some.injEq, Prod.mk.injEq]
      constructor
      · rintro ⟨⟨hmem, hsince, hadmits⟩, hday, rfl⟩
        exact ⟨rfl, hmem, hsince, hadmits, hday⟩
      · rintro ⟨rfl, hmem, hsince, hadmits, hday⟩
        exact ⟨⟨hmem, hsince, hadmits⟩, hday, rfl⟩
  · next hnull => simp [hnull]

theorem pipelineRow_eq_some {stage : String} :
    pipelineRow now row = some stage ↔ row.cols.stage = some stage ∧ stage ∈ funnelStageOrder ∧
      lastDayStart now ≤ row.cols.time := by
  rw [pipelineRow, Option.ite_none_right_eq_some, anyOf_eq_true]
  constructor
  · rintro ⟨⟨⟨v, hv, hmem⟩, hsince⟩, hstage⟩
    obtain rfl := Option.some.inj (hv.symm.trans hstage)
    exact ⟨hstage, hmem, hsince⟩
  · rintro ⟨hstage, hmem, hsince⟩
    exact ⟨⟨⟨stage, hstage, hmem⟩, hsince⟩, hstage⟩

theorem causeRow_isSome : (causeRow now row).isSome = isFailure 1 now row := by
  rw [causeRow, lastDayStart_eq, isFailure]
  split
  · next h => simp [h]
  · next h =>
      rw [not_and_or] at h
      rcases h with h | h <;> simp [h]

end Selection

end TelegramServer.Adminui

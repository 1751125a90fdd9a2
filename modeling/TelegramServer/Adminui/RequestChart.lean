import TelegramServer.Audit.Migration
import TelegramServer.Go.Civil
import TelegramServer.Lib.Counting
import TelegramServer.Registry.Database
import Mathlib.Algebra.BigOperators.Fin

/-!
The requests chart of the dashboard. The database counts the requests of each app in
buckets of time (`RequestBuckets`); the page builds the same buckets once more from the
calendar (`bucketAxis`), sorts the counts into them by the text of their start, and draws
a line for each of the busiest apps and one for the rest.

That both sides have the same buckets is a fact about the calendar: the starts are those
of `Go.buckets`, and a text names one of them. Then every request that is counted has its
place on the axis, and what is drawn adds up to the rows of the log.
-/

namespace TelegramServer.Adminui

open Go Lib Registry Audit

structure SeriesSpec where
  unit : String
  buckets : ℕ

structure AppDayCount where
  appID : String
  day : Time
  count : ℕ

/-! ### The query -/

/-- The fragments of SQL for a unit. -/
structure UnitSQL where
  trunc : TruncUnit
  interval : Interval

def seriesUnitSQL (unit : String) : Option UnitSQL :=
  if unit = "hour" then some ⟨.hour, { time := hourNs }⟩
  else if unit = "day" then some ⟨.day, { days := 1 }⟩
  else if unit = "month" then some ⟨.month, { months := 1 }⟩
  else none

/-- The lower bound of the query. -/
def windowStart (u : UnitSQL) (buckets : ℕ) (now : Time) : Time :=
  minusInterval (dateTrunc u.trunc now) (u.interval.scale (buckets - 1))

/-- The `WHERE` clause, and the columns to group by. -/
def requestRow (u : UnitSQL) (since : Time) (row : AuditRow Bytes) : Option (String × Time) :=
  match row.cols.appID with
  | none => none
  | some appID =>
      if row.cols.stage = some Stage.received.text ∧ since ≤ row.cols.time then
        some (appID, dateTrunc u.trunc row.cols.time)
      else none

/-- `RequestBuckets`, `none` for a unit it does not know. The order of the app ids is that of
the database's collation, so the groups come in any order here. -/
def requestBuckets (planner : Planner) (spec : SeriesSpec) (now : Time)
    (log : List (AuditRow Bytes)) : Option (List AppDayCount) :=
  (seriesUnitSQL spec.unit).map fun u =>
    (planner.arrange (countBy (requestRow u (windowStart u spec.buckets now)) log)).map fun g =>
      ⟨g.1.1, g.1.2, g.2⟩

/-! ### The chart -/

def bucketKeyFormat (unit : String) : Layout :=
  if unit = "hour" then .hour else if unit = "month" then .month else .day

def bucketAxis (spec : SeriesSpec) (now : Time) (i : Fin spec.buckets) : Time :=
  let c := civil now
  let k : ℤ := i + 1 - spec.buckets
  if spec.unit = "hour" then date c.year c.month c.day c.hour 0 0 0 + k * hourNs
  else if spec.unit = "month" then addDate (date c.year c.month 1 0 0 0 0) 0 k 0
  else addDate (date c.year c.month c.day 0 0 0 0) 0 0 k

/-- The map `bucketIndex`. A key that comes twice is overwritten. -/
def bucketIndex (spec : SeriesSpec) (now : Time) : String → Option (Fin spec.buckets) :=
  (List.finRange spec.buckets).foldl
    (fun index i =>
      Function.update index (format (bucketKeyFormat spec.unit) (bucketAxis spec now i)) (some i))
    fun _ => none

/-- The map `perApp`: an app's counts, by their place on the axis. -/
abbrev PerApp (n : ℕ) : Type := MapOfMaps String (Fin n)

/-- One round of the loop over the series. `place` is the index of a point, if it has one. -/
def pivotStep {n : ℕ} (place : AppDayCount → Option (Fin n)) (perApp : PerApp n)
    (p : AppDayCount) : PerApp n :=
  match place p with
  -- outside the window
  | none => perApp
  | some i => perApp.assign p.appID i p.count

def pivot {n : ℕ} (place : AppDayCount → Option (Fin n)) (series : List AppDayCount) : PerApp n :=
  series.foldl (pivotStep place) .empty

structure LineSeries (n : ℕ) where
  label : String
  counts : Fin n → ℕ
  rest : Bool := false

def LineSeries.total {n : ℕ} (line : LineSeries n) : ℕ := ∑ i, line.counts i

def appTotal {n : ℕ} (entry : InnerMap String (Fin n)) : ℕ := ∑ i, entry.counts i

def appLine {n : ℕ} (entry : InnerMap String (Fin n)) : LineSeries n where
  label := entry.key
  counts := entry.counts

def topLineChartApps : ℕ := 4

/-- The entries of the map, which a loop visits in any order, sorted by total and id. -/
def rankedApps {n : ℕ} (planner : Planner) (perApp : PerApp n) : List (InnerMap String (Fin n)) :=
  sortBy (fun entry => toLex (OrderDual.toDual (appTotal entry), entry.key))
    (planner.arrange perApp.rows)

/-- The line of the apps that are not among the first. -/
def restLine {n : ℕ} (totals : List (InnerMap String (Fin n))) : LineSeries n where
  label := "기타 " ++ formatInt (totals.length - topLineChartApps) ++ "개"
  counts := (totals.drop topLineChartApps).foldl (fun rest entry => rest + entry.counts) 0
  rest := true

def selectLineSeries {n : ℕ} (planner : Planner) (perApp : PerApp n) : List (LineSeries n) :=
  let totals := rankedApps planner perApp
  if totals.length ≤ topLineChartApps + 1 then totals.map appLine
  else (totals.take topLineChartApps).map appLine ++ [restLine totals]

/-- The lines that `buildLineChart` draws, `none` where there is no chart. -/
def buildLineChart (planner : Planner) (series : List AppDayCount) (spec : SeriesSpec)
    (now : Time) : Option (List (LineSeries spec.buckets)) :=
  if series.isEmpty then none
  else
    let index := bucketIndex spec now
    let perApp := pivot (fun p => index (format (bucketKeyFormat spec.unit) p.day)) series
    if perApp.rows.isEmpty then none else some (selectLineSeries planner perApp)

/-! ### What is asked of the chart -/

/-- The requests of an app in one bucket. -/
def appRequests (unit : TruncUnit) (log : List (AuditRow Bytes)) (app : String) (t : Time) : ℕ :=
  log.countP fun row => row.cols.stage = some Stage.received.text &&
    row.cols.appID = some app && dateTrunc unit row.cols.time = t

/-- The requests of all apps in one bucket. -/
def requests (unit : TruncUnit) (log : List (AuditRow Bytes)) (t : Time) : ℕ :=
  log.countP fun row => row.cols.stage = some Stage.received.text &&
    row.cols.appID.isSome && dateTrunc unit row.cols.time = t

/-- The lines show the log. -/
structure LinesFaithful {n : ℕ} (unit : TruncUnit) (log : List (AuditRow Bytes))
    (axis : Fin n → Time) (lines : List (LineSeries n)) : Prop where
  /-- Nothing is lost or invented. -/
  sum : ∀ i, (lines.map fun line => line.counts i).sum = requests unit log (axis i)
  few : lines.length ≤ topLineChartApps + 1
  individual : ∀ line ∈ lines, line.rest = false →
    ∀ i, line.counts i = appRequests unit log line.label (axis i)
  ordered : (lines.filter fun line => !line.rest).Pairwise fun line line' =>
    line'.total < line.total ∨ line.total = line'.total ∧ line.label < line'.label
  /-- A fold stands for at least two apps that are not drawn and not busier. -/
  folds : ∀ line ∈ lines, line.rest = true → ∃ folded : List String,
    folded.Nodup ∧ 2 ≤ folded.length ∧
      (∀ i, line.counts i = (folded.map fun app => appRequests unit log app (axis i)).sum) ∧
      ∀ app ∈ folded, ∀ line' ∈ lines, line'.rest = false → line'.label ≠ app ∧
        ∑ i, appRequests unit log app (axis i) ≤ line'.total

structure ChartFaithful (planner planner' : Planner) (u : UnitSQL) (spec : SeriesSpec) (now : Time)
    (log : List (AuditRow Bytes)) : Prop where
  increasing : StrictMono (bucketAxis spec now)
  /-- The axis ends at the bucket of `now` … -/
  last : ∀ i : Fin spec.buckets, (i : ℕ) + 1 = spec.buckets →
    bucketAxis spec now i = dateTrunc u.trunc now
  /-- … and starts where the query does. -/
  first : ∀ i : Fin spec.buckets, (i : ℕ) = 0 →
    bucketAxis spec now i = windowStart u spec.buckets now
  keys : Function.Injective fun i => format (bucketKeyFormat spec.unit) (bucketAxis spec now i)
  drawn : ∃ series, requestBuckets planner spec now log = some series ∧
    LinesFaithful u.trunc log (bucketAxis spec now)
      ((buildLineChart planner' series spec now).getD [])

/-! ### The axis -/

section Axis

variable {u : UnitSQL} {spec : SeriesSpec} {now : Time}

/-- The units the query knows. -/
theorem seriesUnitSQL_cases (h : seriesUnitSQL spec.unit = some u) :
    spec.unit = "hour" ∧ u = ⟨.hour, { time := hourNs }⟩ ∨
      spec.unit = "day" ∧ u = ⟨.day, { days := 1 }⟩ ∨
      spec.unit = "month" ∧ u = ⟨.month, { months := 1 }⟩ := by
  unfold seriesUnitSQL at h
  split_ifs at h with hhour hday hmonth
  · exact .inl ⟨hhour, (Option.some.inj h).symm⟩
  · exact .inr (.inl ⟨hday, (Option.some.inj h).symm⟩)
  · exact .inr (.inr ⟨hmonth, (Option.some.inj h).symm⟩)

theorem unit_bucketKeyFormat (h : seriesUnitSQL spec.unit = some u) :
    (bucketKeyFormat spec.unit).unit = u.trunc := by
  obtain ⟨hunit, rfl⟩ | ⟨hunit, rfl⟩ | ⟨hunit, rfl⟩ := seriesUnitSQL_cases h
  all_goals
    rw [hunit]
    rfl

/-- The axis is made of the starts of consecutive buckets. -/
theorem bucketAxis_eq (h : seriesUnitSQL spec.unit = some u) (i : Fin spec.buckets) :
    bucketAxis spec now i =
      (buckets u.trunc).start ((buckets u.trunc).index now + (i + 1 - spec.buckets)) := by
  -- the end of the axis is the start of the bucket of `now`
  have hend := dateTrunc_eq_floor u.trunc now
  obtain ⟨hunit, rfl⟩ | ⟨hunit, rfl⟩ | ⟨hunit, rfl⟩ := seriesUnitSQL_cases h
  · simp only [dateTrunc] at hend
    simp only [bucketAxis, hunit, reduceIte, hend]
    exact (add_mul _ _ _).symm
  · simp only [dateTrunc] at hend
    simp only [bucketAxis, hunit, String.reduceEq, reduceIte, hend, addDate_days]
    exact (add_mul _ _ _).symm
  · simp only [dateTrunc] at hend
    simp only [bucketAxis, hunit, String.reduceEq, reduceIte, hend]
    exact addDate_monthStart _ _

theorem windowStart_eq (h : seriesUnitSQL spec.unit = some u) :
    windowStart u spec.buckets now =
      (buckets u.trunc).start ((buckets u.trunc).index now - (spec.buckets - 1)) := by
  rw [windowStart, dateTrunc_eq_floor]
  obtain ⟨-, rfl⟩ | ⟨-, rfl⟩ | ⟨-, rfl⟩ := seriesUnitSQL_cases h
  · rw [minusInterval_hours]
    exact (sub_mul _ _ _).symm
  · rw [minusInterval_days]
    exact (sub_mul _ _ _).symm
  · exact minusInterval_monthStart _ _

/-- A thousand buckets before a year of four digits are not before the year 1. -/
theorem start_nonneg {unit : TruncUnit} {k : ℤ} (hnow : 1000 ≤ (civil now).year)
    (hk : -1000 < k) : 0 ≤ (buckets unit).start ((buckets unit).index now + k) := by
  have hyear : Calendar.monthStart (12 * 1000) * dayNs ≤ now := (le_year_iff 1000).mp hnow
  have hmillennium : Calendar.monthStart (12 * 1000) = 364877 := by decide
  have hzero : (buckets unit).start ((buckets unit).index 0) = 0 := by cases unit <;> decide
  have hroom : (buckets unit).start ((buckets unit).index 0 + 999) ≤ 364877 * dayNs := by
    cases unit <;> decide
  rw [hmillennium] at hyear
  have hindex := ((buckets unit).gc _ _).mp (hroom.trans hyear)
  have hmono := (buckets unit).strictMono.monotone
    (show (buckets unit).index 0 ≤ (buckets unit).index now + k by omega)
  exact hzero.ge.trans hmono

theorem bucketAxis_nonneg (h : seriesUnitSQL spec.unit = some u) (hbuckets : spec.buckets ≤ 1000)
    (hnow : 1000 ≤ (civil now).year) (i : Fin spec.buckets) : 0 ≤ bucketAxis spec now i := by
  rw [bucketAxis_eq h]
  exact start_nonneg hnow (by omega)

theorem bucketAxis_strictMono (h : seriesUnitSQL spec.unit = some u) :
    StrictMono (bucketAxis spec now) := by
  intro i j hij
  rw [bucketAxis_eq h, bucketAxis_eq h]
  have hlt : (i : ℕ) < j := hij
  exact (buckets u.trunc).strictMono (by omega)

theorem dateTrunc_bucketAxis (h : seriesUnitSQL spec.unit = some u) (i : Fin spec.buckets) :
    dateTrunc u.trunc (bucketAxis spec now i) = bucketAxis spec now i := by
  rw [dateTrunc_eq_floor, bucketAxis_eq h, Buckets.floor_start]

theorem bucketKeys_injective (h : seriesUnitSQL spec.unit = some u) (hbuckets : spec.buckets ≤ 1000)
    (hnow : 1000 ≤ (civil now).year) :
    Function.Injective fun i => format (bucketKeyFormat spec.unit) (bucketAxis spec now i) := by
  intro i j hkey
  have htrunc := dateTrunc_eq_of_format_eq (bucketAxis_nonneg h hbuckets hnow i)
    (bucketAxis_nonneg h hbuckets hnow j) hkey
  rw [unit_bucketKeyFormat h, dateTrunc_bucketAxis h, dateTrunc_bucketAxis h] at htrunc
  exact (bucketAxis_strictMono h).injective htrunc

/-- A row of the query has its place on the axis. -/
theorem exists_bucketAxis_eq (h : seriesUnitSQL spec.unit = some u) {t : Time}
    (hsince : windowStart u spec.buckets now ≤ t) (hpast : t ≤ now) :
    ∃ i, bucketAxis spec now i = dateTrunc u.trunc t := by
  rw [windowStart_eq h] at hsince
  obtain ⟨hlow, hhigh⟩ := (buckets u.trunc).index_mem_Icc hsince hpast
  have hlt : ((buckets u.trunc).index t - (buckets u.trunc).index now + spec.buckets - 1).toNat <
      spec.buckets := by
    omega
  refine ⟨⟨_, hlt⟩, ?_⟩
  rw [bucketAxis_eq h, dateTrunc_eq_floor, Buckets.floor]
  congr 1
  simp only
  omega

/-- The rows of a bucket of the axis are all in the window. -/
theorem windowStart_le (h : seriesUnitSQL spec.unit = some u) {t : Time} {i : Fin spec.buckets}
    (ht : dateTrunc u.trunc t = bucketAxis spec now i) : windowStart u spec.buckets now ≤ t := by
  rw [dateTrunc_eq_floor, bucketAxis_eq h, Buckets.floor_eq_start_iff] at ht
  rw [windowStart_eq h]
  refine ((buckets u.trunc).gc _ _).mpr ?_
  omega

end Axis

/-! ### The map of keys -/

theorem bucketIndex_eq {spec : SeriesSpec} {now : Time}
    (hkeys : Function.Injective fun i =>
      format (bucketKeyFormat spec.unit) (bucketAxis spec now i)) (i : Fin spec.buckets) :
    bucketIndex spec now (format (bucketKeyFormat spec.unit) (bucketAxis spec now i)) = some i := by
  exact foldl_update_of_mem (fun j _ j' _ heq => hkeys heq) (List.mem_finRange i)

/-! ### The pivot -/

section Pivot

variable {n : ℕ} {place : AppDayCount → Option (Fin n)} {series : List AppDayCount}

/-- The points that have a place are assigned to it, one after the other. -/
theorem pivot_eq : pivot place series =
    .ofGroups (series.filterMap fun p => (place p).map fun i => ((p.appID, i), p.count)) := by
  rw [pivot, MapOfMaps.ofGroups, List.foldl_filterMap]
  congr 1
  funext perApp p
  unfold pivotStep
  cases place p <;> rfl

theorem mem_placed {g : (String × Fin n) × ℕ} :
    (g ∈ series.filterMap fun p => (place p).map fun i => ((p.appID, i), p.count)) ↔
      ∃ p ∈ series, p.appID = g.1.1 ∧ place p = some g.1.2 ∧ p.count = g.2 := by
  simp only [List.mem_filterMap, Option.map_eq_some_iff]
  constructor
  · rintro ⟨p, hp, i, hi, rfl⟩
    exact ⟨p, hp, rfl, hi, rfl⟩
  · rintro ⟨p, hp, happ, hi, hcount⟩
    exact ⟨p, hp, _, hi, Prod.ext (Prod.ext happ rfl) hcount⟩

end Pivot

/-! ### The series -/

section Series

variable {planner : Planner} {u : UnitSQL} {spec : SeriesSpec} {now : Time}
  {log : List (AuditRow Bytes)} {series : List AppDayCount} {p : AppDayCount}

theorem requestRow_eq_some {since : Time} {row : AuditRow Bytes} {app : String} {t : Time} :
    requestRow u since row = some (app, t) ↔
      row.cols.stage = some Stage.received.text ∧ row.cols.appID = some app ∧
        since ≤ row.cols.time ∧ dateTrunc u.trunc row.cols.time = t := by
  unfold requestRow
  split
  · next happ => simp [happ]
  · next app' happ =>
      rw [Option.ite_none_right_eq_some, happ]
      simp only [Option.some.injEq, Prod.mk.injEq]
      tauto

section Groups

variable (h : seriesUnitSQL spec.unit = some u)
  (hseries : requestBuckets planner spec now log = some series)
include h hseries

/-- The series has the groups, in some order. -/
theorem requestBuckets_perm : ∃ groups : List ((String × Time) × ℕ),
    series = groups.map (fun g => ⟨g.1.1, g.1.2, g.2⟩) ∧
      groups.Perm (countBy (requestRow u (windowStart u spec.buckets now)) log) := by
  rw [requestBuckets, h, Option.map_some] at hseries
  exact ⟨_, (Option.some.inj hseries).symm, planner.perm _⟩

/-- A point is a bucket of an app, with its rows. -/
theorem mem_requestBuckets :
    p ∈ series ↔ p.count ≠ 0 ∧ p.count = log.countP fun row =>
      requestRow u (windowStart u spec.buckets now) row = some (p.appID, p.day) := by
  obtain ⟨groups, rfl, hgroups⟩ := requestBuckets_perm h hseries
  rw [← mem_countBy, ← hgroups.mem_iff, List.mem_map]
  constructor
  · rintro ⟨g, hg, rfl⟩
    exact hg
  · intro hp
    exact ⟨((p.appID, p.day), p.count), hp, rfl⟩

theorem nodup_requestBuckets : (series.map fun p => (p.appID, p.day)).Nodup := by
  obtain ⟨groups, rfl, hgroups⟩ := requestBuckets_perm h hseries
  rw [List.map_map]
  exact nodup_groups hgroups

end Groups

/-- The window leaves out no row of a bucket of the axis. -/
theorem countP_requestRow (h : seriesUnitSQL spec.unit = some u) (app : String)
    (i : Fin spec.buckets) :
    (log.countP fun row => requestRow u (windowStart u spec.buckets now) row =
      some (app, bucketAxis spec now i)) = appRequests u.trunc log app (bucketAxis spec now i) := by
  refine List.countP_congr fun row _ => ?_
  simp only [decide_eq_true_eq, requestRow_eq_some, Bool.and_eq_true, and_assoc]
  constructor
  · rintro ⟨hstage, happ, -, ht⟩
    exact ⟨hstage, happ, ht⟩
  · rintro ⟨hstage, happ, ht⟩
    exact ⟨hstage, happ, windowStart_le h ht, ht⟩

/-- **The pivot has the requests of each app and bucket.** -/
theorem cell_pivot (h : seriesUnitSQL spec.unit = some u) (hbuckets : spec.buckets ≤ 1000)
    (hnow : 1000 ≤ (civil now).year) (hpast : ∀ row ∈ log, row.cols.time ≤ now)
    (hseries : requestBuckets planner spec now log = some series) (app : String)
    (i : Fin spec.buckets) :
    (pivot (fun p => bucketIndex spec now (format (bucketKeyFormat spec.unit) p.day)) series).cell
      app i = appRequests u.trunc log app (bucketAxis spec now i) := by
  have hindex := bucketIndex_eq (bucketKeys_injective h hbuckets hnow)
  have haxis : ∀ p ∈ series, ∃ j, bucketAxis spec now j = p.day := by
    intro p hp
    obtain ⟨hne, hcount⟩ := (mem_requestBuckets h hseries).mp hp
    obtain ⟨row, hrow, hmatch⟩ := List.countP_pos_iff.mp (Nat.pos_of_ne_zero (hcount ▸ hne))
    obtain ⟨-, -, hsince, ht⟩ := requestRow_eq_some.mp (of_decide_eq_true hmatch)
    exact ht ▸ exists_bucketAxis_eq h hsince (hpast row hrow)
  have hplace : ∀ p ∈ series, ∀ j,
      bucketIndex spec now (format (bucketKeyFormat spec.unit) p.day) = some j →
      p.day = bucketAxis spec now j := by
    intro p hp j hj
    obtain ⟨j', hj'⟩ := haxis p hp
    rw [← hj', hindex, Option.some.injEq] at hj
    rw [← hj', hj]
  rw [pivot_eq, MapOfMaps.ofGroups, MapOfMaps.cell_foldl]
  by_cases hzero : appRequests u.trunc log app (bucketAxis spec now i) = 0
  · -- no point for this cell
    rw [foldl_update_of_notMem, hzero]
    · rfl
    · intro hmem
      obtain ⟨g, hg, heq⟩ := List.mem_map.mp hmem
      obtain ⟨p, hp, happ, hi, -⟩ := mem_placed.mp hg
      rw [heq] at happ hi
      obtain ⟨hne, hcount⟩ := (mem_requestBuckets h hseries).mp hp
      rw [hplace p hp i hi, happ, countP_requestRow h, hzero] at hcount
      exact hne hcount
  · have hp : (⟨app, bucketAxis spec now i,
        appRequests u.trunc log app (bucketAxis spec now i)⟩ : AppDayCount) ∈ series :=
      (mem_requestBuckets h hseries).mpr ⟨hzero, (countP_requestRow h app i).symm⟩
    refine foldl_update_of_mem (fun g hg g' hg' heq => ?_)
      (a := ((app, i), appRequests u.trunc log app (bucketAxis spec now i)))
      (mem_placed.mpr ⟨_, hp, rfl, hindex i, rfl⟩)
    obtain ⟨p, hp, happ, hi, hcount⟩ := mem_placed.mp hg
    obtain ⟨p', hp', happ', hi', hcount'⟩ := mem_placed.mp hg'
    rw [← heq] at happ' hi'
    have hsame : p = p' := by
      refine List.inj_on_of_nodup_map (nodup_requestBuckets h hseries) hp hp' ?_
      rw [happ, happ', hplace p hp _ hi, hplace p' hp' _ hi']
    exact Prod.ext heq (hcount.symm.trans ((congrArg AppDayCount.count hsame).trans hcount'))

end Series

/-! ### The lines -/

section Lines

variable {n : ℕ} {planner : Planner} {perApp : PerApp n} {unit : TruncUnit}
  {log : List (AuditRow Bytes)} {axis : Fin n → Time}

theorem rankedApps_perm : (rankedApps planner perApp).Perm perApp.rows :=
  (sortBy_perm _ _).trans (planner.perm _)

/-- The order of the lines. -/
def Outranks (entry entry' : InnerMap String (Fin n)) : Prop :=
  appTotal entry' < appTotal entry ∨ appTotal entry = appTotal entry' ∧ entry.key < entry'.key

theorem nodup_rankedApps : ((rankedApps planner perApp).map InnerMap.key).Nodup :=
  (rankedApps_perm.map _).nodup_iff.mpr perApp.nodup

theorem pairwise_rankedApps : (rankedApps planner perApp).Pairwise Outranks := by
  refine (pairwise_sortBy _ _).imp₂ (fun entry entry' hle hne => ?_)
    (List.pairwise_map.mp nodup_rankedApps)
  obtain hlt | ⟨heq, hid⟩ := Prod.Lex.toLex_le_toLex.mp hle
  · exact .inl hlt
  · exact .inr ⟨heq, lt_of_le_of_ne hid hne⟩

theorem Outranks.total_le {entry entry' : InnerMap String (Fin n)} (h : Outranks entry entry') :
    appTotal entry' ≤ appTotal entry :=
  h.elim le_of_lt fun h => h.1.ge

theorem foldl_add_counts (entries : List (InnerMap String (Fin n))) (rest : Fin n → ℕ) (i : Fin n) :
    entries.foldl (fun rest entry => rest + entry.counts) rest i =
      rest i + (entries.map fun entry => entry.counts i).sum := by
  induction entries generalizing rest with
  | nil => simp
  | cons entry entries ih =>
      rw [List.foldl_cons, ih, List.map_cons, List.sum_cons, Pi.add_apply, add_assoc]

theorem counts_restLine (totals : List (InnerMap String (Fin n))) (i : Fin n) :
    (restLine totals).counts i =
      ((totals.drop topLineChartApps).map fun entry => entry.counts i).sum :=
  (foldl_add_counts _ 0 i).trans (zero_add _)

/-- Folded or not, the lines add up to the map. -/
theorem sum_selectLineSeries (i : Fin n) :
    ((selectLineSeries planner perApp).map fun line => line.counts i).sum =
      (perApp.rows.map fun entry => entry.counts i).sum := by
  have hperm : (rankedApps planner perApp).Perm perApp.rows := rankedApps_perm
  rw [← (hperm.map fun entry => entry.counts i).sum_eq]
  simp only [selectLineSeries]
  split
  · rw [List.map_map]
    rfl
  · rw [List.map_append, List.sum_append, List.map_map, List.map_singleton, List.sum_singleton,
      counts_restLine]
    conv_rhs => rw [← List.take_append_drop topLineChartApps (rankedApps planner perApp),
      List.map_append, List.sum_append]
    rfl

/-- The lines that are not folded. -/
theorem exists_of_mem_selectLineSeries {line : LineSeries n}
    (h : line ∈ selectLineSeries planner perApp) (hrest : line.rest = false) :
    ∃ entry ∈ perApp.rows, line = appLine entry := by
  simp only [selectLineSeries] at h
  split at h
  · obtain ⟨entry, hentry, rfl⟩ := List.mem_map.mp h
    exact ⟨entry, rankedApps_perm.mem_iff.mp hentry, rfl⟩
  · obtain h | h := List.mem_append.mp h
    · obtain ⟨entry, hentry, rfl⟩ := List.mem_map.mp h
      exact ⟨entry, rankedApps_perm.mem_iff.mp (List.mem_of_mem_take hentry), rfl⟩
    · rw [List.mem_singleton.mp h] at hrest
      cases hrest

theorem filter_map_line (entries : List (InnerMap String (Fin n))) :
    ((entries.map appLine).filter fun line => !line.rest) = entries.map appLine :=
  List.filter_eq_self.mpr fun line hline => by
    obtain ⟨entry, -, rfl⟩ := List.mem_map.mp hline
    rfl

theorem pairwise_selectLineSeries :
    ((selectLineSeries planner perApp).filter fun line => !line.rest).Pairwise fun line line' =>
      line'.total < line.total ∨ line.total = line'.total ∧ line.label < line'.label := by
  simp only [selectLineSeries]
  split
  · rw [filter_map_line]
    exact List.pairwise_map.mpr pairwise_rankedApps
  · have hrest : ([restLine (rankedApps planner perApp)].filter fun line => !line.rest) = [] := rfl
    rw [List.filter_append, filter_map_line, hrest, List.append_nil]
    exact List.pairwise_map.mpr (pairwise_rankedApps.sublist (List.take_sublist _ _))

/-- What a fold stands for. -/
theorem exists_folded {line : LineSeries n} (h : line ∈ selectLineSeries planner perApp)
    (hrest : line.rest = true) :
    ∃ folded : List (InnerMap String (Fin n)), (∀ entry ∈ folded, entry ∈ perApp.rows) ∧
      (folded.map InnerMap.key).Nodup ∧ 2 ≤ folded.length ∧
      (∀ i, line.counts i = (folded.map fun entry => entry.counts i).sum) ∧
      ∀ entry ∈ folded, ∀ line' ∈ selectLineSeries planner perApp, line'.rest = false →
        line'.label ≠ entry.key ∧ appTotal entry ≤ line'.total := by
  simp only [selectLineSeries] at h ⊢
  split at h
  · obtain ⟨entry, -, rfl⟩ := List.mem_map.mp h
    cases hrest
  · next hmany =>
      rw [if_neg hmany]
      obtain h | h := List.mem_append.mp h
      · obtain ⟨entry, -, rfl⟩ := List.mem_map.mp h
        cases hrest
      · obtain rfl := List.mem_singleton.mp h
        have hids : ((rankedApps planner perApp).map InnerMap.key).Nodup := nodup_rankedApps
        have hranks : (rankedApps planner perApp).Pairwise Outranks := pairwise_rankedApps
        rw [← List.take_append_drop topLineChartApps (rankedApps planner perApp)] at hids hranks
        rw [List.map_append, List.nodup_append] at hids
        rw [List.pairwise_append] at hranks
        refine ⟨(rankedApps planner perApp).drop topLineChartApps, ?_, hids.2.1, ?_, ?_, ?_⟩
        · intro entry hentry
          exact rankedApps_perm.mem_iff.mp (List.mem_of_mem_drop hentry)
        · rw [List.length_drop]
          omega
        · exact counts_restLine _
        · intro entry hentry line' hline' hrest'
          obtain hline' | hline' := List.mem_append.mp hline'
          · obtain ⟨entry', hentry', rfl⟩ := List.mem_map.mp hline'
            exact ⟨hids.2.2 _ (List.mem_map_of_mem hentry') _ (List.mem_map_of_mem hentry),
              (hranks.2.2 entry' hentry' entry hentry).total_le⟩
          · rw [List.mem_singleton.mp hline'] at hrest'
            cases hrest'

theorem length_selectLineSeries :
    (selectLineSeries planner perApp).length ≤ topLineChartApps + 1 := by
  simp only [selectLineSeries]
  split
  · next hfew => rwa [List.length_map]
  · rw [List.length_append, List.length_map, List.length_take, List.length_singleton]
    omega

/-- The entries of the map add up to all requests. -/
theorem sum_rows_eq_requests
    (hcell : ∀ app i, perApp.cell app i = appRequests unit log app (axis i)) (i : Fin n) :
    (perApp.rows.map fun entry => entry.counts i).sum = requests unit log (axis i) := by
  have happs : ∀ row ∈ log, (row.cols.stage = some Stage.received.text &&
      row.cols.appID.isSome && dateTrunc unit row.cols.time = axis i) = true →
      ∃ app ∈ perApp.keys, row.cols.appID = some app := by
    intro row hrow hcounts
    simp only [Bool.and_eq_true, decide_eq_true_eq] at hcounts
    obtain ⟨⟨hstage, happ⟩, ht⟩ := hcounts
    obtain ⟨app, happ⟩ := Option.isSome_iff_exists.mp happ
    refine ⟨app, ?_, happ⟩
    by_contra hnot
    have hzero := MapOfMaps.cell_of_notMem_keys (i := i) hnot
    rw [hcell, appRequests, List.countP_eq_zero] at hzero
    exact hzero row hrow (by simp [hstage, happ, ht])
  have hsum := sum_countP_key perApp.nodup happs
  rw [requests, ← hsum, List.map_map]
  refine congrArg List.sum (List.map_congr_left fun entry hentry => ?_)
  rw [MapOfMaps.counts_eq_cell hentry, hcell]
  refine List.countP_congr fun row _ => ?_
  simp only [Bool.and_eq_true, decide_eq_true_eq]
  constructor
  · rintro ⟨⟨hstage, happ⟩, ht⟩
    exact ⟨⟨⟨hstage, by rw [happ]; rfl⟩, ht⟩, happ⟩
  · rintro ⟨⟨⟨hstage, -⟩, ht⟩, happ⟩
    exact ⟨⟨hstage, happ⟩, ht⟩

theorem linesFaithful_selectLineSeries
    (hcell : ∀ app i, perApp.cell app i = appRequests unit log app (axis i)) :
    LinesFaithful unit log axis (selectLineSeries planner perApp) where
  sum i := (sum_selectLineSeries i).trans (sum_rows_eq_requests hcell i)
  few := length_selectLineSeries
  individual := by
    intro line hline hrest i
    obtain ⟨entry, hentry, rfl⟩ := exists_of_mem_selectLineSeries hline hrest
    exact (MapOfMaps.counts_eq_cell hentry).trans (hcell _ _)
  ordered := pairwise_selectLineSeries
  folds := by
    intro line hline hrest
    obtain ⟨folded, hrows, hnodup, htwo, hcounts, hrank⟩ := exists_folded hline hrest
    have hentry : ∀ entry ∈ folded, ∀ i, entry.counts i = appRequests unit log entry.key (axis i) :=
      fun entry hentry i => (MapOfMaps.counts_eq_cell (hrows entry hentry)).trans (hcell _ _)
    refine ⟨folded.map InnerMap.key, hnodup, by rwa [List.length_map], fun i => ?_, ?_⟩
    · rw [hcounts, List.map_map]
      exact congrArg List.sum (List.map_congr_left fun entry hmem => hentry entry hmem i)
    · intro app happ line' hline' hrest'
      obtain ⟨entry, hmem, rfl⟩ := List.mem_map.mp happ
      obtain ⟨hne, hle⟩ := hrank entry hmem line' hline' hrest'
      refine ⟨hne, le_trans (le_of_eq ?_) hle⟩
      exact Finset.sum_congr rfl fun i _ => (hentry entry hmem i).symm

end Lines

/-- Where there is no chart, there is nothing to draw. -/
theorem getD_buildLineChart (planner : Planner) (series : List AppDayCount) (spec : SeriesSpec)
    (now : Time) :
    (buildLineChart planner series spec now).getD [] =
      selectLineSeries planner
        (pivot (fun p => bucketIndex spec now (format (bucketKeyFormat spec.unit) p.day))
          series) := by
  have hempty {perApp : PerApp spec.buckets} (h : perApp.rows = []) :
      selectLineSeries planner perApp = [] := by
    have hranked : rankedApps planner perApp = [] := List.perm_nil.mp (h ▸ rankedApps_perm)
    simp [selectLineSeries, hranked]
  simp only [buildLineChart]
  split
  · next hseries =>
      rw [List.isEmpty_iff.mp hseries]
      exact (hempty rfl).symm
  · split
    · next hrows => exact (hempty (List.isEmpty_iff.mp hrows)).symm
    · rfl

/-- **The requests chart loses and invents nothing.** -/
theorem requestChart_faithful (planner planner' : Planner) {u : UnitSQL} (spec : SeriesSpec)
    (now : Time) (log : List (AuditRow Bytes)) (hunit : seriesUnitSQL spec.unit = some u)
    (hbuckets : 1 ≤ spec.buckets ∧ spec.buckets ≤ 1000)
    (hnow : 1000 ≤ (civil now).year ∧ (civil now).year ≤ 9999)
    (hpast : ∀ row ∈ log, row.cols.time ≤ now) :
    ChartFaithful planner planner' u spec now log where
  increasing := bucketAxis_strictMono hunit
  last := by
    intro i hi
    rw [bucketAxis_eq hunit, dateTrunc_eq_floor, Buckets.floor]
    congr 1
    omega
  first := by
    intro i hi
    rw [bucketAxis_eq hunit, windowStart_eq hunit]
    congr 1
    omega
  keys := bucketKeys_injective hunit hbuckets.2 hnow.1
  drawn := by
    obtain ⟨series, hseries⟩ : ∃ series, requestBuckets planner spec now log = some series := by
      rw [requestBuckets, hunit]
      exact ⟨_, rfl⟩
    refine ⟨series, hseries, ?_⟩
    rw [getD_buildLineChart]
    exact linesFaithful_selectLineSeries (cell_pivot hunit hbuckets.2 hnow.1 hpast hseries)

/-- A request of 29 February 2024, at 23:00. -/
def leapDayRequest : AuditRow Bytes where
  id := 1
  cols := insertValues (date 2024 2 29 23 0 0 0) { stage := .received, appID := "news" } (.map [])
  prevHash := []
  rowHash := []

theorem leapDay_faithful :
    (civil (date 2024 3 1 0 30 0 0)).year = 2024 ∧
      requests .day [leapDayRequest] (date 2024 2 29 0 0 0 0) = 1 ∧
      ChartFaithful .inOrder .inOrder ⟨.day, { days := 1 }⟩ ⟨"day", 7⟩ (date 2024 3 1 0 30 0 0)
        [leapDayRequest] :=
  ⟨by decide +kernel, by decide +kernel,
    requestChart_faithful .inOrder .inOrder ⟨"day", 7⟩ (date 2024 3 1 0 30 0 0) [leapDayRequest]
      rfl (by decide) (by decide +kernel) (by decide +kernel)⟩

end TelegramServer.Adminui

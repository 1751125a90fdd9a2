import TelegramServer.Go.Strconv
import TelegramServer.Lib.Calendar

/-!
Dates and times of day in UTC: the fields of a `time.Time`, `time.Date`, `AddDate` and
`Format`, and `date_trunc` and the arithmetic of intervals in Postgres, which share the
calendar with them and nothing else.
-/

namespace TelegramServer.Go

open Lib

def hourNs : ℤ := 3600 * second

def dayNs : ℤ := 24 * hourNs

/-- The fields of an instant. -/
structure Civil where
  year : ℤ
  month : ℤ
  day : ℤ
  hour : ℤ
  minute : ℤ
  sec : ℤ
  nsec : ℤ

def civil (t : Time) : Civil :=
  let days := t / dayNs
  let month := Calendar.monthIndex days
  let clock := t % dayNs
  { year := month / 12
    month := month % 12 + 1
    day := days - Calendar.monthStart month + 1
    hour := clock / hourNs
    minute := clock % hourNs / (60 * second)
    sec := clock % (60 * second) / second
    nsec := clock % second }

/-- `time.Date(..., time.UTC)`. A field out of its range carries over into the next. -/
def date (year month day hour minute sec nsec : ℤ) : Time :=
  (Calendar.monthStart (12 * year + (month - 1)) + (day - 1)) * dayNs + hour * hourNs +
    minute * (60 * second) + sec * second + nsec

/-- `t.AddDate`. -/
def addDate (t : Time) (years months days : ℤ) : Time :=
  let c := civil t
  date (c.year + years) (c.month + months) (c.day + days) c.hour c.minute c.sec c.nsec

/-! ### Postgres -/

inductive TruncUnit
  | hour | day | month
  deriving DecidableEq

/-- `date_trunc`. -/
def dateTrunc (unit : TruncUnit) (t : Time) : Time :=
  let c := civil t
  match unit with
  | .hour => date c.year c.month c.day c.hour 0 0 0
  | .day => date c.year c.month c.day 0 0 0 0
  | .month => date c.year c.month 1 0 0 0 0

/-- An `interval`. -/
structure Interval where
  months : ℤ := 0
  days : ℤ := 0
  time : ℤ := 0

def Interval.scale (k : ℤ) (i : Interval) : Interval := ⟨k * i.months, k * i.days, k * i.time⟩

/-- `timestamp - interval`. A month that is too short for the day ends the month. -/
def minusInterval (t : Time) (i : Interval) : Time :=
  let c := civil t
  let month := 12 * c.year + (c.month - 1) - i.months
  let t :=
    if i.months = 0 then t
    else
      date (month / 12) (month % 12 + 1) (min c.day (Calendar.monthLength month)) c.hour c.minute
        c.sec c.nsec
  t - i.days * dayNs - i.time

/-! ### Formats -/

/-- `appendInt`: a number with zeros in front. -/
def appendInt (x : ℤ) (width : ℕ) : List Char :=
  let digits := formatNat x.natAbs
  (if x < 0 then ['-'] else []) ++ List.replicate (width - digits.length) '0' ++ digits

/-- The layouts of the server, by what they are made of. -/
inductive Layout
  /-- `2006-01-02T15` -/
  | hour
  /-- `2006-01-02` -/
  | day
  /-- `2006-01` -/
  | month
  deriving DecidableEq

/-- `t.Format`. -/
def format (layout : Layout) (t : Time) : String :=
  let c := civil t
  let month := appendInt c.year 4 ++ '-' :: appendInt c.month 2
  let day := month ++ '-' :: appendInt c.day 2
  String.ofList
    (match layout with
    | .hour => day ++ 'T' :: appendInt c.hour 2
    | .day => day
    | .month => month)

/-! ### The fields and the instant -/

section Fields

variable {t t' : Time}

theorem monthIndex_civil (t : Time) :
    12 * (civil t).year + ((civil t).month - 1) = Calendar.monthIndex (t / dayNs) := by
  simp only [civil]
  omega

theorem monthStart_civil (t : Time) :
    Calendar.monthStart (12 * (civil t).year + ((civil t).month - 1)) + ((civil t).day - 1) =
      t / dayNs := by
  rw [monthIndex_civil]
  simp only [civil]
  omega

theorem clock_civil (t : Time) :
    (civil t).hour * hourNs + (civil t).minute * (60 * second) + (civil t).sec * second +
      (civil t).nsec = t % dayNs := by
  simp only [civil, dayNs, hourNs, second]
  omega

/-- The days go through `Date` unchanged. -/
theorem addDate_days (t : Time) (k : ℤ) : addDate t 0 0 k = t + k * dayNs := by
  have hdays := monthStart_civil t
  have hclock := clock_civil t
  simp only [addDate, date, add_zero]
  have hshift : Calendar.monthStart (12 * (civil t).year + ((civil t).month - 1)) +
      ((civil t).day + k - 1) = t / dayNs + k := by
    omega
  rw [hshift]
  have hsplit := Int.mul_ediv_add_emod t dayNs
  linarith

/-! ### Buckets -/

/-- The hours, days and months as buckets. -/
def buckets : TruncUnit → Buckets ℤ
  | .hour => .every hourNs (by decide)
  | .day => .every dayNs (by decide)
  | .month => (Buckets.every dayNs (by decide)).comp Calendar.months

theorem dateTrunc_eq_floor (unit : TruncUnit) (t : Time) :
    dateTrunc unit t = (buckets unit).floor t := by
  have hdays := monthStart_civil t
  cases unit with
  | hour =>
      have hhour : (civil t).hour = t % dayNs / hourNs := rfl
      have hclock (n : ℤ) : n / dayNs * dayNs + n % dayNs / hourNs * hourNs =
          n / hourNs * hourNs := by
        simp only [dayNs, hourNs, second]
        omega
      simp only [dateTrunc, date, hdays, hhour, zero_mul, add_zero]
      exact hclock t
  | day =>
      simp only [dateTrunc, date, hdays, zero_mul, add_zero]
      rfl
  | month =>
      simp only [dateTrunc, date, monthIndex_civil, sub_self, zero_mul, add_zero]
      rfl

theorem minusInterval_hours (t : Time) (k : ℤ) :
    minusInterval t (Interval.scale k { time := hourNs }) = t - k * hourNs := by
  simp [minusInterval, Interval.scale]

theorem minusInterval_days (t : Time) (k : ℤ) :
    minusInterval t (Interval.scale k { days := 1 }) = t - k * dayNs := by
  simp [minusInterval, Interval.scale]

/-- The first of a month. -/
theorem civil_monthStart (n : ℤ) :
    civil (Calendar.monthStart n * dayNs) = ⟨n / 12, n % 12 + 1, 1, 0, 0, 0, 0⟩ := by
  have hdays : Calendar.monthStart n * dayNs / dayNs = Calendar.monthStart n :=
    Int.mul_ediv_cancel _ (by decide)
  have hclock : Calendar.monthStart n * dayNs % dayNs = 0 := Int.mul_emod_left ..
  have hmonth : Calendar.monthIndex (Calendar.monthStart n) = n := Calendar.months.index_start n
  simp [civil, hdays, hclock, hmonth]

/-- A month forward or back from the first of a month is a first of a month. -/
theorem addDate_monthStart (n k : ℤ) :
    addDate (Calendar.monthStart n * dayNs) 0 k 0 = Calendar.monthStart (n + k) * dayNs := by
  have hmonth : 12 * (n / 12 + 0) + (n % 12 + 1 + k - 1) = n + k := by omega
  simp only [addDate, date, civil_monthStart, hmonth]
  ring

theorem minusInterval_monthStart (n k : ℤ) :
    minusInterval (Calendar.monthStart n * dayNs) (Interval.scale k { months := 1 }) =
      Calendar.monthStart (n - k) * dayNs := by
  have hmonth : 12 * (n / 12) + (n % 12 + 1 - 1) - k * 1 = n - k := by omega
  have hnorm : 12 * ((n - k) / 12) + ((n - k) % 12 + 1 - 1) = n - k := by omega
  have hfirst : min (1 : ℤ) (Calendar.monthLength (n - k)) = 1 := by
    have := Calendar.monthLength_pos (n - k)
    omega
  simp only [minusInterval, Interval.scale, civil_monthStart, hmonth, date, hnorm, hfirst]
  split
  · next hzero =>
      obtain rfl : k = 0 := by omega
      simp
  · simp

theorem month_nonneg (t : Time) : 0 ≤ (civil t).month := by
  simp only [civil]
  omega

theorem day_nonneg (t : Time) : 0 ≤ (civil t).day := by
  have := (Calendar.monthStart_monthIndex (t / dayNs)).1
  simp only [civil]
  omega

theorem hour_nonneg (t : Time) : 0 ≤ (civil t).hour :=
  Int.ediv_nonneg (Int.emod_nonneg _ (by decide)) (by decide)

/-- An instant is after the start of the year it is in. -/
theorem le_year_iff (y : ℤ) : y ≤ (civil t).year ↔ Calendar.monthStart (12 * y) * dayNs ≤ t := by
  have hgc := (buckets .month).gc (12 * y) t
  have hyear : y ≤ (civil t).year ↔ 12 * y ≤ Calendar.monthIndex (t / dayNs) := by
    simp only [civil]
    omega
  exact hyear.trans hgc.symm

theorem year_nonneg (h : 0 ≤ t) : 0 ≤ (civil t).year := by
  refine (le_year_iff 0).mpr (le_trans ?_ h)
  decide

/-! ### Reading a format back -/

theorem isDigit_of_mem_appendInt {x : ℤ} {width : ℕ} {c : Char} (hx : 0 ≤ x)
    (h : c ∈ appendInt x width) : isDigit c = true := by
  simp only [appendInt, if_neg (not_lt.mpr hx), List.nil_append, List.mem_append,
    List.mem_replicate] at h
  obtain ⟨-, rfl⟩ | h := h
  · decide
  · exact isDigit_of_mem_formatNat h

theorem parseNat_zero_cons {cs : List Char} (h : cs ≠ []) : parseNat ('0' :: cs) = parseNat cs := by
  have hzero : isDigit '0' = true := by decide
  simp only [parseNat, List.all_cons, hzero, Bool.true_and, List.foldl_cons, ne_eq, h,
    not_false_eq_true, true_and, reduceCtorEq]
  rfl

theorem parseNat_replicate_append {cs : List Char} (h : cs ≠ []) (k : ℕ) :
    parseNat (List.replicate k '0' ++ cs) = parseNat cs := by
  induction k with
  | zero => rfl
  | succ k ih =>
      rw [List.replicate_succ, List.cons_append, parseNat_zero_cons (by simp [h]), ih]

theorem formatNat_ne_nil (n : ℕ) : formatNat n ≠ [] := by
  intro hnil
  have hparse := parseNat_formatNat n
  rw [hnil] at hparse
  cases hparse

theorem appendInt_injective {x y : ℤ} {width : ℕ} (hx : 0 ≤ x) (hy : 0 ≤ y)
    (h : appendInt x width = appendInt y width) : x = y := by
  have hparse {z : ℤ} (hz : 0 ≤ z) : parseNat (appendInt z width) = some z.natAbs := by
    simp only [appendInt, if_neg (not_lt.mpr hz), List.nil_append]
    rw [parseNat_replicate_append (formatNat_ne_nil _), parseNat_formatNat]
  have habs := (hparse hx).symm.trans ((congrArg parseNat h).trans (hparse hy))
  have := Option.some.inj habs
  omega

/-- Numbers that are separated can be told apart. -/
theorem append_separator_injective {x y : ℤ} {width : ℕ} {sep : Char} {cs ds : List Char}
    (hx : 0 ≤ x) (hy : 0 ≤ y) (hsep : isDigit sep = false)
    (h : appendInt x width ++ sep :: cs = appendInt y width ++ sep :: ds) : x = y ∧ cs = ds := by
  have hdigits {z : ℤ} (hz : 0 ≤ z) (rest : List Char) :
      (appendInt z width ++ sep :: rest).takeWhile isDigit = appendInt z width := by
    rw [List.takeWhile_append_of_pos fun c hc => isDigit_of_mem_appendInt hz hc,
      List.takeWhile_cons_of_neg (by simp [hsep]), List.append_nil]
  have hnumber : appendInt x width = appendInt y width := by
    rw [← hdigits hx cs, h, hdigits hy ds]
  rw [hnumber] at h
  exact ⟨appendInt_injective hx hy hnumber, (List.cons.inj (List.append_cancel_left h)).2⟩

/-- What a layout shows of an instant. -/
def Layout.unit : Layout → TruncUnit
  | .hour => .hour
  | .day => .day
  | .month => .month

/-- **Instants with the same text are in the same bucket.** -/
theorem dateTrunc_eq_of_format_eq {layout : Layout} (ht : 0 ≤ t) (ht' : 0 ≤ t')
    (h : format layout t = format layout t') :
    dateTrunc layout.unit t = dateTrunc layout.unit t' := by
  have hlist := String.ofList_injective h
  have hyear := year_nonneg ht
  have hyear' := year_nonneg ht'
  cases layout with
  | month =>
      obtain ⟨hy, hrest⟩ := append_separator_injective hyear hyear' (by decide) hlist
      have hm := appendInt_injective (month_nonneg t) (month_nonneg t') hrest
      simp only [Layout.unit, dateTrunc, hy, hm]
  | day =>
      simp only [List.append_assoc, List.cons_append] at hlist
      obtain ⟨hy, hrest⟩ := append_separator_injective hyear hyear' (by decide) hlist
      obtain ⟨hm, hrest⟩ :=
        append_separator_injective (month_nonneg t) (month_nonneg t') (by decide) hrest
      have hd := appendInt_injective (day_nonneg t) (day_nonneg t') hrest
      simp only [Layout.unit, dateTrunc, hy, hm, hd]
  | hour =>
      simp only [List.append_assoc, List.cons_append] at hlist
      obtain ⟨hy, hrest⟩ := append_separator_injective hyear hyear' (by decide) hlist
      obtain ⟨hm, hrest⟩ :=
        append_separator_injective (month_nonneg t) (month_nonneg t') (by decide) hrest
      obtain ⟨hd, hrest⟩ :=
        append_separator_injective (day_nonneg t) (day_nonneg t') (by decide) hrest
      have hh := appendInt_injective (hour_nonneg t) (hour_nonneg t') hrest
      simp only [Layout.unit, dateTrunc, hy, hm, hd, hh]

end Fields

example : format .hour (date 2024 2 29 23 5 0 0) = "2024-02-29T23" := by decide +kernel

end TelegramServer.Go

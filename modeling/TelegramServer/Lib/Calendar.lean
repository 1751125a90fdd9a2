import Mathlib.Algebra.EuclideanDomain.Int
import Mathlib.Algebra.Order.Ring.Int
import Mathlib.Data.Int.ConditionallyCompleteOrder
import Mathlib.Tactic.Linarith

/-!
Time in buckets, and the proleptic Gregorian calendar. A division of time into
consecutive buckets is a strictly increasing sequence of starts such that every time
has a last start before it; that is a Galois connection between the numbers of the
buckets and time. The years and months of the calendar are such divisions, of the
days that are counted from 1 January of the year 1.
-/

namespace TelegramServer.Lib

/-! ### Buckets -/

/-- Consecutive buckets, each with its start. -/
structure Buckets (τ : Type*) [LinearOrder τ] where
  start : ℤ → τ
  index : τ → ℤ
  strictMono : StrictMono start
  gc : GaloisConnection start index

namespace Buckets

variable {τ : Type*} [LinearOrder τ] (b : Buckets τ) {t t' : τ} {k : ℤ}

/-- The start of the bucket of `t`. -/
def floor (t : τ) : τ := b.start (b.index t)

@[simp] theorem index_start (k : ℤ) : b.index (b.start k) = k := by
  refine le_antisymm ?_ (b.gc.le_u le_rfl)
  exact b.strictMono.le_iff_le.mp (b.gc.l_u_le (b.start k))

theorem floor_start (k : ℤ) : b.floor (b.start k) = b.start k := by
  rw [floor, index_start]

theorem floor_eq_start_iff : b.floor t = b.start k ↔ b.index t = k :=
  b.strictMono.injective.eq_iff

/-- The buckets that lie between two times. -/
theorem index_mem_Icc (h : b.start k ≤ t) (hle : t ≤ t') :
    k ≤ b.index t ∧ b.index t ≤ b.index t' :=
  ⟨b.gc.le_u h, b.gc.monotone_u hle⟩

/-- Two numbers that enclose every time between them define the buckets. -/
def ofBounds (start : ℤ → τ) (index : τ → ℤ) (hmono : StrictMono start)
    (hle : ∀ t, start (index t) ≤ t) (hlt : ∀ t, t < start (index t + 1)) : Buckets τ where
  start := start
  index := index
  strictMono := hmono
  gc := by
    intro k t
    constructor
    · intro h
      exact Int.lt_add_one_iff.mp (hmono.lt_iff_lt.mp (h.trans_lt (hlt t)))
    · intro h
      exact (hmono.monotone h).trans (hle t)

/-- Buckets of a fixed length. -/
def every (d : ℤ) (hd : 0 < d) : Buckets ℤ where
  start k := k * d
  index t := t / d
  strictMono := fun _ _ h => mul_lt_mul_of_pos_right h hd
  gc := fun _ _ => (Int.le_ediv_iff_mul_le hd).symm

/-- Buckets of buckets. -/
def comp (b : Buckets τ) (c : Buckets ℤ) : Buckets τ where
  start := b.start ∘ c.start
  index := c.index ∘ b.index
  strictMono := b.strictMono.comp c.strictMono
  gc := c.gc.compose b.gc

end Buckets

/-! ### The calendar -/

namespace Calendar

/-- The days before a year, from 1 January of the year 1. -/
def yearStart (y : ℤ) : ℤ := 365 * (y - 1) + (y - 1) / 4 - (y - 1) / 100 + (y - 1) / 400

def isLeap (y : ℤ) : Bool := y % 4 = 0 && (y % 100 ≠ 0 || y % 400 = 0)

def monthLengths (leap : Bool) : List ℕ :=
  [31, if leap then 29 else 28, 31, 30, 31, 30, 31, 31, 30, 31, 30, 31]

/-- The days of a year before its `m`-th month, counted from 0. -/
def daysBefore (leap : Bool) (m : ℕ) : ℕ := ((monthLengths leap).take m).sum

/-- The days before a month. The months are numbered through all years. -/
def monthStart (n : ℤ) : ℤ := yearStart (n / 12) + daysBefore (isLeap (n / 12)) (n % 12).toNat

def monthLength (n : ℤ) : ℕ := (monthLengths (isLeap (n / 12))).getD (n % 12).toNat 0

/-- The year of a day: cycles of 400, 100, 4 years and one year. The last day of a cycle of
400 years and of one of 4 years is in the fourth part. -/
def yearOf (d : ℤ) : ℤ :=
  let d₄₀₀ := d % 146097
  let n₁₀₀ := min (d₄₀₀ / 36524) 3
  let d₁₀₀ := d₄₀₀ - 36524 * n₁₀₀
  let d₄ := d₁₀₀ % 1461
  400 * (d / 146097) + 100 * n₁₀₀ + 4 * (d₁₀₀ / 1461) + min (d₄ / 365) 3 + 1

/-- The month, counted from 0, of a day of the year. -/
def monthOfYear (leap : Bool) (d : ℕ) : ℕ :=
  (List.range 11).countP fun m => daysBefore leap (m + 1) ≤ d

/-- The month of a day. -/
def monthIndex (d : ℤ) : ℤ :=
  let y := yearOf d
  12 * y + monthOfYear (isLeap y) (d - yearStart y).toNat

theorem yearStart_succ (y : ℤ) :
    yearStart (y + 1) = yearStart y + daysBefore (isLeap y) 12 := by
  have hleap : daysBefore (isLeap y) 12 = if isLeap y then 366 else 365 := by
    cases isLeap y <;> rfl
  rw [hleap]
  unfold yearStart isLeap
  split <;> simp_all <;> omega

/-- The year of a day encloses it. -/
theorem yearStart_yearOf (d : ℤ) :
    yearStart (yearOf d) ≤ d ∧ d < yearStart (yearOf d + 1) := by
  -- `d` in the four cycles, and what is left of it in the year
  obtain ⟨a, b, c, e, r, hyear, hd, hb, hc, he, hr⟩ : ∃ a b c e r : ℤ,
      yearOf d = 400 * a + 100 * b + 4 * c + e + 1 ∧
      d = 146097 * a + 36524 * b + 1461 * c + 365 * e + r ∧ (0 ≤ b ∧ b ≤ 3) ∧ (0 ≤ c ∧ c ≤ 24) ∧
      (0 ≤ e ∧ e ≤ 3) ∧ 0 ≤ r ∧ (r < 365 ∨ r = 365 ∧ e = 3 ∧ (c < 24 ∨ b = 3)) := by
    refine ⟨d / 146097, min (d % 146097 / 36524) 3,
      (d % 146097 - 36524 * min (d % 146097 / 36524) 3) / 1461,
      min ((d % 146097 - 36524 * min (d % 146097 / 36524) 3) % 1461 / 365) 3,
      (d % 146097 - 36524 * min (d % 146097 / 36524) 3) % 1461 -
        365 * min ((d % 146097 - 36524 * min (d % 146097 / 36524) 3) % 1461 / 365) 3,
      rfl, ?_⟩
    omega
  rw [hyear]
  unfold yearStart
  omega

theorem daysBefore_succ (leap : Bool) {m : ℕ} (h : m < 12) :
    daysBefore leap (m + 1) = daysBefore leap m + (monthLengths leap).getD m 0 := by
  revert leap m
  decide

theorem monthStart_succ (n : ℤ) : monthStart (n + 1) = monthStart n + monthLength n := by
  unfold monthStart monthLength
  have hsplit := daysBefore_succ (isLeap (n / 12)) (m := (n % 12).toNat) (by omega)
  obtain hlt | hlast := lt_or_eq_of_le (show n % 12 ≤ 11 by omega)
  · have hyear : (n + 1) / 12 = n / 12 := by omega
    have hmonth : ((n + 1) % 12).toNat = (n % 12).toNat + 1 := by omega
    rw [hyear, hmonth, hsplit]
    omega
  · -- December
    have hyear : (n + 1) / 12 = n / 12 + 1 := by omega
    have hmonth : ((n + 1) % 12).toNat = 0 := by omega
    have hdecember : (n % 12).toNat + 1 = 12 := by omega
    rw [hdecember] at hsplit
    have hzero : daysBefore (isLeap (n / 12 + 1)) 0 = 0 := rfl
    rw [hyear, hmonth, yearStart_succ, hsplit, hzero]
    omega

theorem monthLength_pos (n : ℤ) : 0 < monthLength n := by
  have hall : ∀ leap, ∀ m < 12, 0 < (monthLengths leap).getD m 0 := by decide
  exact hall _ _ (by omega)

theorem monthStart_strictMono : StrictMono monthStart := by
  refine strictMono_int_of_lt_succ fun n => ?_
  have := monthLength_pos n
  rw [monthStart_succ]
  omega

theorem monthOfYear_spec (leap : Bool) {d : ℕ} (h : d < daysBefore leap 12) :
    monthOfYear leap d < 12 ∧ daysBefore leap (monthOfYear leap d) ≤ d ∧
      d < daysBefore leap (monthOfYear leap d + 1) := by
  have hyear : daysBefore leap 12 ≤ 366 := by cases leap <;> decide
  have hall : ∀ leap, ∀ d < 366, d < daysBefore leap 12 → monthOfYear leap d < 12 ∧
      daysBefore leap (monthOfYear leap d) ≤ d ∧
      d < daysBefore leap (monthOfYear leap d + 1) := by
    decide +kernel
  exact hall leap d (h.trans_le hyear) h

theorem monthStart_monthIndex (d : ℤ) :
    monthStart (monthIndex d) ≤ d ∧ d < monthStart (monthIndex d + 1) := by
  obtain ⟨hle, hlt⟩ := yearStart_yearOf d
  rw [yearStart_succ] at hlt
  obtain ⟨hmonth, hbefore, hafter⟩ :=
    monthOfYear_spec (isLeap (yearOf d)) (d := (d - yearStart (yearOf d)).toNat) (by omega)
  have hindex : monthIndex d =
      12 * yearOf d + monthOfYear (isLeap (yearOf d)) (d - yearStart (yearOf d)).toNat := rfl
  have hyear : monthIndex d / 12 = yearOf d := by omega
  have hrest : (monthIndex d % 12).toNat =
      monthOfYear (isLeap (yearOf d)) (d - yearStart (yearOf d)).toNat := by
    omega
  have hlength := daysBefore_succ (isLeap (yearOf d)) hmonth
  rw [monthStart_succ, monthStart, monthLength, hyear, hrest]
  omega

/-- The months, as buckets of days. -/
def months : Buckets ℤ :=
  .ofBounds monthStart monthIndex monthStart_strictMono (fun d => (monthStart_monthIndex d).1)
    fun d => (monthStart_monthIndex d).2

-- 29 February 2024 and the day after
example : monthIndex 738944 = 12 * 2024 + 1 ∧ monthStart (12 * 2024 + 2) = 738945 := by decide

end Calendar

end TelegramServer.Lib

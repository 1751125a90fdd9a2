import TelegramServer.Go.Civil
import Mathlib.Data.List.Infix

/-!
`time.Parse` and `Format` for the layouts `2006-01-02`, RFC 3339 and `01-02 15:04`, in UTC.
Parsing is as lenient as in Go: an hour may have one digit, and a fraction of a second may
follow although the layout has none.
-/

namespace TelegramServer.Go

open Lib

/-! ### Parsing -/

def digitValue (c : Char) : ℤ := c.toNat - 48

/-- `getnum`: two digits, or also one where the width is not `fixed`. -/
def getNum (fixed : Bool) : List Char → Option (ℤ × List Char)
  | [] => none
  | [a] => if isDigit a && !fixed then some (digitValue a, []) else none
  | a :: b :: cs =>
      if !isDigit a then none
      else if isDigit b then some (10 * digitValue a + digitValue b, cs)
      else if fixed then none
      else some (digitValue a, b :: cs)

/-- A rune of the layout that stands for itself. -/
def skipRune (r : Char) : List Char → Option (List Char)
  | [] => none
  | c :: cs => if c = r then some cs else none

def getYear (cs : List Char) : Option (ℤ × List Char) := do
  let year ← parseNat (cs.take 4)
  if 4 ≤ cs.length then some (year, cs.drop 4) else none

/-- The part `2006-01-02`. -/
def getDay (cs : List Char) : Option ((ℤ × ℤ × ℤ) × List Char) := do
  let (year, cs) ← getYear cs
  let cs ← skipRune '-' cs
  let (month, cs) ← getNum true cs
  let cs ← skipRune '-' cs
  let (day, cs) ← getNum true cs
  some ((year, month, day), cs)

/-- A day of the calendar. -/
def validDay (year month day : ℤ) : Bool :=
  1 ≤ month && month ≤ 12 && 1 ≤ day && day ≤ Calendar.monthLength (12 * year + (month - 1))

/-- `time.Parse("2006-01-02", v)`. -/
def parseDate (v : String) : Option Time := do
  let ((year, month, day), cs) ← getDay v.toList
  if cs = [] ∧ validDay year month day then some (date year month day 0 0 0 0) else none

/-- Nanoseconds after a point or a comma, cut after nine digits. -/
def getFraction : List Char → ℤ × List Char
  | c :: d :: cs =>
      if (c = '.' || c = ',') && isDigit d then
        let digits := (d :: cs).takeWhile isDigit
        (((parseNat (digits.take 9)).getD 0 : ℕ) * 10 ^ (9 - digits.length),
          (d :: cs).dropWhile isDigit)
      else (0, c :: d :: cs)
  | cs => (0, cs)

/-- The offset in seconds of `Z07:00`. -/
def getZone : List Char → Option (ℤ × List Char)
  | [] => none
  | sign :: cs =>
      if sign = 'Z' then some (0, cs)
      else do
        let (hours, cs) ← getNum true cs
        let cs ← skipRune ':' cs
        let (minutes, cs) ← getNum true cs
        let offset := (hours * 60 + minutes) * 60
        if 24 < hours ∨ 60 < minutes then none
        else if sign = '+' then some (offset, cs)
        else if sign = '-' then some (-offset, cs)
        else none

/-- `time.Parse(time.RFC3339, v)`. -/
def parseRFC3339 (v : String) : Option Time := do
  let ((year, month, day), cs) ← getDay v.toList
  let cs ← skipRune 'T' cs
  let (hour, cs) ← getNum false cs
  let cs ← skipRune ':' cs
  let (minute, cs) ← getNum true cs
  let cs ← skipRune ':' cs
  let (sec, cs) ← getNum true cs
  let (nsec, cs) := getFraction cs
  let (offset, cs) ← getZone cs
  if cs = [] ∧ validDay year month day ∧ hour < 24 ∧ minute < 60 ∧ sec < 60 then
    some (date year month day hour minute sec nsec - offset * second)
  else none

/-! ### Formats -/

/-- `t.UTC().Format(time.RFC3339)`. -/
def formatRFC3339 (t : Time) : String :=
  let c := civil t
  format .hour t ++ String.ofList (':' :: appendInt c.minute 2 ++ ':' :: appendInt c.sec 2 ++ ['Z'])

/-- `t.Format("01-02 15:04")`. -/
def formatLabel (t : Time) : String :=
  let c := civil t
  String.ofList (appendInt c.month 2 ++ '-' :: appendInt c.day 2 ++ ' ' :: appendInt c.hour 2 ++
    ':' :: appendInt c.minute 2)

example : parseRFC3339 "2024-03-01T8:30:00.25+09:00" = some (date 2024 2 29 23 30 0 250000000) := by
  decide +kernel

/-! ### A date is not a time -/

section Separator

variable {cs rest : List Char}

theorem eq_cons_of_skipRune {r : Char} (h : skipRune r cs = some rest) : cs = r :: rest := by
  cases cs with
  | nil => cases h
  | cons c cs =>
      simp only [skipRune, Option.ite_none_right_eq_some, Option.some.injEq] at h
      rw [h.1, h.2]

theorem suffix_of_getNum {fixed : Bool} {n : ℤ} (h : getNum fixed cs = some (n, rest)) :
    rest <:+ cs := by
  unfold getNum at h
  split at h
  · cases h
  · simp only [Option.ite_none_right_eq_some, Option.some.injEq, Prod.mk.injEq] at h
    exact h.2.2 ▸ List.nil_suffix
  · next a b cs =>
      split at h
      · cases h
      · split at h
        · cases h
          exact ⟨[a, b], rfl⟩
        · split at h
          · cases h
          · cases h
            exact ⟨[a], rfl⟩

theorem suffix_of_getDay {day : ℤ × ℤ × ℤ} (h : getDay cs = some (day, rest)) : rest <:+ cs := by
  simp only [getDay, getYear, Option.bind_eq_bind, Option.bind_eq_some_iff,
    Option.ite_none_right_eq_some, Prod.exists] at h
  obtain ⟨_, cs₁, ⟨_, -, -, hyear⟩, cs₂, hsep, _, cs₃, hmonth, cs₄, hsep', _, cs₅, hday, heq⟩ := h
  cases hyear
  cases heq
  have h₁ : cs.drop 4 <:+ cs := List.drop_suffix 4 cs
  rw [eq_cons_of_skipRune hsep] at h₁
  have h₃ := suffix_of_getNum hmonth
  rw [eq_cons_of_skipRune hsep'] at h₃
  exact (suffix_of_getNum hday).trans <| (List.suffix_cons _ _).trans <| h₃.trans <|
    (List.suffix_cons _ _).trans h₁

theorem separator_mem_of_parseRFC3339 {v : String} {t : Time} (h : parseRFC3339 v = some t) :
    'T' ∈ v.toList := by
  simp only [parseRFC3339, Option.bind_eq_bind, Option.bind_eq_some_iff] at h
  obtain ⟨⟨day, cs⟩, hday, cs', hsep, -⟩ := h
  have hcons : cs = 'T' :: cs' := eq_cons_of_skipRune hsep
  have hmem : 'T' ∈ cs := hcons ▸ List.mem_cons_self
  exact (suffix_of_getDay hday).subset hmem

theorem separator_notMem_appendInt (x : ℤ) (width : ℕ) : 'T' ∉ appendInt x width := by
  intro hmem
  simp only [appendInt, List.mem_append, List.mem_replicate] at hmem
  obtain (hsign | ⟨-, hzero⟩) | hdigit := hmem
  · split at hsign
    · simp at hsign
    · cases hsign
  · exact absurd hzero (by decide)
  · exact absurd (isDigit_of_mem_formatNat hdigit) (by decide)

/-- The text of a date does not parse as a time. -/
theorem parseRFC3339_format_day (t : Time) : parseRFC3339 (format .day t) = none := by
  refine Option.eq_none_iff_forall_ne_some.mpr fun u hu => ?_
  have hmem := separator_mem_of_parseRFC3339 hu
  simp [format, separator_notMem_appendInt] at hmem

end Separator

end TelegramServer.Go

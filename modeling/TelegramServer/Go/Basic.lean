import Mathlib.Data.Int.Notation
import Mathlib.Data.List.Basic

/-!
The handful of Go and SQL primitives every part of the model uses: byte
strings, instants, and the two SQL null functions.
-/

namespace TelegramServer.Go

/-- A `[]byte`, and the value of a `bytea` column. -/
abbrev Bytes := List UInt8

/-- The UTF-8 bytes of a string: `[]byte(s)`, and `convert_to(s, 'UTF8')`. -/
def utf8 (s : String) : Bytes := s.toUTF8.data.toList

/-- A `time.Time`, in nanoseconds since the zero value of that type, so that
`IsZero` is equality with `0` and `Sub` is subtraction. -/
abbrev Time := ℤ

/-- `time.Second`. -/
def second : ℤ := 1000000000

/-- The seconds from the zero time to the Unix epoch. -/
def unixEpoch : ℤ := 62135596800

/-- `Time.Unix`, rounded down. -/
def unix (t : Time) : ℤ := t / second - unixEpoch

/-- `time.Unix(n, 0)`. -/
def fromUnix (n : ℤ) : Time := (n + unixEpoch) * second

/-- SQL `NULLIF`: the value, or NULL where it equals the marker. -/
def nullIf {α : Type*} [DecidableEq α] (value marker : α) : Option α :=
  if value = marker then none else some value

end TelegramServer.Go

import TelegramServer.Go.Strconv
import TelegramServer.Go.Strings

/-!
`fmt.Sscanf` for formats of literal runes and `%d` into unsigned variables. It skips
spaces before a number and does not look at what follows the last item, so that it
accepts more than `Sprintf` writes with the same format.
-/

namespace TelegramServer.Go

/-- The runes of a string, in the way a range loop reads them: a byte that does not start
a valid encoding is a rune of its own. -/
def runesFrom : (fuel : ℕ) → Bytes → List Char
  | 0, _ => []
  | _ + 1, [] => []
  | fuel + 1, b :: s =>
      match (b :: s).toByteArray.utf8DecodeChar? 0 with
      | some r => r :: runesFrom fuel ((b :: s).drop r.utf8Size)
      | none => '�' :: runesFrom fuel s

def runes (s : Bytes) : List Char := runesFrom s.length s

/-- An item of a format. -/
inductive ScanItem
  | literal (r : Char)
  /-- `%d`, for a variable with so many bits. -/
  | uint (bits : ℕ)

/-- `SkipSpace` where a newline is not a space; `none` is an error. -/
def skipSpace : List Char → Option (List Char)
  | [] => some []
  | r :: rs => if r = '\n' then none else if isSpace r then skipSpace rs else some (r :: rs)

/-- `scanUint`, with the runes after the number. -/
def scanUint (bits : ℕ) (rs : List Char) : Option (ℕ × List Char) := do
  let rs ← skipSpace rs
  -- without a digit this is an error, as in ParseUint
  let n ← parseNat (rs.takeWhile isDigit)
  if n < 2 ^ 64 ∧ n < 2 ^ bits then some (n, rs.dropWhile isDigit) else none

/-- `doScanf`: the numbers that are read. -/
def doScanf : List ScanItem → List Char → Option (List ℕ)
  | [], _ => some []
  | .literal _ :: _, [] => none
  | .literal r :: items, r' :: rs => if r' = r then doScanf items rs else none
  | .uint bits :: items, rs => do
      let rs ← skipSpace rs
      let (n, rs) ← scanUint bits rs
      let ns ← doScanf items rs
      some (n :: ns)

/-- The most runes a scan reads. -/
def hugeWid : ℕ := 2 ^ 30

def sscanf (s : Bytes) (items : List ScanItem) : Option (List ℕ) :=
  doScanf items ((runes s).take hugeWid)

end TelegramServer.Go

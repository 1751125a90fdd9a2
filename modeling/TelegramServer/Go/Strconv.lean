import TelegramServer.Go.Basic
import Mathlib.Data.Nat.Digits.Defs
import Mathlib.Data.Nat.Digits.Lemmas

/-!
Numbers and bytes as text: `encoding/hex` and the two functions of `strconv` the
server uses.
-/

namespace TelegramServer.Go

/-! ### `encoding/hex` -/

def hexDigit (n : ℕ) : Char := if n < 10 then Char.ofNat (48 + n) else Char.ofNat (87 + n)

/-- `hex.EncodeToString`. -/
def hexEncode (bytes : Bytes) : String :=
  String.ofList (bytes.flatMap fun b => [hexDigit (b.toNat / 16), hexDigit (b.toNat % 16)])

def isLowerAlnum (c : Char) : Bool := ('a' ≤ c && c ≤ 'z') || ('0' ≤ c && c ≤ '9')

theorem hexEncode_ne_empty {bytes : Bytes} (h : bytes ≠ []) : hexEncode bytes ≠ "" := by
  cases bytes with
  | nil => exact absurd rfl h
  | cons b bytes =>
      intro hempty
      have := congrArg String.toList hempty
      simp [hexEncode] at this

theorem bar_notMem_hexEncode (bytes : Bytes) : '|' ∉ (hexEncode bytes).toList := by
  have hdigit {n : ℕ} (hn : n < 16) : '|' ≠ hexDigit n := by
    interval_cases n <;> decide
  have hbyte (b : UInt8) : b.toNat < 256 := b.toNat_lt
  simp only [hexEncode, String.toList_ofList, List.mem_flatMap, List.mem_cons, List.not_mem_nil,
    or_false, not_exists, not_and, not_or]
  intro b _
  have hb := hbyte b
  exact ⟨hdigit (by omega), hdigit (by omega)⟩

/-! ### `strconv` -/

def digitChar (d : ℕ) : Char := Char.ofNat (48 + d)

def isDigit (c : Char) : Bool := '0' ≤ c && c ≤ '9'

def formatNat (n : ℕ) : List Char :=
  if n = 0 then ['0'] else (Nat.digits 10 n).reverse.map digitChar

/-- `strconv.FormatInt(n, 10)`. -/
def formatInt (n : ℤ) : String :=
  String.ofList (if n < 0 then '-' :: formatNat n.natAbs else formatNat n.natAbs)

def parseNat (cs : List Char) : Option ℕ :=
  if cs ≠ [] ∧ cs.all isDigit then some (cs.foldl (fun n c => (c.toNat - 48) + 10 * n) 0) else none

/-- `strconv.ParseInt(s, 10, 64)`. -/
def parseInt (s : String) : Option ℤ :=
  match s.toList with
  | '-' :: cs => (parseNat cs).bind fun n => if n ≤ 2 ^ 63 then some (-(n : ℤ)) else none
  | '+' :: cs => (parseNat cs).bind fun n => if n < 2 ^ 63 then some (n : ℤ) else none
  | cs => (parseNat cs).bind fun n => if n < 2 ^ 63 then some (n : ℤ) else none

theorem toNat_digitChar {d : ℕ} (h : d < 10) : (digitChar d).toNat - 48 = d := by
  interval_cases d <;> decide

theorem isDigit_digitChar {d : ℕ} (h : d < 10) : isDigit (digitChar d) = true := by
  interval_cases d <;> decide

theorem isDigit_of_mem_formatNat {n : ℕ} {c : Char} (h : c ∈ formatNat n) : isDigit c = true := by
  unfold formatNat at h
  split at h
  · obtain rfl := List.mem_singleton.mp h
    decide
  · obtain ⟨d, hd, rfl⟩ := List.mem_map.mp h
    exact isDigit_digitChar (Nat.digits_lt_base (by decide) (List.mem_reverse.mp hd))

theorem parseNat_formatNat (n : ℕ) : parseNat (formatNat n) = some n := by
  have hne : formatNat n ≠ [] := by
    unfold formatNat
    split
    · simp
    · next hn => simp [Nat.digits_ne_nil_iff_ne_zero.mpr hn]
  have hall : (formatNat n).all isDigit = true :=
    List.all_eq_true.mpr fun c hc => isDigit_of_mem_formatNat hc
  rw [parseNat, if_pos ⟨hne, hall⟩, formatNat]
  split
  · next hn => simp [hn]
  · rw [List.foldl_map, List.foldl_reverse, Option.some.injEq]
    have hdigits : ∀ ds : List ℕ, (∀ d ∈ ds, d < 10) →
        ds.foldr (fun d m => ((digitChar d).toNat - 48) + 10 * m) 0 = Nat.ofDigits 10 ds := by
      intro ds hds
      induction ds with
      | nil => rfl
      | cons d ds ih =>
          rw [List.foldr_cons, Nat.ofDigits_cons, ih fun d hd => hds d (List.mem_cons_of_mem _ hd),
            toNat_digitChar (hds d (List.mem_cons_self ..))]
    rw [hdigits _ fun d hd => Nat.digits_lt_base (by decide) hd, Nat.ofDigits_digits]

/-- A formatted number parses to itself, unless it is out of range. -/
theorem parseInt_formatInt_eq (n : ℤ) :
    parseInt (formatInt n) = if -2 ^ 63 ≤ n ∧ n < 2 ^ 63 then some n else none := by
  unfold parseInt
  by_cases hn : n < 0
  · have hlist : (formatInt n).toList = '-' :: formatNat n.natAbs := by simp [formatInt, hn]
    simp only [hlist, parseNat_formatNat, Option.bind_some]
    split
    · rw [if_pos (by omega), Option.some.injEq]
      omega
    · rw [if_neg (by omega)]
  · have hlist : (formatInt n).toList = formatNat n.natAbs := by simp [formatInt, hn]
    -- no sign in front: the first character is a digit
    have hdigit {c : Char} {cs : List Char} (heq : formatNat n.natAbs = c :: cs) :
        isDigit c = true := isDigit_of_mem_formatNat (heq ▸ List.mem_cons_self ..)
    rw [hlist]
    split
    · next heq => exact absurd (hdigit heq) (by decide)
    · next heq => exact absurd (hdigit heq) (by decide)
    · simp only [parseNat_formatNat, Option.bind_some]
      split
      · rw [if_pos (by omega), Option.some.injEq]
        omega
      · rw [if_neg (by omega)]

/-- A formatted number that parses at all parses to itself. -/
theorem parseInt_formatInt {n m : ℤ} (h : parseInt (formatInt n) = some m) : m = n := by
  rw [parseInt_formatInt_eq] at h
  split at h
  · exact (Option.some.inj h).symm
  · cases h

theorem parseInt_empty : parseInt "" = none := rfl

theorem bar_notMem_formatInt (n : ℤ) : '|' ∉ (formatInt n).toList := by
  have hnat : '|' ∉ formatNat n.natAbs := fun h => absurd (isDigit_of_mem_formatNat h) (by decide)
  unfold formatInt
  split <;> simp [hnat]

/-! ### Decimal texts -/

/-- The integer of a decimal text. -/
def readInt (s : String) : Option ℤ :=
  match s.toList with
  | '-' :: ds => if ds.all Char.isDigit then some (-Nat.ofDigitChars 10 ds 0) else none
  | ds => if ds.all Char.isDigit then some (Nat.ofDigitChars 10 ds 0) else none

theorem all_isDigit_toDigits (n : ℕ) : (Nat.toDigits 10 n).all Char.isDigit = true :=
  List.all_eq_true.mpr fun _ hc => Nat.isDigit_of_mem_toDigits (by decide) (by decide) hc

theorem readInt_toString (n : ℤ) : readInt (toString n) = some n := by
  have hvalue (m : ℕ) : Nat.ofDigitChars 10 (Nat.toDigits 10 m) 0 = m :=
    Nat.ofDigitChars_toDigits (by decide) (by decide)
  rw [Int.toString_eq_repr, Int.repr_eq_if]
  split
  · rename_i hn
    rw [readInt, Nat.toList_repr]
    split
    · -- no sign in front: the first character is a digit
      next ds hds =>
        have hall := all_isDigit_toDigits n.toNat
        rw [hds, List.all_cons] at hall
        exact absurd (Bool.and_eq_true_iff.mp hall).1 (by decide)
    · rw [if_pos (all_isDigit_toDigits _), hvalue, Int.toNat_of_nonneg hn]
  · rename_i hn
    have hlist : ("-" ++ (-n).toNat.repr).toList = '-' :: Nat.toDigits 10 (-n).toNat := by
      rw [String.toList_append, Nat.toList_repr]
      rfl
    rw [readInt, hlist]
    simp only [all_isDigit_toDigits, if_true, hvalue, Option.some.injEq]
    omega

theorem toString_int_injective : Function.Injective (toString : ℤ → String) := by
  intro n m h
  have hread := congrArg readInt h
  rw [readInt_toString, readInt_toString] at hread
  exact Option.some.inj hread

end TelegramServer.Go

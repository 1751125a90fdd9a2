import TelegramServer.Go.Basic
import Mathlib.Algebra.Order.Ring.Nat

/-!
`base64.RawStdEncoding`: the standard alphabet, no padding, and not strict. The decoder
skips line ends wherever they are and ignores the bits that are left over in the last
quantum, so a value has many encodings. It has one that the encoder makes.
-/

namespace TelegramServer.Go

/-- `encodeStd`. -/
def base64Alphabet : Bytes :=
  utf8 "ABCDEFGHIJKLMNOPQRSTUVWXYZabcdefghijklmnopqrstuvwxyz0123456789+/"

/-- `enc.encode[n&0x3F]`. -/
def base64Char (n : ℕ) : UInt8 := base64Alphabet.getD (n % 64) 0

/-- `enc.decodeMap`, `none` where it has `0xff`. -/
def base64Value (b : UInt8) : Option ℕ := base64Alphabet.findIdx? (· == b)

/-- `EncodeToString`. -/
def base64Encode : Bytes → Bytes
  | [] => []
  | [a] =>
      let val := a.toNat * 2 ^ 16
      [base64Char (val / 2 ^ 18), base64Char (val / 2 ^ 12)]
  | [a, b] =>
      let val := a.toNat * 2 ^ 16 + b.toNat * 2 ^ 8
      [base64Char (val / 2 ^ 18), base64Char (val / 2 ^ 12), base64Char (val / 2 ^ 6)]
  | a :: b :: c :: src =>
      let val := a.toNat * 2 ^ 16 + b.toNat * 2 ^ 8 + c.toNat
      base64Char (val / 2 ^ 18) :: base64Char (val / 2 ^ 12) :: base64Char (val / 2 ^ 6) ::
        base64Char val :: base64Encode src

/-- The bytes of a quantum of up to four digits. -/
def quantumBytes (dbuf : List ℕ) : Bytes :=
  let val := dbuf.getD 0 0 * 2 ^ 18 + dbuf.getD 1 0 * 2 ^ 12 + dbuf.getD 2 0 * 2 ^ 6 + dbuf.getD 3 0
  [UInt8.ofNat (val / 2 ^ 16), UInt8.ofNat (val / 2 ^ 8), UInt8.ofNat val].take (dbuf.length - 1)

/-- The loop of `decodeQuantum`, quantum after quantum. `dbuf` are the digits so far. -/
def decodeQuanta : (dbuf : List ℕ) → (src : Bytes) → Option Bytes
  | dbuf, [] => if dbuf.length = 1 then none else some (quantumBytes dbuf)
  | dbuf, b :: src =>
      match base64Value b with
      | some out =>
          if dbuf.length = 3 then
            (decodeQuanta [] src).map fun dst => quantumBytes (dbuf ++ [out]) ++ dst
          else decodeQuanta (dbuf ++ [out]) src
      -- LF and CR
      | none => if b = 10 ∨ b = 13 then decodeQuanta dbuf src else none

/-- `DecodeString`. -/
def base64Decode (src : Bytes) : Option Bytes := decodeQuanta [] src

/-! ### What the encoder makes is decoded -/

theorem base64Value_base64Char (n : ℕ) : base64Value (base64Char n) = some (n % 64) := by
  have hdigits : ∀ i < 64, base64Value (base64Alphabet.getD i 0) = some i := by decide +kernel
  exact hdigits (n % 64) (Nat.mod_lt n (by decide))

theorem base64Char_mem (n : ℕ) : base64Char n ∈ base64Alphabet := by
  have hdigits : ∀ i < 64, base64Alphabet.getD i 0 ∈ base64Alphabet := by decide +kernel
  exact hdigits (n % 64) (Nat.mod_lt n (by decide))

theorem mem_alphabet_of_mem_base64Encode {b : UInt8} {src : Bytes} (h : b ∈ base64Encode src) :
    b ∈ base64Alphabet := by
  fun_induction base64Encode src with
  | case1 => cases h
  | case2 a val =>
      simp only [List.mem_cons, List.not_mem_nil, or_false] at h
      obtain rfl | rfl := h <;> exact base64Char_mem _
  | case3 a b val =>
      simp only [List.mem_cons, List.not_mem_nil, or_false] at h
      obtain rfl | rfl | rfl := h <;> exact base64Char_mem _
  | case4 a b c src val ih =>
      simp only [List.mem_cons] at h
      obtain rfl | rfl | rfl | rfl | h := h
      · exact base64Char_mem _
      · exact base64Char_mem _
      · exact base64Char_mem _
      · exact base64Char_mem _
      · exact ih h

/-- A byte is what is left of a number that ends with it. -/
theorem ofNat_eq_of_mod {n : ℕ} {b : UInt8} (h : n % 256 = b.toNat) : UInt8.ofNat n = b := by
  rw [← UInt8.toNat_inj, UInt8.toNat_ofNat']
  exact h

/-- The digits of a number of 24 bits, put together again. -/
theorem quantumBytes_eq {v : ℕ} {dbuf : List ℕ} (hv : v < 2 ^ 24)
    (h₀ : dbuf.getD 0 0 = v / 2 ^ 18 % 64) (h₁ : dbuf.getD 1 0 = v / 2 ^ 12 % 64)
    (h₂ : dbuf.getD 2 0 = v / 2 ^ 6 % 64) (h₃ : dbuf.getD 3 0 = v % 64) :
    quantumBytes dbuf =
      [UInt8.ofNat (v / 2 ^ 16), UInt8.ofNat (v / 2 ^ 8), UInt8.ofNat v].take
        (dbuf.length - 1) := by
  have hdigits : v / 2 ^ 18 % 64 * 2 ^ 18 + v / 2 ^ 12 % 64 * 2 ^ 12 + v / 2 ^ 6 % 64 * 2 ^ 6 +
      v % 64 = v := by
    omega
  rw [quantumBytes, h₀, h₁, h₂, h₃, hdigits]

theorem quantumBytes_one (a : UInt8) {v : ℕ} (hv : v = a.toNat * 2 ^ 16) :
    quantumBytes [v / 2 ^ 18 % 64, v / 2 ^ 12 % 64] = [a] := by
  have ha := a.toNat_lt
  have h₂ : [v / 2 ^ 18 % 64, v / 2 ^ 12 % 64].getD 2 0 = v / 2 ^ 6 % 64 := by
    simp
    omega
  have h₃ : [v / 2 ^ 18 % 64, v / 2 ^ 12 % 64].getD 3 0 = v % 64 := by
    simp
    omega
  rw [quantumBytes_eq (by omega) List.getD_cons_zero List.getD_cons_succ h₂ h₃,
    ofNat_eq_of_mod (b := a) (by omega)]
  rfl

theorem quantumBytes_two (a b : UInt8) {v : ℕ} (hv : v = a.toNat * 2 ^ 16 + b.toNat * 2 ^ 8) :
    quantumBytes [v / 2 ^ 18 % 64, v / 2 ^ 12 % 64, v / 2 ^ 6 % 64] = [a, b] := by
  have ha := a.toNat_lt
  have hb := b.toNat_lt
  have h₃ : [v / 2 ^ 18 % 64, v / 2 ^ 12 % 64, v / 2 ^ 6 % 64].getD 3 0 = v % 64 := by
    simp
    omega
  rw [quantumBytes_eq (by omega) List.getD_cons_zero List.getD_cons_succ List.getD_cons_succ h₃,
    ofNat_eq_of_mod (b := a) (by omega), ofNat_eq_of_mod (b := b) (by omega)]
  rfl

theorem quantumBytes_three (a b c : UInt8) {v : ℕ}
    (hv : v = a.toNat * 2 ^ 16 + b.toNat * 2 ^ 8 + c.toNat) :
    quantumBytes [v / 2 ^ 18 % 64, v / 2 ^ 12 % 64, v / 2 ^ 6 % 64, v % 64] = [a, b, c] := by
  have ha := a.toNat_lt
  have hb := b.toNat_lt
  have hc := c.toNat_lt
  rw [quantumBytes_eq (by omega) List.getD_cons_zero List.getD_cons_succ List.getD_cons_succ
      List.getD_cons_succ,
    ofNat_eq_of_mod (b := a) (by omega), ofNat_eq_of_mod (b := b) (by omega),
    ofNat_eq_of_mod (b := c) (by omega)]
  rfl

theorem decodeQuanta_digit {dbuf : List ℕ} (n : ℕ) (src : Bytes) (h : dbuf.length ≠ 3) :
    decodeQuanta dbuf (base64Char n :: src) = decodeQuanta (dbuf ++ [n % 64]) src := by
  rw [decodeQuanta, base64Value_base64Char]
  exact if_neg h

theorem decodeQuanta_fourth {dbuf : List ℕ} (n : ℕ) (src : Bytes) (h : dbuf.length = 3) :
    decodeQuanta dbuf (base64Char n :: src) =
      (decodeQuanta [] src).map fun dst => quantumBytes (dbuf ++ [n % 64]) ++ dst := by
  rw [decodeQuanta, base64Value_base64Char]
  exact if_pos h

theorem decodeQuanta_nil {dbuf : List ℕ} (h : dbuf.length ≠ 1) :
    decodeQuanta dbuf [] = some (quantumBytes dbuf) :=
  if_neg h

theorem base64Decode_base64Encode (src : Bytes) : base64Decode (base64Encode src) = some src := by
  unfold base64Decode
  fun_induction base64Encode src with
  | case1 => exact decodeQuanta_nil (by simp)
  | case2 a val =>
      rw [decodeQuanta_digit _ _ (by simp), decodeQuanta_digit _ _ (by simp),
        decodeQuanta_nil (by simp)]
      exact congrArg some (quantumBytes_one a rfl)
  | case3 a b val =>
      rw [decodeQuanta_digit _ _ (by simp), decodeQuanta_digit _ _ (by simp),
        decodeQuanta_digit _ _ (by simp), decodeQuanta_nil (by simp)]
      exact congrArg some (quantumBytes_two a b rfl)
  | case4 a b c src val ih =>
      rw [decodeQuanta_digit _ _ (by simp), decodeQuanta_digit _ _ (by simp),
        decodeQuanta_digit _ _ (by simp), decodeQuanta_fourth _ _ (by simp), ih, Option.map_some]
      exact congrArg (fun dst => some (dst ++ src)) (quantumBytes_three a b c rfl)

end TelegramServer.Go

import TelegramServer.Go.Basic
import TelegramServer.Lib.PrefixCode

/-!
UTF-8 on the bytes of a Go slice. `utf8.Valid` accepts the bytes that are
the encoding of a list of runes; a rune is a Unicode scalar value, and the only
encoding it has is the shortest. This is the notion of the Lean library, and
`String.utf8EncodeChar` is a prefix code.
-/

namespace TelegramServer.Go

open Lib

/-- `utf8.Valid`. -/
def utf8Valid (b : Bytes) : Bool := b.toByteArray.validateUTF8

theorem eq_of_utf8EncodeChar_isPrefix {a b : Char}
    (h : String.utf8EncodeChar a <+: String.utf8EncodeChar b) : a = b := by
  obtain ⟨t, ht⟩ := h
  have ha := ByteArray.utf8DecodeChar?_utf8EncodeChar_append (b := t.toByteArray) (c := a)
  have hb := ByteArray.utf8DecodeChar?_utf8EncodeChar_append (b := ByteArray.empty) (c := b)
  rw [← List.toByteArray_append, ht] at ha
  rw [ByteArray.append_empty] at hb
  exact Option.some.inj (ha.symm.trans hb)

def utf8Code : PrefixCode Char UInt8 where
  code := String.utf8EncodeChar
  bound := 4
  ne_nil _ := String.utf8EncodeChar_ne_nil
  length_le b := (String.length_utf8EncodeChar b).trans_le b.utf8Size_le_four
  eq_of_isPrefix _ _ h := congrArg _ (eq_of_utf8EncodeChar_isPrefix h)

theorem utf8Valid_iff {b : Bytes} : utf8Valid b = true ↔ utf8Code.Coded b := by
  rw [utf8Valid, ByteArray.validateUTF8_eq_true_iff]
  constructor
  · rintro ⟨cs, hcs⟩
    have hlist := congrArg (fun a : ByteArray => a.data.toList) hcs
    simp only [List.utf8Encode, List.toList_data_toByteArray] at hlist
    exact ⟨cs, hlist⟩
  · rintro ⟨cs, rfl⟩
    exact ⟨cs, rfl⟩

end TelegramServer.Go

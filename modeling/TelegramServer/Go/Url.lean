import TelegramServer.Go.Basic
import TelegramServer.Lib.KeySort
import Mathlib.Data.List.Lex
import Mathlib.Data.List.TakeWhile

/-!
Query strings, as package `net/url` writes and reads them. A text is a list of bytes, since a
request may name any; the links of the server are made of UTF-8.
-/

namespace TelegramServer.Go

open Lib

/-! ### Escapes -/

/-- The letters, the digits and `-_.~` stand for themselves. -/
def isUnreserved (c : UInt8) : Bool :=
  (0x61 ≤ c && c ≤ 0x7a) || (0x41 ≤ c && c ≤ 0x5a) || (0x30 ≤ c && c ≤ 0x39) ||
    c = 0x2d || c = 0x5f || c = 0x2e || c = 0x7e

/-- A digit of `upperhex`. -/
def upperHex (n : ℕ) : UInt8 := UInt8.ofNat (if n < 10 then 0x30 + n else 0x37 + n)

def escapeByte (c : UInt8) : Bytes :=
  if c = 0x20 then [0x2b]
  else if isUnreserved c then [c]
  else [0x25, upperHex (c.toNat / 16), upperHex (c.toNat % 16)]

def queryEscape (s : Bytes) : Bytes := s.flatMap escapeByte

/-- `unhex`, where `ishex` holds. -/
def unhex (c : UInt8) : Option ℕ :=
  if 0x30 ≤ c ∧ c ≤ 0x39 then some (c.toNat - 0x30)
  else if 0x61 ≤ c ∧ c ≤ 0x66 then some (c.toNat - 0x61 + 10)
  else if 0x41 ≤ c ∧ c ≤ 0x46 then some (c.toNat - 0x41 + 10)
  else none

/-- `none` where an escape is not complete. -/
def queryUnescape : Bytes → Option Bytes
  | [] => some []
  | c :: s =>
      if c = 0x25 then
        match s with
        | high :: low :: s =>
            match unhex high, unhex low with
            | some m, some n => (queryUnescape s).map (UInt8.ofNat (16 * m + n) :: ·)
            | _, _ => none
        | _ => none
      else (queryUnescape s).map ((if c = 0x2b then 0x20 else c) :: ·)

theorem unhex_upperHex {n : ℕ} (hn : n < 16) : unhex (upperHex n) = some n :=
  (by decide : ∀ n < 16, unhex (upperHex n) = some n) n hn

theorem queryUnescape_cons {c : UInt8} (hc : c ≠ 0x25) (s : Bytes) :
    queryUnescape (c :: s) = (queryUnescape s).map ((if c = 0x2b then 0x20 else c) :: ·) := by
  rw [queryUnescape.eq_def]
  simp only [if_neg hc]

theorem queryUnescape_escapeByte (c : UInt8) (s : Bytes) :
    queryUnescape (escapeByte c ++ s) = (queryUnescape s).map (c :: ·) := by
  unfold escapeByte
  split
  · next hspace =>
      subst hspace
      exact queryUnescape_cons (by decide) s
  · split
    · next hc =>
        have hpercent : c ≠ 0x25 := by
          rintro rfl
          exact absurd hc (by decide)
        have hplus : c ≠ 0x2b := by
          rintro rfl
          exact absurd hc (by decide)
        rw [List.singleton_append, queryUnescape_cons hpercent, if_neg hplus]
    · have hlt : c.toNat < 256 := c.toNat_lt
      have hback : 16 * (c.toNat / 16) + c.toNat % 16 = c.toNat := Nat.div_add_mod ..
      simp [queryUnescape, unhex_upperHex (show c.toNat / 16 < 16 by omega),
        unhex_upperHex (show c.toNat % 16 < 16 by omega), hback]

@[simp] theorem queryUnescape_queryEscape (s : Bytes) : queryUnescape (queryEscape s) = some s := by
  induction s with
  | nil => rfl
  | cons c s ih =>
      rw [queryEscape, List.flatMap_cons, queryUnescape_escapeByte, ← queryEscape, ih,
        Option.map_some]

/-- The characters that separate the pairs of a query do not come up in an escaped text. -/
theorem notMem_queryEscape {c : UInt8} (hc : c ∈ [0x26, 0x3b, 0x3d, 0x3f]) (s : Bytes) :
    c ∉ queryEscape s := by
  have hbytes : ∀ n < 256, ∀ c ∈ ([0x26, 0x3b, 0x3d, 0x3f] : List UInt8),
      c ∉ escapeByte (UInt8.ofNat n) := by
    decide +kernel
  intro hmem
  obtain ⟨d, -, hd⟩ := List.mem_flatMap.mp hmem
  have hdd : UInt8.ofNat d.toNat = d := UInt8.ofNat_toNat
  exact hbytes d.toNat d.toNat_lt c hc (hdd.symm ▸ hd)

/-! ### Queries -/

/-- `url.Values`: the pairs, those with the same key in their order. -/
abbrev QueryValues := List (Bytes × Bytes)

namespace QueryValues

/-- `Get`: the first value, or the empty text. -/
def get (vs : QueryValues) (key : Bytes) : Bytes :=
  ((vs.find? fun p => p.1 = key).map Prod.snd).getD []

/-- `Set`. -/
def set (vs : QueryValues) (key value : Bytes) : QueryValues :=
  vs.filter (fun p => p.1 ≠ key) ++ [(key, value)]

def encodePair (p : Bytes × Bytes) : Bytes := queryEscape p.1 ++ 0x3d :: queryEscape p.2

/-- The pairs in the order of `Encode`, by the bytes of the keys. -/
def inKeyOrder (vs : QueryValues) : QueryValues := sortBy (fun p => p.1.map UInt8.toNat) vs

def encode (vs : QueryValues) : Bytes := [0x26].intercalate (vs.inKeyOrder.map encodePair)

end QueryValues

/-- One pair of a query, `none` where `ParseQuery` goes on without it. -/
def parsePair (pair : Bytes) : Option (Bytes × Bytes) :=
  if 0x3b ∈ pair then none
  else if pair = [] then none
  else
    let key := pair.takeWhile fun c => c ≠ 0x3d
    let value := (pair.dropWhile fun c => c ≠ 0x3d).tail
    match queryUnescape key, queryUnescape value with
    | some key, some value => some (key, value)
    | _, _ => none

/-- `url.Query`, which takes what `ParseQuery` could read. -/
def parseQuery (query : Bytes) : QueryValues := (query.splitOn 0x26).filterMap parsePair

/-- The `RawQuery` of a link. -/
def rawQuery (link : Bytes) : Bytes := (link.dropWhile fun c => c ≠ 0x3f).tail

theorem parsePair_encodePair (p : Bytes × Bytes) :
    parsePair (QueryValues.encodePair p) = some p := by
  have heq : ∀ c ∈ queryEscape p.1, decide (c ≠ 0x3d) = true := by
    intro c hc
    refine decide_eq_true ?_
    rintro rfl
    exact notMem_queryEscape (by simp) p.1 hc
  have hsemicolon : (0x3b : UInt8) ∉ QueryValues.encodePair p := by
    simp [QueryValues.encodePair, notMem_queryEscape]
  have hne : QueryValues.encodePair p ≠ [] := by simp [QueryValues.encodePair]
  rw [parsePair, if_neg hsemicolon, if_neg hne, QueryValues.encodePair,
    List.takeWhile_append_of_pos heq, List.dropWhile_append_of_pos heq]
  simp

/-- **Round trip**: a query is read as it was written. -/
theorem parseQuery_encode (vs : QueryValues) : parseQuery vs.encode = vs.inKeyOrder := by
  rw [QueryValues.encode, parseQuery]
  cases hvs : vs.inKeyOrder.map QueryValues.encodePair with
  | nil =>
      rw [List.map_eq_nil_iff.mp hvs]
      rfl
  | cons pair pairs =>
      rw [← hvs, List.splitOn_intercalate _ ?_ (by simp [hvs]), List.filterMap_map]
      · have hsome : parsePair ∘ QueryValues.encodePair = some := funext parsePair_encodePair
        rw [hsome, List.filterMap_some]
      · intro l hl
        obtain ⟨p, -, rfl⟩ := List.mem_map.mp hl
        simp [QueryValues.encodePair, notMem_queryEscape]

namespace QueryValues

theorem get_inKeyOrder (vs : QueryValues) (key : Bytes) : vs.inKeyOrder.get key = vs.get key := by
  have hfilter : (vs.inKeyOrder.filter fun p => p.1 = key) = vs.filter fun p => p.1 = key := by
    refine filter_sortBy fun a _ b _ ha hb => ?_
    rw [of_decide_eq_true ha, of_decide_eq_true hb]
  rw [get, get, ← List.head?_filter, ← List.head?_filter, hfilter]

/-- What a query says about a key survives the way through a link. -/
@[simp] theorem get_parseQuery_encode (vs : QueryValues) (key : Bytes) :
    (parseQuery vs.encode).get key = vs.get key := by
  rw [parseQuery_encode, get_inKeyOrder]

@[simp] theorem get_nil (key : Bytes) : get [] key = [] := rfl

theorem get_set (vs : QueryValues) (key value key' : Bytes) :
    (vs.set key value).get key' = if key = key' then value else vs.get key' := by
  rw [set, get, List.find?_append]
  split
  · next heq =>
      subst heq
      have hnone : (vs.filter fun p => p.1 ≠ key).find? (fun p => p.1 = key) = none := by
        simp [List.find?_eq_none]
      rw [hnone]
      simp
  · next hne =>
      have hfind : (vs.filter fun p => p.1 ≠ key).find? (fun p => p.1 = key') =
          vs.find? fun p => p.1 = key' := by
        rw [List.find?_filter]
        congr 1
        funext p
        by_cases hp : p.1 = key'
        · simp [hp, Ne.symm hne]
        · simp [hp]
      rw [hfind, get]
      simp [hne]

end QueryValues

theorem utf8_inj {s t : String} : utf8 s = utf8 t ↔ s = t := by
  refine ⟨fun h => ?_, fun h => h ▸ rfl⟩
  exact String.toByteArray_inj.mp (ByteArray.ext (Array.toList_inj.mp h))

theorem rawQuery_append {path : Bytes} (hpath : 0x3f ∉ path) (query : Bytes) :
    rawQuery (path ++ 0x3f :: query) = query := by
  have hne : ∀ c ∈ path, decide (c ≠ 0x3f) = true := by
    intro c hc
    refine decide_eq_true ?_
    rintro rfl
    exact hpath hc
  rw [rawQuery, List.dropWhile_append_of_pos hne]
  simp

theorem rawQuery_of_notMem {path : Bytes} (hpath : 0x3f ∉ path) : rawQuery path = [] := by
  have hall : path.dropWhile (fun c => c ≠ 0x3f) = [] := by
    refine List.dropWhile_eq_nil_iff.mpr fun c hc => decide_eq_true ?_
    rintro rfl
    exact hpath hc
  rw [rawQuery, hall, List.tail_nil]

end TelegramServer.Go

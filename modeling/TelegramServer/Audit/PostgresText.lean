import TelegramServer.Audit.Event
import TelegramServer.Go.Strconv
import Mathlib.Data.List.TakeWhile

/-!
The texts Postgres gives to the two kinds of column values the chain leaves to
it: `extract(epoch FROM at)::text`, a `numeric` with six digits after the point,
and `details_json::text`. A `jsonb` column does not hold the JSON text a client
sent but a value: its objects have distinct keys in a fixed order, its numbers
are decimals that keep the digits after the point.

Both texts determine the value. For `jsonb` the argument is that of a parser: a
value followed by something that cannot continue it can be split off.
-/

namespace TelegramServer.Audit

open Go

/-! ### Numbers -/

/-- A `numeric`: the value without its point, and the number of digits after it. -/
structure Numeric where
  unscaled : ℤ
  scale : ℕ
  deriving DecidableEq

/-- The last `k` digits. -/
def lastDigits : ℕ → ℕ → List Char
  | 0, _ => []
  | k + 1, n => lastDigits k (n / 10) ++ [digitChar (n % 10)]

def Numeric.fraction (n : Numeric) : List Char :=
  if n.scale = 0 then [] else '.' :: lastDigits n.scale n.unscaled.natAbs

/-- The number without its sign. -/
def Numeric.digits (n : Numeric) : List Char :=
  formatNat (n.unscaled.natAbs / 10 ^ n.scale) ++ n.fraction

/-- `numeric_out`. -/
def Numeric.text (n : Numeric) : List Char :=
  if n.unscaled < 0 then '-' :: n.digits else n.digits

def isNumberChar (c : Char) : Bool := isDigit c || c = '-' || c = '.'

theorem length_lastDigits (k n : ℕ) : (lastDigits k n).length = k := by
  induction k generalizing n with
  | zero => rfl
  | succ k ih => simp [lastDigits, ih]

theorem isDigit_of_mem_lastDigits {k n : ℕ} {c : Char} (h : c ∈ lastDigits k n) :
    isDigit c = true := by
  induction k generalizing n with
  | zero => simp [lastDigits] at h
  | succ k ih =>
      rw [lastDigits, List.mem_append, List.mem_singleton] at h
      rcases h with h | rfl
      · exact ih h
      · exact isDigit_digitChar (Nat.mod_lt n (by decide))

theorem mod_eq_of_lastDigits_eq {k n m : ℕ} (h : lastDigits k n = lastDigits k m) :
    n % 10 ^ k = m % 10 ^ k := by
  induction k generalizing n m with
  | zero => simp [Nat.mod_one]
  | succ k ih =>
      obtain ⟨hinit, hlast⟩ := List.append_inj' h rfl
      have hdigit := congrArg (fun c => c.toNat - 48) (List.cons.inj hlast).1
      simp only [toNat_digitChar (Nat.mod_lt _ (by decide : 0 < 10))] at hdigit
      rw [Nat.pow_succ', Nat.mod_mul, Nat.mod_mul, hdigit, ih hinit]

theorem formatNat_injective {n m : ℕ} (h : formatNat n = formatNat m) : n = m := by
  have hparse := parseNat_formatNat n
  rw [h, parseNat_formatNat] at hparse
  exact (Option.some.inj hparse).symm

/-- Two texts that each end where the letters end. -/
theorem append_inj_of_stop {p : Char → Bool} {l l' r r' : List Char} (hl : ∀ c ∈ l, p c = true)
    (hl' : ∀ c ∈ l', p c = true) (hr : ∀ c ∈ r.head?, p c = false)
    (hr' : ∀ c ∈ r'.head?, p c = false) (h : l ++ r = l' ++ r') : l = l' ∧ r = r' := by
  have htake {l r : List Char} (hl : ∀ c ∈ l, p c = true) (hr : ∀ c ∈ r.head?, p c = false) :
      (l ++ r).takeWhile p = l := by
    rw [List.takeWhile_append_of_pos hl]
    cases r with
    | nil => simp
    | cons c r => rw [List.takeWhile_cons_of_neg (by simp [hr c rfl]), List.append_nil]
  have hword : l = l' := by rw [← htake hl hr, h, htake hl' hr']
  exact ⟨hword, List.append_cancel_left (hword ▸ h)⟩

theorem length_fraction (n : Numeric) :
    n.fraction.length = if n.scale = 0 then 0 else n.scale + 1 := by
  unfold Numeric.fraction
  split <;> simp [length_lastDigits]

theorem isDigit_head_fraction (n : Numeric) : ∀ c ∈ n.fraction.head?, isDigit c = false := by
  intro c hc
  unfold Numeric.fraction at hc
  split at hc
  · simp at hc
  · obtain rfl : '.' = c := by simpa using hc
    decide

/-- The digits around the point determine the scale and the number without its sign. -/
theorem eq_of_digits_eq {n n' : Numeric} (h : n.digits = n'.digits) :
    n.unscaled.natAbs = n'.unscaled.natAbs ∧ n.scale = n'.scale := by
  obtain ⟨hwhole, hfraction⟩ := append_inj_of_stop (fun _ hc => isDigit_of_mem_formatNat hc)
    (fun _ hc => isDigit_of_mem_formatNat hc) (isDigit_head_fraction n) (isDigit_head_fraction n') h
  have hquot := formatNat_injective hwhole
  have hscale : n.scale = n'.scale := by
    have hlength := congrArg List.length hfraction
    rw [length_fraction, length_fraction] at hlength
    split at hlength <;> split at hlength <;> omega
  refine ⟨?_, hscale⟩
  rw [← hscale] at hquot
  by_cases hzero : n.scale = 0
  · simpa [hzero] using hquot
  · simp only [Numeric.fraction, ← hscale, if_neg hzero] at hfraction
    rw [← Nat.div_add_mod n.unscaled.natAbs (10 ^ n.scale),
      ← Nat.div_add_mod n'.unscaled.natAbs (10 ^ n.scale), hquot,
      mod_eq_of_lastDigits_eq (List.cons.inj hfraction).2]

theorem Numeric.digits_eq_cons (n : Numeric) : ∃ c cs, n.digits = c :: cs ∧ isDigit c = true := by
  cases hcs : formatNat (n.unscaled.natAbs / 10 ^ n.scale) with
  | nil =>
      have hparse := parseNat_formatNat (n.unscaled.natAbs / 10 ^ n.scale)
      rw [hcs] at hparse
      cases hparse
  | cons c cs =>
      refine ⟨c, cs ++ n.fraction, by rw [Numeric.digits, hcs, List.cons_append], ?_⟩
      exact isDigit_of_mem_formatNat (hcs ▸ List.mem_cons_self ..)

theorem Numeric.text_injective : Function.Injective Numeric.text := by
  intro n n' h
  -- a text starts with a sign or with a digit
  have hsign (n n' : Numeric) (h : n.text = n'.text) (hneg : n.unscaled < 0) :
      n'.unscaled < 0 := by
    by_contra hpos
    obtain ⟨c, cs, hcs, hdigit⟩ := n'.digits_eq_cons
    rw [Numeric.text, Numeric.text, if_pos hneg, if_neg hpos, hcs] at h
    rw [← (List.cons.inj h).1] at hdigit
    exact absurd hdigit (by decide)
  have hsame : n.unscaled < 0 ↔ n'.unscaled < 0 := ⟨hsign n n' h, hsign n' n h.symm⟩
  have hdigits : n.digits = n'.digits := by
    rw [Numeric.text, Numeric.text] at h
    simp only [hsame] at h
    split at h
    · exact (List.cons.inj h).2
    · exact h
  obtain ⟨habs, hscale⟩ := eq_of_digits_eq hdigits
  have hvalue : n.unscaled = n'.unscaled := by omega
  cases n
  cases n'
  exact congrArg₂ Numeric.mk hvalue hscale

theorem isNumberChar_of_mem_text {n : Numeric} {c : Char} (h : c ∈ n.text) :
    isNumberChar c = true := by
  have hdigit {c : Char} (hc : isDigit c = true) : isNumberChar c = true := by
    simp [isNumberChar, hc]
  have hfraction (hc : c ∈ n.fraction) : isNumberChar c = true := by
    unfold Numeric.fraction at hc
    split at hc
    · simp at hc
    · rcases List.mem_cons.mp hc with rfl | hc
      · decide
      · exact hdigit (isDigit_of_mem_lastDigits hc)
  have hdigits (hc : c ∈ n.digits) : isNumberChar c = true :=
    (List.mem_append.mp hc).elim (fun hc => hdigit (isDigit_of_mem_formatNat hc)) hfraction
  unfold Numeric.text at h
  split at h
  · rcases List.mem_cons.mp h with rfl | h
    · decide
    · exact hdigits h
  · exact hdigits h

theorem Numeric.text_eq_cons (n : Numeric) : ∃ c cs, n.text = c :: cs ∧ isNumberChar c = true := by
  obtain ⟨c, cs, hcs, hdigit⟩ := n.digits_eq_cons
  unfold Numeric.text
  split
  · exact ⟨'-', n.digits, rfl, by decide⟩
  · exact ⟨c, cs, hcs, by simp [isNumberChar, hdigit]⟩

/-! ### Strings -/

/-- The characters with an escape of their own. -/
def shortEscapes : List (Char × Char) :=
  [('"', '"'), ('\\', '\\'), ('\x08', 'b'), ('\x0c', 'f'), ('\n', 'n'), ('\r', 'r'), ('\t', 't')]

/-- `escape_json`, one character of it. -/
def escapeJson (c : Char) : List Char :=
  match shortEscapes.lookup c with
  | some e => ['\\', e]
  | none =>
      if c.toNat < 32 then
        ['\\', 'u', '0', '0', hexDigit (c.toNat / 16), hexDigit (c.toNat % 16)]
      else [c]

/-- `escape_json`: the quoted text. -/
def quoteJson (s : String) : List Char := '"' :: (s.toList.flatMap escapeJson ++ ['"'])

def hexValue (c : Char) : ℕ := if isDigit c then c.toNat - 48 else c.toNat - 87

/-- The character behind a backslash. -/
def unescapeMark : List Char → Option (Char × List Char)
  | 'u' :: _ :: _ :: hi :: lo :: cs => some (Char.ofNat (16 * hexValue hi + hexValue lo), cs)
  | e :: cs => (shortEscapes.find? fun p => p.2 = e).map fun p => (p.1, cs)
  | [] => none

/-- The first character of an escaped text; a quote ends it. -/
def unescape : List Char → Option (Char × List Char)
  | [] => none
  | c :: cs => if c = '\\' then unescapeMark cs else if c = '"' then none else some (c, cs)

theorem hexValue_hexDigit {n : ℕ} (h : n < 16) : hexValue (hexDigit n) = n := by
  interval_cases n <;> decide

theorem unescapeMark_shortEscape {c e : Char} (h : shortEscapes.lookup c = some e)
    (cs : List Char) : unescapeMark (e :: cs) = some (c, cs) := by
  have hmem : (c, e) ∈ shortEscapes := by
    obtain ⟨l, l', hsplit, -⟩ := List.lookup_eq_some_iff.mp h
    simp [hsplit]
  simp only [shortEscapes, List.mem_cons, List.not_mem_nil, or_false, Prod.mk.injEq] at hmem
  rcases hmem with ⟨rfl, rfl⟩ | ⟨rfl, rfl⟩ | ⟨rfl, rfl⟩ | ⟨rfl, rfl⟩ | ⟨rfl, rfl⟩ | ⟨rfl, rfl⟩ |
    ⟨rfl, rfl⟩ <;> rfl

theorem unescape_escapeJson (c : Char) (cs : List Char) :
    unescape (escapeJson c ++ cs) = some (c, cs) := by
  cases hshort : shortEscapes.lookup c with
  | some e =>
      simp only [escapeJson, hshort, List.cons_append, List.nil_append, unescape, if_true]
      exact unescapeMark_shortEscape hshort cs
  | none =>
      have hslash : c ≠ '\\' := by
        rintro rfl
        exact absurd hshort (by decide)
      have hquote : c ≠ '"' := by
        rintro rfl
        exact absurd hshort (by decide)
      by_cases hcontrol : c.toNat < 32
      · have hcode : 16 * (c.toNat / 16) + c.toNat % 16 = c.toNat := Nat.div_add_mod ..
        simp only [escapeJson, hshort, if_pos hcontrol, List.cons_append, List.nil_append, unescape,
          if_true, unescapeMark, hexValue_hexDigit (by omega : c.toNat / 16 < 16),
          hexValue_hexDigit (by omega : c.toNat % 16 < 16), hcode, Char.ofNat_toNat]
      · simp [escapeJson, hshort, hcontrol, unescape, hslash, hquote]

theorem flatMap_escapeJson_inj {s t r r' : List Char}
    (h : s.flatMap escapeJson ++ '"' :: r = t.flatMap escapeJson ++ '"' :: r') :
    s = t ∧ r = r' := by
  induction s generalizing t with
  | nil =>
      cases t with
      | nil => exact ⟨rfl, (List.cons.inj h).2⟩
      | cons d t =>
          have hread := congrArg unescape h
          rw [List.flatMap_cons, List.append_assoc, unescape_escapeJson] at hread
          exact absurd hread (by simp [unescape])
  | cons c s ih =>
      have hread := congrArg unescape h
      rw [List.flatMap_cons, List.append_assoc, unescape_escapeJson] at hread
      cases t with
      | nil => exact absurd hread (by simp [unescape])
      | cons d t =>
          rw [List.flatMap_cons, List.append_assoc, unescape_escapeJson, Option.some.injEq,
            Prod.mk.injEq] at hread
          obtain ⟨rfl, hrest⟩ := hread
          obtain ⟨rfl, hr⟩ := ih hrest
          exact ⟨rfl, hr⟩

theorem quoteJson_append_inj {s t : String} {r r' : List Char}
    (h : quoteJson s ++ r = quoteJson t ++ r') : s = t ∧ r = r' := by
  simp only [quoteJson, List.cons_append, List.append_assoc, List.nil_append] at h
  obtain ⟨hlist, hr⟩ := flatMap_escapeJson_inj (List.cons.inj h).2
  exact ⟨String.toList_inj.mp hlist, hr⟩

/-! ### Values -/

/-- What a `jsonb` value is made of. -/
inductive Jsonb
  | null
  | bool (b : Bool)
  | number (n : Numeric)
  | string (s : String)
  | array (vs : List Jsonb)
  | object (fields : List (String × Jsonb))

/-- The order of the keys of an object: by the number of bytes, then by the bytes. -/
def keyLt (k k' : String) : Bool :=
  (utf8 k).length < (utf8 k').length || (utf8 k).length = (utf8 k').length && utf8 k < utf8 k'

mutual

/-- All keys are distinct and in order. -/
def Jsonb.canonical : Jsonb → Bool
  | .array vs => Jsonb.allCanonical vs
  | .object fields =>
      decide (List.Pairwise (fun f g => keyLt f.1 g.1) fields) && Jsonb.allFieldsCanonical fields
  | .null | .bool _ | .number _ | .string _ => true

def Jsonb.allCanonical : List Jsonb → Bool
  | [] => true
  | v :: vs => v.canonical && Jsonb.allCanonical vs

def Jsonb.allFieldsCanonical : List (String × Jsonb) → Bool
  | [] => true
  | (_, v) :: fields => v.canonical && Jsonb.allFieldsCanonical fields

end

mutual

/-- `jsonb_out`. -/
def Jsonb.text : Jsonb → List Char
  | .null => ['n', 'u', 'l', 'l']
  | .bool true => ['t', 'r', 'u', 'e']
  | .bool false => ['f', 'a', 'l', 's', 'e']
  | .number n => n.text
  | .string s => quoteJson s
  | .array vs => '[' :: Jsonb.elementsText [] vs
  | .object fields => '\x7b' :: Jsonb.fieldsText [] fields

/-- The elements of an array, the first one after `lead`. -/
def Jsonb.elementsText (lead : List Char) : List Jsonb → List Char
  | [] => [']']
  | v :: vs => lead ++ (v.text ++ Jsonb.elementsText [',', ' '] vs)

def Jsonb.fieldsText (lead : List Char) : List (String × Jsonb) → List Char
  | [] => ['\x7d']
  | (k, v) :: fields =>
      lead ++ (quoteJson k ++ ':' :: ' ' :: (v.text ++ Jsonb.fieldsText [',', ' '] fields))

end

/-- A text that does not continue a number. -/
def Stops (r : List Char) : Prop := ∀ c ∈ r.head?, isNumberChar c = false

theorem stops_nil : Stops [] := by simp [Stops]

theorem stops_elementsText (vs : List Jsonb) (r : List Char) :
    Stops (Jsonb.elementsText [',', ' '] vs ++ r) := by
  intro c hc
  cases vs <;> simp only [Jsonb.elementsText, List.cons_append, List.head?_cons,
    Option.mem_some_iff] at hc <;> subst hc <;> decide

theorem stops_fieldsText (fields : List (String × Jsonb)) (r : List Char) :
    Stops (Jsonb.fieldsText [',', ' '] fields ++ r) := by
  intro c hc
  cases fields <;> simp only [Jsonb.fieldsText, List.cons_append, List.head?_cons,
    Option.mem_some_iff] at hc <;> subst hc <;> decide

/-- The kinds of value, as their first character tells them apart. -/
inductive JsonbKind
  | null | bool | number | string | array | object
  deriving DecidableEq

def Jsonb.kind : Jsonb → JsonbKind
  | .null => .null
  | .bool _ => .bool
  | .number _ => .number
  | .string _ => .string
  | .array _ => .array
  | .object _ => .object

def kindOf (c : Char) : Option JsonbKind :=
  if isNumberChar c then some .number
  else if c = 'n' then some .null
  else if c = 't' ∨ c = 'f' then some .bool
  else if c = '"' then some .string
  else if c = '[' then some .array
  else if c = '\x7b' then some .object
  else none

theorem kindOf_head_text (v : Jsonb) (r : List Char) :
    (v.text ++ r).head?.bind kindOf = some v.kind := by
  cases v with
  | number n =>
      obtain ⟨c, cs, hcs, hnumber⟩ := n.text_eq_cons
      simp [Jsonb.text, hcs, kindOf, hnumber, Jsonb.kind]
  | bool b => cases b <;> rfl
  | _ => rfl

theorem kind_eq_of_append_eq {v w : Jsonb} {r r' : List Char} (h : v.text ++ r = w.text ++ r') :
    v.kind = w.kind := by
  have hkind := kindOf_head_text v r
  rw [h, kindOf_head_text] at hkind
  exact (Option.some.inj hkind).symm

/-- An array that is closed has no further element. -/
theorem elementsText_nil_ne {lead : List Char} (hlead : lead = [] ∨ lead = [',', ' ']) {w : Jsonb}
    {ws : List Jsonb} {r r' : List Char} :
    Jsonb.elementsText lead [] ++ r ≠ Jsonb.elementsText lead (w :: ws) ++ r' := by
  intro h
  rcases hlead with rfl | rfl
  · have hclose : (Jsonb.elementsText [] [] ++ r).head?.bind kindOf = none := rfl
    rw [h, Jsonb.elementsText, List.nil_append, List.append_assoc, kindOf_head_text] at hclose
    cases hclose
  · simp [Jsonb.elementsText] at h

mutual

/-- A value can be split off what follows it. -/
theorem text_append_inj : ∀ (v w : Jsonb) {r r' : List Char}, Stops r → Stops r' →
    v.text ++ r = w.text ++ r' → v = w ∧ r = r'
  | .null, w, r, r', _, _, h => by
      have hkind := kind_eq_of_append_eq h
      cases w <;> simp only [Jsonb.kind, reduceCtorEq] at hkind
      exact ⟨rfl, List.append_cancel_left h⟩
  | .bool b, w, r, r', _, _, h => by
      have hkind := kind_eq_of_append_eq h
      cases w <;> simp only [Jsonb.kind, reduceCtorEq] at hkind
      rename_i b'
      cases b <;> cases b' <;> simp_all [Jsonb.text]
  | .number n, w, r, r', hr, hr', h => by
      have hkind := kind_eq_of_append_eq h
      cases w <;> simp only [Jsonb.kind, reduceCtorEq] at hkind
      rename_i n'
      obtain ⟨htext, hrest⟩ := append_inj_of_stop (fun _ hc => isNumberChar_of_mem_text hc)
        (fun _ hc => isNumberChar_of_mem_text hc) hr hr' h
      exact ⟨by rw [Numeric.text_injective htext], hrest⟩
  | .string s, w, r, r', _, _, h => by
      have hkind := kind_eq_of_append_eq h
      cases w <;> simp only [Jsonb.kind, reduceCtorEq] at hkind
      obtain ⟨rfl, hrest⟩ := quoteJson_append_inj h
      exact ⟨rfl, hrest⟩
  | .array vs, w, r, r', _, _, h => by
      have hkind := kind_eq_of_append_eq h
      cases w <;> simp only [Jsonb.kind, reduceCtorEq] at hkind
      rename_i ws
      obtain ⟨rfl, hrest⟩ := elementsText_append_inj [] (.inl rfl) vs ws (List.cons.inj h).2
      exact ⟨rfl, hrest⟩
  | .object fields, w, r, r', _, _, h => by
      have hkind := kind_eq_of_append_eq h
      cases w <;> simp only [Jsonb.kind, reduceCtorEq] at hkind
      rename_i fields'
      obtain ⟨rfl, hrest⟩ := fieldsText_append_inj [] (.inl rfl) fields fields' (List.cons.inj h).2
      exact ⟨rfl, hrest⟩

theorem elementsText_append_inj (lead : List Char) (hlead : lead = [] ∨ lead = [',', ' ']) :
    ∀ (vs ws : List Jsonb) {r r' : List Char},
      Jsonb.elementsText lead vs ++ r = Jsonb.elementsText lead ws ++ r' → vs = ws ∧ r = r'
  | [], [], r, r', h => ⟨rfl, (List.cons.inj h).2⟩
  | [], w :: ws, r, r', h => absurd h (elementsText_nil_ne hlead)
  | v :: vs, [], r, r', h => absurd h.symm (elementsText_nil_ne hlead)
  | v :: vs, w :: ws, r, r', h => by
      simp only [Jsonb.elementsText, List.append_assoc] at h
      obtain ⟨rfl, hrest⟩ := text_append_inj v w (stops_elementsText vs r)
        (stops_elementsText ws r') (List.append_cancel_left h)
      obtain ⟨rfl, hr⟩ := elementsText_append_inj [',', ' '] (.inr rfl) vs ws hrest
      exact ⟨rfl, hr⟩

theorem fieldsText_append_inj (lead : List Char) (hlead : lead = [] ∨ lead = [',', ' ']) :
    ∀ (fs gs : List (String × Jsonb)) {r r' : List Char},
      Jsonb.fieldsText lead fs ++ r = Jsonb.fieldsText lead gs ++ r' → fs = gs ∧ r = r'
  | [], [], r, r', h => ⟨rfl, (List.cons.inj h).2⟩
  | [], (k, w) :: gs, r, r', h => by
      rcases hlead with rfl | rfl <;> simp [Jsonb.fieldsText, quoteJson] at h
  | (k, v) :: fs, [], r, r', h => by
      rcases hlead with rfl | rfl <;> simp [Jsonb.fieldsText, quoteJson] at h
  | (k, v) :: fs, (k', w) :: gs, r, r', h => by
      simp only [Jsonb.fieldsText, List.append_assoc, List.cons_append] at h
      obtain ⟨rfl, hvalue⟩ := quoteJson_append_inj (List.append_cancel_left h)
      obtain ⟨rfl, hrest⟩ := text_append_inj v w (stops_fieldsText fs r) (stops_fieldsText gs r')
        (List.cons.inj (List.cons.inj hvalue).2).2
      obtain ⟨rfl, hr⟩ := fieldsText_append_inj [',', ' '] (.inr rfl) fs gs hrest
      exact ⟨rfl, hr⟩

end

/-- The value of a `jsonb` column. -/
structure JsonbValue where
  value : Jsonb
  canonical : value.canonical = true

/-- `extract(epoch FROM at)::text`; a timestamp is a number of microseconds. -/
def epochText (t : ℤ) : String := String.ofList (Numeric.text ⟨t, 6⟩)

/-- `details_json::text`. -/
def jsonbText (v : JsonbValue) : String := String.ofList v.value.text

/-- The renderings of Postgres. -/
def postgresText : TextRendering ℤ JsonbValue := ⟨epochText, jsonbText⟩

theorem epochText_injective : Function.Injective epochText := by
  intro t t' h
  exact (Numeric.mk.inj (Numeric.text_injective (String.ofList_injective h))).1

theorem jsonbText_injective : Function.Injective jsonbText := by
  intro v w h
  have htext : v.value.text ++ [] = w.value.text ++ [] :=
    congrArg (· ++ []) (String.ofList_injective h)
  obtain ⟨value, hv⟩ := v
  obtain ⟨value', hw⟩ := w
  obtain ⟨rfl, -⟩ := text_append_inj value value' stops_nil stops_nil htext
  rfl

theorem epochText_plain (t : ℤ) : ∀ x ∈ (epochText t).toList, x ≠ '\\' ∧ x ≠ '|' := by
  intro x hx
  rw [epochText, String.toList_ofList] at hx
  have hnumber := isNumberChar_of_mem_text hx
  constructor <;> rintro rfl <;> exact absurd hnumber (by decide)

/-- A value with a nested object, a decimal and characters to be escaped. -/
example : String.ofList (Jsonb.text (.object [("a", .array [.null, .number ⟨-150, 2⟩]),
    ("bc", .string "x\"\n")])) = "\x7b\"a\": [null, -1.50], \"bc\": \"x\\\"\\n\"\x7d" := by
  decide

end TelegramServer.Audit

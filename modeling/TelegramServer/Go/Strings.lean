import Mathlib.Data.List.Basic
import Mathlib.Data.List.DropRight

/-!
The functions of Go's `strings` package the server uses, on the characters of a
string.
-/

namespace TelegramServer.Go

/-- `unicode.IsSpace`. -/
def isSpace (c : Char) : Bool :=
  [0x09, 0x0a, 0x0b, 0x0c, 0x0d, 0x20, 0x85, 0xa0, 0x1680, 0x2028, 0x2029, 0x202f, 0x205f,
    0x3000].contains c.toNat || (0x2000 ≤ c.toNat && c.toNat ≤ 0x200a)

def trimLeft (cs : List Char) : List Char := cs.dropWhile isSpace

def trimRight (cs : List Char) : List Char := (trimLeft cs.reverse).reverse

/-- `strings.TrimSpace`. -/
def trimSpace (s : String) : String := String.ofList (trimRight (trimLeft s.toList))

/-- `strings.HasPrefix`. -/
def hasPrefix (s p : String) : Bool := p.toList.isPrefixOf s.toList

/-- `strings.TrimPrefix`. -/
def trimPrefix (s p : String) : String :=
  if hasPrefix s p then String.ofList (s.toList.drop p.toList.length) else s

theorem append_trimPrefix {s p : String} (h : hasPrefix s p = true) : p ++ trimPrefix s p = s := by
  obtain ⟨rest, hrest⟩ := List.isPrefixOf_iff_prefix.mp h
  rw [trimPrefix, if_pos h, ← hrest, List.drop_left]
  apply String.toList_inj.mp
  rw [String.toList_append, String.toList_ofList, hrest]

theorem hasPrefix_append (p q : String) : hasPrefix (p ++ q) p = true := by
  rw [hasPrefix, String.toList_append]
  exact List.isPrefixOf_iff_prefix.mpr (List.prefix_append _ _)

/-- Of two prefixes of a string one is a prefix of the other. -/
theorem hasPrefix_eq_false {s p q : String} (hp : hasPrefix s p = true)
    (hpq : hasPrefix p q = false) (hqp : hasPrefix q p = false) : hasPrefix s q = false := by
  refine Bool.eq_false_iff.mpr fun hq => ?_
  unfold hasPrefix at hp hq hpq hqp
  rw [List.isPrefixOf_iff_prefix] at hp hq
  rw [Bool.eq_false_iff, ne_eq, List.isPrefixOf_iff_prefix] at hpq hqp
  exact (List.prefix_or_prefix_of_prefix hp hq).elim hqp hpq

/-- `unicode.ToLower` as far as it leads into ASCII. The dotted capital I and the
Kelvin sign are the only letters outside ASCII that do; every other character is
left alone, since the server compares the result with ASCII words only. -/
def toLowerRune (c : Char) : Char :=
  if c.toNat = 0x130 then 'i' else if c.toNat = 0x212a then 'k' else c.toLower

/-- `strings.ToLower`, for comparisons with ASCII words. -/
def toLower (s : String) : String := String.ofList (s.toList.map toLowerRune)

theorem toNat_toLower (c : Char) :
    c.toLower.toNat = if 65 ≤ c.toNat ∧ c.toNat ≤ 90 then c.toNat + 32 else c.toNat := by
  unfold Char.toLower Char.toNat
  split
  · next h =>
      have hlow := UInt32.le_iff_toNat_le.mp h.1
      have hhigh := UInt32.le_iff_toNat_le.mp h.2
      rw [if_pos (by simpa using ⟨hlow, hhigh⟩)]
      simp only [UInt32.toNat_add]
      simp at hhigh ⊢
      omega
  · next h =>
      rw [if_neg]
      rintro ⟨hlow, hhigh⟩
      exact h ⟨UInt32.le_iff_toNat_le.mpr (by simpa using hlow),
        UInt32.le_iff_toNat_le.mpr (by simpa using hhigh)⟩

/-- A lower-case letter is its own lower case. -/
theorem toLowerRune_toLowerRune (c : Char) : toLowerRune (toLowerRune c) = toLowerRune c := by
  unfold toLowerRune
  split
  · decide
  split
  · decide
  · next hI hK =>
      have hlower := toNat_toLower c
      have htwice := toNat_toLower c.toLower
      rw [if_neg (by split at hlower <;> omega), if_neg (by split at hlower <;> omega)]
      apply Char.toNat_inj.mp
      split at hlower <;> split at htwice <;> omega

/-- The visible characters of ASCII. -/
theorem isSpace_eq_false {c : Char} (hlow : 0x21 ≤ c.toNat) (hhigh : c.toNat ≤ 0x7e) :
    isSpace c = false := by
  simp only [isSpace, List.contains_eq_mem, List.mem_cons, List.not_mem_nil, or_false,
    Bool.or_eq_false_iff, decide_eq_false_iff_not, Bool.and_eq_false_iff]
  omega

theorem isSpace_toLowerRune (c : Char) : isSpace (toLowerRune c) = isSpace c := by
  unfold toLowerRune
  split
  · next hI => simp [isSpace, hI]
  split
  · next hK => simp [isSpace, hK]
  · have hlower := toNat_toLower c
    split at hlower
    · next hletter =>
        rw [isSpace_eq_false (by omega) (by omega), isSpace_eq_false (by omega) (by omega)]
    · rw [isSpace, hlower, isSpace]

theorem trimSpace_toLower (s : String) : trimSpace (toLower s) = toLower (trimSpace s) := by
  have hspace : isSpace ∘ toLowerRune = isSpace := funext isSpace_toLowerRune
  have hleft (cs : List Char) : trimLeft (cs.map toLowerRune) = (trimLeft cs).map toLowerRune := by
    rw [trimLeft, List.dropWhile_map, hspace, trimLeft]
  simp only [trimSpace, toLower, trimRight, String.toList_ofList, hleft, ← List.map_reverse]

/-- A beginning of a text without leading spaces has none either. -/
theorem trimLeft_of_prefix {cs cs' : List Char} (hcs : trimLeft cs = cs) (h : cs' <+: cs) :
    trimLeft cs' = cs' := by
  cases cs' with
  | nil => rfl
  | cons c cs' =>
      obtain ⟨rest, rfl⟩ := h
      have hc : isSpace c = false := by
        by_contra hspace
        have hlen := congrArg List.length hcs
        rw [List.cons_append, trimLeft, List.dropWhile_cons_of_pos (by simpa using hspace)] at hlen
        have hle := (List.dropWhile_suffix (l := cs' ++ rest) isSpace).length_le
        rw [List.length_cons] at hlen
        omega
      rw [trimLeft, List.dropWhile_cons_of_neg (by simp [hc])]

theorem trimSpace_trimSpace (s : String) : trimSpace (trimSpace s) = trimSpace s := by
  have hright (cs : List Char) : trimRight cs = cs.rdropWhile isSpace := rfl
  have hcut : trimRight (trimLeft s.toList) <+: trimLeft s.toList :=
    List.rdropWhile_prefix isSpace _
  have hleft : trimLeft (trimRight (trimLeft s.toList)) = trimRight (trimLeft s.toList) :=
    trimLeft_of_prefix (List.dropWhile_idempotent isSpace s.toList) hcut
  simp only [trimSpace, String.toList_ofList]
  rw [hleft, hright, hright, List.rdropWhile_idempotent]

/-- Trimming and lower-casing a text a second time changes nothing. -/
theorem toLower_trimSpace_idem (s : String) :
    toLower (trimSpace (toLower (trimSpace s))) = toLower (trimSpace s) := by
  rw [trimSpace_toLower, trimSpace_trimSpace]
  simp only [toLower, String.toList_ofList, List.map_map]
  congr 2
  exact funext toLowerRune_toLowerRune

/-- The characters before and after the first `c`. -/
def cutList (c : Char) : List Char → Option (List Char × List Char)
  | [] => none
  | x :: xs => if x = c then some ([], xs) else (cutList c xs).map fun p => (x :: p.1, p.2)

/-- `strings.Cut` at a single character; `IndexByte` and the two slices around it. -/
def cut (s : String) (c : Char) : Option (String × String) :=
  (cutList c s.toList).map fun p => (String.ofList p.1, String.ofList p.2)

theorem cutList_eq_some {c : Char} {l p q : List Char} :
    cutList c l = some (p, q) ↔ l = p ++ c :: q ∧ c ∉ p := by
  induction l generalizing p with
  | nil => simp [cutList]
  | cons x xs ih =>
      unfold cutList
      split
      · next hx =>
          subst hx
          cases p with
          | nil => simp
          | cons y p => simp +contextual
      · next hx =>
          rw [Option.map_eq_some_iff]
          constructor
          · rintro ⟨⟨p', q'⟩, hcut, heq⟩
            obtain ⟨rfl, rfl⟩ := Prod.mk.inj heq
            obtain ⟨rfl, hmem⟩ := ih.mp hcut
            exact ⟨rfl, by simp [hmem, Ne.symm hx]⟩
          · rintro ⟨heq, hmem⟩
            cases p with
            | nil => exact absurd (List.cons.inj heq).1 hx
            | cons y p =>
                obtain ⟨rfl, rfl⟩ := List.cons.inj heq
                exact ⟨(p, q), ih.mpr ⟨rfl, fun h => hmem (List.mem_cons_of_mem _ h)⟩, rfl⟩

theorem cut_eq_some {s p q : String} {c : Char} :
    cut s c = some (p, q) ↔ s.toList = p.toList ++ c :: q.toList ∧ c ∉ p.toList := by
  unfold cut
  rw [Option.map_eq_some_iff, ← cutList_eq_some]
  constructor
  · rintro ⟨⟨p', q'⟩, hcut, heq⟩
    obtain ⟨rfl, rfl⟩ := Prod.mk.inj heq
    simpa using hcut
  · intro hcut
    exact ⟨_, hcut, by simp⟩

example : trimSpace "  /start tok \n" = "/start tok" := by decide

example : trimPrefix "/start tok" "/start " = "tok" := by decide

end TelegramServer.Go

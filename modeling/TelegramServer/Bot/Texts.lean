import TelegramServer.Go.Strconv
import TelegramServer.Lib.Words

/-!
The texts of the bot's messages and the tokens in them. A startgroup token is a word
of 32 hexadecimal digits. The texts the handlers are written with have no such
word in them (`Plain`), and where a handler puts a string of another origin between
two of them, the digits of that string stay apart from theirs.
-/

namespace TelegramServer.Bot

open Go Lib

def isHexDigit (c : Char) : Bool := ('0' ≤ c && c ≤ '9') || ('a' ≤ c && c ≤ 'f')

/-- The form of a token, `startgroupTokenLen` bytes in hexadecimal. -/
structure IsToken (token : String) : Prop where
  length : token.toList.length = 32
  digits : ∀ c ∈ token.toList, isHexDigit c = true

/-- The text contains the token. -/
def Occurs (token text : String) : Prop := token.toList <:+: text.toList

instance (token text : String) : Decidable (Occurs token text) :=
  inferInstanceAs (Decidable (_ <:+: _))

/-- No token occurs in the text. -/
def Plain (text : String) : Prop := ∀ token, IsToken token → ¬Occurs token text

/-- The text does not end in a hexadecimal digit. -/
def EndsOutside (text : String) : Prop := text.toList.getLast?.all (fun c => !isHexDigit c) = true

/-- The text does not begin with a hexadecimal digit. -/
def StartsOutside (text : String) : Prop := text.toList.head?.all (fun c => !isHexDigit c) = true

theorem isHexDigit_hexDigit {n : ℕ} (hn : n < 16) : isHexDigit (hexDigit n) = true := by
  interval_cases n <;> decide

theorem isToken_hexEncode {bytes : Bytes} (h : bytes.length = 16) : IsToken (hexEncode bytes) := by
  constructor
  · simp [hexEncode, List.length_flatMap, h]
  · intro c hc
    simp only [hexEncode, String.toList_ofList, List.mem_flatMap, List.mem_cons, List.not_mem_nil,
      or_false] at hc
    obtain ⟨b, -, rfl | rfl⟩ := hc
    · exact isHexDigit_hexDigit (by have := b.toNat_lt; omega)
    · exact isHexDigit_hexDigit (by omega)

section Literal

/-! A text of the source is `String.ofList` of its characters, so that the facts
about it are computed from the list. -/

variable {l : List Char}

theorem plain_literal (h : hasStretch isHexDigit 32 0 l = false) : Plain (String.ofList l) := by
  intro token htoken hoccurs
  rw [Occurs, String.toList_ofList] at hoccurs
  have hstretch := hasStretch_of_infix htoken.digits htoken.length.ge hoccurs
  rw [h] at hstretch
  cases hstretch

theorem endsOutside_literal (h : l.getLast?.all (fun c => !isHexDigit c) = true) :
    EndsOutside (String.ofList l) := by
  rwa [EndsOutside, String.toList_ofList]

theorem endsOutside_append_literal {a : String}
    (h : l.getLast?.any (fun c => !isHexDigit c) = true) : EndsOutside (a ++ String.ofList l) := by
  rw [EndsOutside, String.toList_append, String.toList_ofList, List.getLast?_append]
  cases hlast : l.getLast? with
  | none => simp [hlast] at h
  | some c => simpa [hlast] using h

theorem startsOutside_literal (h : l.head?.all (fun c => !isHexDigit c) = true) :
    StartsOutside (String.ofList l) := by
  rwa [StartsOutside, String.toList_ofList]

end Literal

section Occurs

variable {token a b : String}

theorem Occurs.of_append (htoken : IsToken token) (h : Occurs token (a ++ b))
    (hfence : EndsOutside a ∨ StartsOutside b) : Occurs token a ∨ Occurs token b := by
  rw [Occurs, String.toList_append] at h
  exact infix_append_of_fenced htoken.digits hfence h

theorem Occurs.append_left (h : Occurs token b) : Occurs token (a ++ b) := by
  rw [Occurs, String.toList_append]
  exact List.infix_append_of_infix_right h

theorem Occurs.append_right (h : Occurs token a) : Occurs token (a ++ b) := by
  rw [Occurs, String.toList_append]
  exact List.infix_append_of_infix_left h

theorem StartsOutside.append (ha : StartsOutside a) (hb : StartsOutside b) :
    StartsOutside (a ++ b) := by
  unfold StartsOutside at ha hb ⊢
  rw [String.toList_append, List.head?_append]
  cases hhead : a.toList.head? with
  | none => simpa using hb
  | some c => simpa [hhead] using ha

/-- A text that has a first character, which is no hexadecimal digit. -/
def Opens (text : String) : Prop := text.toList.head?.any (fun c => !isHexDigit c) = true

theorem opens_literal {l : List Char} (h : l.head?.any (fun c => !isHexDigit c) = true) :
    Opens (String.ofList l) := by
  rwa [Opens, String.toList_ofList]

theorem Opens.append (h : Opens a) : Opens (a ++ b) := by
  unfold Opens at h ⊢
  rw [String.toList_append, List.head?_append]
  cases hhead : a.toList.head? with
  | none => simp [hhead] at h
  | some c => simpa [hhead] using h

theorem Opens.startsOutside (h : Opens a) : StartsOutside a := by
  unfold Opens at h
  unfold StartsOutside
  cases hhead : a.toList.head? with
  | none => simp [hhead] at h
  | some c => simpa [hhead] using h

/-- A token has no room for another one. -/
theorem Occurs.eq {token' : String} (htoken : IsToken token) (htoken' : IsToken token')
    (h : Occurs token token') : token = token' := by
  refine String.toList_inj.mp (h.eq_of_length ?_)
  rw [htoken.length, htoken'.length]

/-- A text at the end that has no token in it. -/
theorem Occurs.of_append_literal {l : List Char} (htoken : IsToken token)
    (hfence : EndsOutside a ∨ StartsOutside (String.ofList l))
    (h : hasStretch isHexDigit 32 0 l = false) (hoccurs : Occurs token (a ++ String.ofList l)) :
    Occurs token a :=
  (hoccurs.of_append htoken hfence).resolve_right (plain_literal h token htoken)

theorem Plain.append_literal {l : List Char} (ha : Plain a) (hends : EndsOutside a)
    (h : hasStretch isHexDigit 32 0 l = false) : Plain (a ++ String.ofList l) :=
  fun token htoken hoccurs => ha token htoken (hoccurs.of_append_literal htoken (.inl hends) h)

end Occurs

/-- Two texts of a handler that are put around a string of another origin. -/
structure Framing (a b : String) : Prop where
  before : Plain a
  after : Plain b
  ends : EndsOutside a
  starts : StartsOutside b

theorem Framing.occurs {a b token x : String} (h : Framing a b) (htoken : IsToken token)
    (hoccurs : Occurs token (a ++ x ++ b)) : Occurs token x := by
  obtain hleft | hafter := hoccurs.of_append htoken (.inr h.starts)
  · obtain hbefore | hx := hleft.of_append htoken (.inl h.ends)
    · exact absurd hbefore (h.before token htoken)
    · exact hx
  · exact absurd hafter (h.after token htoken)

theorem framing_literal {l l' : List Char} (h : hasStretch isHexDigit 32 0 l = false)
    (h' : hasStretch isHexDigit 32 0 l' = false)
    (hends : l.getLast?.all (fun c => !isHexDigit c) = true)
    (hstarts : l'.head?.all (fun c => !isHexDigit c) = true) :
    Framing (String.ofList l) (String.ofList l') :=
  ⟨plain_literal h, plain_literal h', endsOutside_literal hends, startsOutside_literal hstarts⟩

end TelegramServer.Bot

import Mathlib.Data.List.Basic

/-!
Records of optional texts, written one after the other with a separator between
them. A text has the separator and the escape character escaped; a missing one is
the escape character followed by a mark. The encoding is read back in two passes:
the characters are first grouped into tokens, which is where it matters that the
three tokens that start with the escape character differ in the next one, and the
tokens are then split at the separators that are not escaped.
-/

namespace TelegramServer.Lib

/-- The three characters with a meaning. -/
structure Escaping (α : Type) where
  esc : α
  sep : α
  mark : α
  esc_ne_sep : esc ≠ sep
  mark_ne_esc : mark ≠ esc
  mark_ne_sep : mark ≠ sep

namespace Escaping

inductive Token (α : Type)
  | sep
  | missing
  | lit (c : α)
  deriving DecidableEq

variable {α : Type}

/-- The character of a literal. -/
def Token.lit? : Token α → Option α
  | .lit c => some c
  | _ => none

def fieldTokens : Option (List α) → List (Token α)
  | none => [.missing]
  | some cs => cs.map .lit

theorem sep_notMem_fieldTokens (v : Option (List α)) : Token.sep ∉ fieldTokens v := by
  cases v <;> simp [fieldTokens]

variable [DecidableEq α]

/-- The text of a field, or none where it is the mark. -/
def readField (ts : List (Token α)) : Option (Option (List α)) :=
  if ts = [.missing] then some none else (ts.mapM Token.lit?).map some

variable (E : Escaping α)

def escapeChar (c : α) : List α := if c = E.esc ∨ c = E.sep then [E.esc, c] else [c]

/-- One optional text. -/
def encodeField : Option (List α) → List α
  | none => [E.esc, E.mark]
  | some cs => cs.flatMap E.escapeChar

/-- The whole record. -/
def encode (fields : List (Option (List α))) : List α :=
  [E.sep].intercalate (fields.map E.encodeField)

def renderToken : Token α → List α
  | .sep => [E.sep]
  | .missing => [E.esc, E.mark]
  | .lit c => E.escapeChar c

/-- The tokens of a text, if it has no dangling escape character. -/
def lex : List α → Option (List (Token α))
  | [] => some []
  | [c] =>
      if c = E.sep then some [.sep] else if c = E.esc then none else some [.lit c]
  | c :: d :: rest =>
      if c = E.sep then (lex (d :: rest)).map (.sep :: ·)
      else if c = E.esc then
        (lex rest).map ((if d = E.mark then .missing else .lit d) :: ·)
      else (lex (d :: rest)).map (.lit c :: ·)

def decode (cs : List α) : Option (List (Option (List α))) :=
  (E.lex cs).bind fun ts => (ts.splitOn .sep).mapM readField

/-! ### Tokens -/

theorem lex_cons_sep (cs : List α) : E.lex (E.sep :: cs) = (E.lex cs).map (.sep :: ·) := by
  cases cs <;> simp [lex]

theorem lex_cons_plain {c : α} (hc : ¬(c = E.esc ∨ c = E.sep)) (cs : List α) :
    E.lex (c :: cs) = (E.lex cs).map (.lit c :: ·) := by
  obtain ⟨hesc, hsep⟩ := not_or.mp hc
  cases cs <;> simp [lex, hesc, hsep]

theorem lex_cons_esc (d : α) (cs : List α) :
    E.lex (E.esc :: d :: cs) =
      (E.lex cs).map ((if d = E.mark then .missing else .lit d) :: ·) := by
  simp [lex, E.esc_ne_sep]

theorem lex_renderToken (t : Token α) (cs : List α) :
    E.lex (E.renderToken t ++ cs) = (E.lex cs).map (t :: ·) := by
  cases t with
  | sep => exact E.lex_cons_sep cs
  | missing => simp [renderToken, lex_cons_esc]
  | lit c =>
      simp only [renderToken, escapeChar]
      split
      · next hc =>
          have hmark : c ≠ E.mark := by
            rcases hc with rfl | rfl
            · exact E.mark_ne_esc.symm
            · exact E.mark_ne_sep.symm
          rw [List.cons_append, List.singleton_append, lex_cons_esc, if_neg hmark]
      · next hc => exact E.lex_cons_plain hc cs

/-- **The tokens can be read back.** -/
theorem lex_flatMap_renderToken (ts : List (Token α)) :
    E.lex (ts.flatMap E.renderToken) = some ts := by
  induction ts with
  | nil => rfl
  | cons t ts ih => rw [List.flatMap_cons, lex_renderToken, ih, Option.map_some]

theorem flatMap_fieldTokens (v : Option (List α)) :
    (fieldTokens v).flatMap E.renderToken = E.encodeField v := by
  cases v with
  | none => simp [fieldTokens, renderToken, encodeField]
  | some cs => simp [fieldTokens, renderToken, encodeField, List.flatMap_map]

theorem intercalate_singleton_cons {β : Type} (sep : β) (l : List β) (ls : List (List β)) :
    [sep].intercalate (l :: ls) = l ++ ls.flatMap (sep :: ·) := by
  induction ls generalizing l with
  | nil => simp
  | cons l' ls ih => simp [List.intercalate_cons_cons, ih]

theorem flatMap_intercalate {β γ : Type} (f : β → List γ) (sep : List β) (ls : List (List β)) :
    (sep.intercalate ls).flatMap f = (sep.flatMap f).intercalate (ls.map (List.flatMap f)) := by
  induction ls with
  | nil => simp
  | cons l ls ih =>
      cases ls with
      | nil => simp
      | cons l' ls => simpa [List.intercalate_cons_cons] using ih

/-! ### Fields -/

/-- Reading back item by item. -/
theorem mapM_map_eq_some {β γ : Type} {f : γ → Option β} {g : β → γ} (h : ∀ b, f (g b) = some b)
    (bs : List β) : (bs.map g).mapM f = some bs := by
  induction bs with
  | nil => rfl
  | cons b bs ih => simp [List.mapM_cons, h, ih]

theorem readField_fieldTokens (v : Option (List α)) : readField (fieldTokens v) = some v := by
  cases v with
  | none => simp [fieldTokens, readField]
  | some cs =>
      have hne : cs.map Token.lit ≠ [.missing] := by
        cases cs <;> simp
      have hlits : (cs.map Token.lit).mapM Token.lit? = some cs :=
        mapM_map_eq_some (f := Token.lit?) (g := Token.lit) (fun _ => rfl) cs
      rw [fieldTokens, readField, if_neg hne, hlits, Option.map_some]

theorem encode_eq (fields : List (Option (List α))) :
    E.encode fields =
      ([Token.sep].intercalate (fields.map fieldTokens)).flatMap E.renderToken := by
  have hfields : fields.map E.encodeField =
      (fields.map fieldTokens).map (List.flatMap E.renderToken) := by
    rw [List.map_map]
    exact List.map_congr_left fun v _ => (E.flatMap_fieldTokens v).symm
  rw [flatMap_intercalate, encode, hfields]
  rfl

/-- A record that starts with a field. -/
theorem encode_cons (v : Option (List α)) (fields : List (Option (List α))) :
    E.encode (v :: fields) =
      E.encodeField v ++ fields.flatMap fun w => E.sep :: E.encodeField w := by
  rw [encode, List.map_cons, intercalate_singleton_cons, List.flatMap_map]

/-- A text without special characters is written as it is. -/
theorem encodeField_plain {cs : List α} (h : ∀ c ∈ cs, c ≠ E.esc ∧ c ≠ E.sep) :
    E.encodeField (some cs) = cs := by
  induction cs with
  | nil => rfl
  | cons c cs ih =>
      obtain ⟨hesc, hsep⟩ := h c (List.mem_cons_self ..)
      have hrest := ih fun d hd => h d (List.mem_cons_of_mem _ hd)
      simp only [encodeField] at hrest ⊢
      rw [List.flatMap_cons, hrest, escapeChar, if_neg (not_or.mpr ⟨hesc, hsep⟩),
        List.singleton_append]

/-- **A record can be read back.** -/
theorem decode_encode {fields : List (Option (List α))} (hne : fields ≠ []) :
    E.decode (E.encode fields) = some fields := by
  have hsplit : ([Token.sep].intercalate (fields.map fieldTokens)).splitOn Token.sep =
      fields.map fieldTokens := by
    refine List.splitOn_intercalate _ ?_ (by simpa using hne)
    intro ts hts
    obtain ⟨v, -, rfl⟩ := List.mem_map.mp hts
    exact sep_notMem_fieldTokens v
  rw [decode, encode_eq, lex_flatMap_renderToken, Option.bind_some, hsplit]
  exact mapM_map_eq_some readField_fieldTokens fields

end Escaping

end TelegramServer.Lib

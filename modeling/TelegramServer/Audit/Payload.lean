import TelegramServer.Audit.PostgresText
import TelegramServer.Lib.Escape
import Mathlib.Logic.Function.Basic

/-!
The payload of a chained row can be read back. `audit_chain_field` escapes a
column in two passes, which together are the escaping of one record of optional
texts, so the fields of a payload are recovered by its decoder, and the columns
from the fields by whatever reads the renderings of Postgres back. Two rows with
the same payload therefore agree in all fourteen columns: the chain binds the
columns, and not only the bytes that were hashed.
-/

namespace TelegramServer.Audit

open Go Lib

variable {τ J : Type}

/-- The characters of `audit_chain_field`. -/
def chainEscaping : Escaping Char where
  esc := '\\'
  sep := '|'
  mark := 'N'
  esc_ne_sep := by decide
  mark_ne_esc := by decide
  mark_ne_sep := by decide

/-- The second pass does not touch what the first one put in. -/
theorem replaceChar_replaceChar (cs : List Char) :
    replaceChar '|' ['\\', '|'] (replaceChar '\\' ['\\', '\\'] cs) =
      cs.flatMap chainEscaping.escapeChar := by
  rw [replaceChar, replaceChar, List.flatMap_assoc]
  refine List.flatMap_congr fun c _ => ?_
  by_cases hesc : c = '\\'
  · subst hesc
    decide
  by_cases hsep : c = '|'
  · subst hsep
    decide
  · simp [Escaping.escapeChar, chainEscaping, hesc, hsep]

theorem auditChainField_eq (v : Option String) :
    auditChainField v = chainEscaping.encodeField (v.map String.toList) := by
  cases v with
  | none => rfl
  | some s => exact replaceChar_replaceChar s.toList

/-! ### The decoder -/

/-- `convert_from(b, 'UTF8')`. -/
def fromUtf8 (b : Bytes) : Option String := String.fromUTF8? ⟨b.toArray⟩

theorem fromUtf8_utf8 (s : String) : fromUtf8 (utf8 s) = some s := by
  have hbytes : (⟨(utf8 s).toArray⟩ : ByteArray) = s.toByteArray := rfl
  rw [fromUtf8, hbytes, String.fromUTF8?, dif_pos s.isValidUTF8]
  rfl

/-- A nullable column from the text of its field. -/
def readColumn {β : Type} (read : String → Option β) : Option (List Char) → Option (Option β)
  | none => some none
  | some cs => (read (String.ofList cs)).map some

/-- The columns of a payload. -/
def decodePayload (readEpoch : String → Option τ) (readJsonb : String → Option J)
    (b : Bytes) : Option (AuditColumns τ J) := do
  let text ← fromUtf8 b
  let fields ← chainEscaping.decode text.toList
  match fields with
  | [some version, some epoch, traceID, messageID, stage, appID, capability, capabilitySetVer,
      endpoint, routeStrategy, deliveryChannel, recipientUserID, recipientChatID, errorCode,
      detailsJSON] =>
      if version = ['v', '1'] then
        return {
          time := ← readEpoch (String.ofList epoch)
          traceID := traceID.map String.ofList
          messageID := messageID.map String.ofList
          stage := stage.map String.ofList
          appID := appID.map String.ofList
          capability := capability.map String.ofList
          capabilitySetVer := ← readColumn readInt capabilitySetVer
          endpoint := endpoint.map String.ofList
          routeStrategy := routeStrategy.map String.ofList
          deliveryChannel := deliveryChannel.map String.ofList
          recipientUserID := ← readColumn readInt recipientUserID
          recipientChatID := ← readColumn readInt recipientChatID
          errorCode := errorCode.map String.ofList
          detailsJSON := ← readColumn readJsonb detailsJSON }
      else none
  | _ => none

theorem readColumn_map {β : Type} {read : String → Option β} {render : β → String}
    (h : ∀ b, read (render b) = some b) (v : Option β) :
    readColumn read ((v.map render).map String.toList) = some v := by
  cases v with
  | none => rfl
  | some b => simp [readColumn, h]

theorem map_ofList_toList (v : Option String) :
    (v.map String.toList).map String.ofList = v := by
  cases v <;> simp

/-- The text of a payload is one escaped record. -/
theorem auditChainPayload_eq {r : TextRendering τ J} {c : AuditColumns τ J}
    (hplain : ∀ x ∈ (r.epoch c.time).toList, x ≠ '\\' ∧ x ≠ '|') :
    auditChainPayload r c = utf8 (String.ofList (chainEscaping.encode
      (some ['v', '1'] :: some (r.epoch c.time).toList ::
        (chainFields r c).map (Option.map String.toList)))) := by
  have hepoch := chainEscaping.encodeField_plain hplain
  have hversion : chainEscaping.encodeField (some ['v', '1']) = ['v', '1'] := by decide
  rw [auditChainPayload, Escaping.encode_cons, List.flatMap_cons, List.flatMap_map, hepoch,
    hversion]
  simp only [auditChainField_eq]
  simp [chainEscaping]

/-- **The decoder** recovers the columns, if it is given what reads the renderings back. -/
theorem decodePayload_auditChainPayload {r : TextRendering τ J} {readEpoch : String → Option τ}
    {readJsonb : String → Option J} (hepoch : ∀ t, readEpoch (r.epoch t) = some t)
    (hjsonb : ∀ v, readJsonb (r.jsonb v) = some v) {c : AuditColumns τ J}
    (hplain : ∀ x ∈ (r.epoch c.time).toList, x ≠ '\\' ∧ x ≠ '|') :
    decodePayload readEpoch readJsonb (auditChainPayload r c) = some c := by
  rw [auditChainPayload_eq hplain, decodePayload, fromUtf8_utf8]
  simp only [Option.bind_eq_bind, Option.bind_some, String.toList_ofList,
    Escaping.decode_encode _ (List.cons_ne_nil _ _), chainFields, List.map_cons, List.map_nil,
    if_true, String.ofList_toList, hepoch, readColumn_map readInt_toString,
    readColumn_map hjsonb, map_ofList_toList]
  rfl

/-- **The payload is injective**, whatever the values of the columns are: if the renderings of
timestamps and of `jsonb` values are injective, and timestamps are rendered without bars and
backslashes, two tuples with the same payload are equal column by column, and the columns can be
decoded. -/
theorem auditChainPayload_injective (r : TextRendering τ J) (hepoch : Function.Injective r.epoch)
    (hjsonb : Function.Injective r.jsonb)
    (hplain : ∀ t, ∀ x ∈ (r.epoch t).toList, x ≠ '\\' ∧ x ≠ '|') :
    Function.Injective (auditChainPayload r) ∧
      ∃ readEpoch readJsonb, ∀ c,
        decodePayload readEpoch readJsonb (auditChainPayload r c) = some c := by
  classical
  have hdecode (c : AuditColumns τ J) : decodePayload (Function.partialInv r.epoch)
      (Function.partialInv r.jsonb) (auditChainPayload r c) = some c :=
    decodePayload_auditChainPayload (Function.partialInv_left hepoch)
      (Function.partialInv_left hjsonb) (hplain c.time)
  refine ⟨fun c c' heq => ?_, _, _, hdecode⟩
  have hsame := hdecode c
  rw [heq, hdecode c'] at hsame
  exact (Option.some.inj hsame).symm

/-- The payload of Postgres, over the values its columns hold. -/
theorem postgresPayload_injective :
    Function.Injective (auditChainPayload postgresText) ∧
      ∃ readEpoch readJsonb, ∀ c,
        decodePayload readEpoch readJsonb (auditChainPayload postgresText c) = some c :=
  auditChainPayload_injective postgresText epochText_injective jsonbText_injective epochText_plain

/-- The payload pinned by `TestComputeRowHashPinned`. -/
example : auditChainPayload postgresText
    { time := 1767225600500000, traceID := none, messageID := none, stage := some "received"
      appID := some "ci-notifier", capability := none, capabilitySetVer := none
      endpoint := some "/v1/messages/direct", routeStrategy := none, deliveryChannel := none
      recipientUserID := some 42, recipientChatID := none, errorCode := none
      detailsJSON := some ⟨.object [], rfl⟩ } =
    utf8 ("v1|1767225600.500000|\\N|\\N|received|ci-notifier|\\N|\\N|/v1/messages/direct|" ++
      "\\N|\\N|42|\\N|\\N|\x7b\x7d") := by
  decide +kernel

end TelegramServer.Audit

import TelegramServer.Go.Basic

/-!
Audit events and the row they are stored as (`internal/audit/event.go`,
`migrations/0001` and `0007`). An `Event` is what a handler hands to the
writer; `AuditColumns` are the fourteen audit columns of `audit_log` that
enter the hash chain, and `auditChainPayload` is the SQL function that
serializes them. Both are about whatever values a `timestamptz` and a `jsonb`
column hold. `Columns` takes for them what the writer hands to the driver.
-/

namespace TelegramServer.Audit

open Go

/-- The stages a handler may write (`audit.Stage`). -/
inductive Stage
  | received | validated | dispatched | delivered | denied | retried | deferred
  | intrusionKick | intrusionUnmitigated | botNotAdmin | telegramAuthFailed
  | keyIssued | keyRevoked
  deriving DecidableEq, Repr

def Stage.text : Stage → String
  | .received => "received"
  | .validated => "validated"
  | .dispatched => "dispatched"
  | .delivered => "delivered"
  | .denied => "denied"
  | .retried => "retried"
  | .deferred => "deferred"
  | .intrusionKick => "intrusion_kick"
  | .intrusionUnmitigated => "intrusion_unmitigated"
  | .botNotAdmin => "bot_not_admin"
  | .telegramAuthFailed => "telegram_auth_failed"
  | .keyIssued => "key_issued"
  | .keyRevoked => "key_revoked"

/-- `audit.DeliveryChannel` is an open string type: the dispatch loop converts
whatever channel a resolver put into its handle. -/
abbrev DeliveryChannel := String

def channelSupergroup : DeliveryChannel := "supergroup"
def channelDM : DeliveryChannel := "dm"
def channelGeneral : DeliveryChannel := "general"

/-- A value of a `map[string]any`. `unsupported` stands for what
`json.Marshal` refuses: a channel, a function, a NaN. -/
inductive JsonValue
  | null
  | bool (b : Bool)
  | int (n : ℤ)
  | str (s : String)
  | list (vs : List JsonValue)
  | map (kvs : List (String × JsonValue))
  | unsupported

mutual

/-- `json.Marshal` succeeds on the value. -/
def JsonValue.supported : JsonValue → Bool
  | .list vs => JsonValue.allSupported vs
  | .map kvs => JsonValue.allFieldsSupported kvs
  | .unsupported => false
  | .null | .bool _ | .int _ | .str _ => true

def JsonValue.allSupported : List JsonValue → Bool
  | [] => true
  | v :: vs => v.supported && JsonValue.allSupported vs

def JsonValue.allFieldsSupported : List (String × JsonValue) → Bool
  | [] => true
  | (_, v) :: kvs => v.supported && JsonValue.allFieldsSupported kvs

end

structure Event where
  /-- The Go field `At`. -/
  time : Time := 0
  traceID : String := ""
  messageID : String := ""
  stage : Stage
  appID : String := ""
  capability : String := ""
  capabilitySetVer : ℤ := 0
  endpoint : String := ""
  routeStrategy : String := ""
  deliveryChannel : DeliveryChannel := ""
  recipientUserID : ℤ := 0
  recipientChatID : ℤ := 0
  errorCode : String := ""
  details : List (String × JsonValue) := []

/-- `marshalDetails`: the details as the `jsonb` value the bytes denote, or
`none` where `json.Marshal` fails. An empty map is written as an empty
object. -/
def Event.marshalDetails (e : Event) : Option JsonValue :=
  if e.details.isEmpty then some (.map [])
  else if JsonValue.allFieldsSupported e.details then some (.map e.details)
  else none

/-- The fourteen columns the chain covers, over the values `τ` of a timestamp and
`J` of a `jsonb` column. `stage` and `details_json` are NOT NULL in the table; the
serializer itself accepts NULL in either. -/
structure AuditColumns (τ J : Type) where
  time : τ
  traceID : Option String
  messageID : Option String
  stage : Option String
  appID : Option String
  capability : Option String
  capabilitySetVer : Option ℤ
  endpoint : Option String
  routeStrategy : Option String
  deliveryChannel : Option String
  recipientUserID : Option ℤ
  recipientChatID : Option ℤ
  errorCode : Option String
  detailsJSON : Option J

/-- The columns as the writer hands them over: an instant, and the value its JSON
denotes. Postgres rounds the one and normalizes the other when it stores them. -/
abbrev Columns := AuditColumns Time JsonValue

/-- The `v` part of `insertChainedQuery`: empty texts and zero numbers become
NULL, a zero time becomes the transaction's `now()`. -/
def insertValues (now : Time) (e : Event) (details : JsonValue) : Columns where
  time := if e.time = 0 then now else e.time
  traceID := nullIf e.traceID ""
  messageID := nullIf e.messageID ""
  stage := some e.stage.text
  appID := nullIf e.appID ""
  capability := nullIf e.capability ""
  capabilitySetVer := nullIf e.capabilitySetVer 0
  endpoint := nullIf e.endpoint ""
  routeStrategy := nullIf e.routeStrategy ""
  deliveryChannel := nullIf e.deliveryChannel ""
  recipientUserID := nullIf e.recipientUserID 0
  recipientChatID := nullIf e.recipientChatID 0
  errorCode := nullIf e.errorCode ""
  detailsJSON := some details

/-! ### The canonical payload -/

/-- The two text renderings of Postgres the payload depends on:
`extract(epoch FROM at)::text` and `details_json::text`. -/
structure TextRendering (τ J : Type) where
  epoch : τ → String
  jsonb : J → String

abbrev Rendering := TextRendering Time JsonValue

/-- SQL `replace` of a single character. -/
def replaceChar (c : Char) (rep : List Char) (s : List Char) : List Char :=
  s.flatMap fun x => if x = c then rep else [x]

/-- `audit_chain_field`: NULL is the unescaped marker, a text has its
backslashes and then its bars escaped. -/
def auditChainField : Option String → List Char
  | none => ['\\', 'N']
  | some v => replaceChar '|' ['\\', '|'] (replaceChar '\\' ['\\', '\\'] v.toList)

/-- The fields after the timestamp, in the order of `audit_chain_payload`. -/
def chainFields {τ J : Type} (r : TextRendering τ J) (c : AuditColumns τ J) :
    List (Option String) :=
  [c.traceID, c.messageID, c.stage, c.appID, c.capability,
    c.capabilitySetVer.map toString, c.endpoint, c.routeStrategy, c.deliveryChannel,
    c.recipientUserID.map toString, c.recipientChatID.map toString, c.errorCode,
    c.detailsJSON.map r.jsonb]

/-- `audit_chain_payload`. -/
def auditChainPayload {τ J : Type} (r : TextRendering τ J) (c : AuditColumns τ J) : Bytes :=
  utf8 (String.ofList (['v', '1', '|'] ++ (r.epoch c.time).toList ++
    (chainFields r c).flatMap fun v => '|' :: auditChainField v))

end TelegramServer.Audit

import GateController.Store.Schema

/-!
# Data for recovery

A claim carries the event, the outbox payload and the command of its caller, so
that an interrupted call can be finished by another process.  The event is
written by `encodePendingEvent` and read by `decodePendingEvent`, field by
field.

Nothing else writes the column, so a field of the wrong JSON type can only come
from outside.  Such a field is reported as a `TypeError`, which recovery skips.
-/

namespace GateController

open Data

/-- `_encode_pending_event`. -/
def encodePendingEvent (event : GateEvent) : JsonText := .json (.obj [
  ("source", .str event.source),
  ("reason", .str event.reason),
  ("idempotency_key", .ofOption event.idempotencyKey),
  ("received_at", .str (timestamp event.receivedAt)),
  ("decision_at", .ofOption (optionalTimestamp event.decisionAt)),
  ("authorised_plate", .ofOption event.authorisedPlate),
  ("observed_plate", .ofOption event.observedPlate),
  ("ocr_confidence", .num event.ocrConfidence)])

/-- `_encode_optional_json`. -/
def encodeOptionalJson (payload : Option Fields) : Option JsonText :=
  payload.map fun fields => .json (.obj fields)

/-- `json.loads`.  A `JSONDecodeError` is a `ValueError`. -/
def loads : JsonText → Except Exc Json
  | .json value => .ok value
  | .other _ => .error (.valueError "Expecting value")

/-- `payload[name]`. -/
def item (fields : Fields) (name : String) : Except Exc Json :=
  match fields.get? name with
  | some value => .ok value
  | none => .error (.keyError name)

/-- A string that has to be there. -/
def stringOf : Json → Except Exc String
  | .str s => .ok s
  | _ => .error (.typeError "str expected")

/-- A string or `null`. -/
def optionalStringOf : Json → Except Exc (Option String)
  | .null => .ok none
  | .str s => .ok (some s)
  | _ => .error (.typeError "str or None expected")

/-- `_parse_timestamp` of a JSON value.  A value without `replace` is read as the
earliest datetime. -/
def timestampOf : Json → DateTime
  | .str s => parseTimestamp s
  | _ => datetimeMin

/-- `float(value)` of a JSON value. -/
def floatOf : Json → Except Exc ℚ
  | .num q => .ok q
  | .bool b => .ok (if b then 1 else 0)
  | _ => .error (.typeError "float expected")

/-- `_decode_pending_event`. -/
def decodePendingEvent (encoded : JsonText) : Except Exc GateEvent := do
  match ← loads encoded with
  | .obj payload => do
      let source ← stringOf (← item payload "source")
      let reason ← stringOf (← item payload "reason")
      let idempotencyKey ← optionalStringOf (← item payload "idempotency_key")
      let receivedAt ← item payload "received_at"
      let authorisedPlate ← optionalStringOf ((Fields.get? payload "authorised_plate").getD .null)
      let observedPlate ← optionalStringOf ((Fields.get? payload "observed_plate").getD .null)
      let ocrConfidence ← floatOf ((Fields.get? payload "ocr_confidence").getD (.num 0))
      return {
        source, reason, opened := false, idempotencyKey
        receivedAt := timestampOf receivedAt
        decisionAt :=
          match Fields.get? payload "decision_at" with
          | none => none
          | some .null => none
          | some value => some (timestampOf value)
        authorisedPlate, observedPlate, ocrConfidence }
  | _ => throw (.valueError "pending event is not an object")

/-- `_decode_optional_json`. -/
def decodeOptionalJson : Option JsonText → Except Exc (Option Fields)
  | none => .ok none
  | some encoded => do
      match ← loads encoded with
      | .obj payload => return some payload
      | _ => throw (.valueError "pending payload is not an object")

/-- `_as_utc`: the same instant, in UTC. -/
def asUtc (value : DateTime) : DateTime := ⟨value.utc, some 0⟩

@[simp] theorem timestamp_asUtc (value : DateTime) : timestamp (asUtc value) = timestamp value :=
  rfl

/-- What is read back of an encoded event: all of it but the outcome, which was
not known when it was written, with its times in UTC. -/
theorem decodePendingEvent_encode (event : GateEvent) :
    decodePendingEvent (encodePendingEvent event) = .ok { event with
      opened := false
      relayActivatedAt := none
      receivedAt := asUtc event.receivedAt
      decisionAt := event.decisionAt.map asUtc } := by
  obtain ⟨source, reason, opened, key, receivedAt, decisionAt, relayAt, plate, observed, conf⟩ :=
    event
  cases key <;> cases decisionAt <;> cases plate <;> cases observed <;>
    simp [decodePendingEvent, encodePendingEvent, loads, item, Fields.get?, stringOf,
      optionalStringOf, floatOf, Json.ofOption, optionalTimestamp, timestampOf, asUtc,
      Bind.bind, Except.bind, Pure.pure, Except.pure]

@[simp] theorem decodeOptionalJson_encode (payload : Option Fields) :
    decodeOptionalJson (encodeOptionalJson payload) = .ok payload := by
  cases payload <;> rfl

end GateController

import GateController.Data.Fields
import GateController.Store.Pending

/-!
# Traces and the payloads that carry them

An outbox payload has two forms.  Version 2 describes the event alone, and
version 3 carries the trace of the event under `telemetry` besides.  The store
turns one into the other without reading anything else of the payload:
`untraced` and `traced` write the same two names, so both leave the rest
(`content`) as it is.

The trace is an object as well.  `telemetryPayload` makes it of what the
processor hands over, and each attempt to deliver it changes its `delivery`, its
`cloud_` timestamps and two durations.  Durations are computed here without
rounding errors, and the model does not tell the number `1` from `1.0`.
-/

namespace GateController

open Data

/-! ## The two forms of a payload -/

/-- The payload without its trace, in version 2. -/
def untraced (payload : Fields) : Fields :=
  Fields.set (Fields.erase payload "telemetry") "schema_version" (.num 2)

/-- The payload with a trace, in version 3. -/
def traced (payload telemetry : Fields) : Fields :=
  Fields.set (Fields.set payload "schema_version" (.num 3)) "telemetry" (.obj telemetry)

/-- What a payload says of the event and its evidence. -/
def content (payload : Fields) : Fields :=
  Fields.erase (Fields.erase payload "telemetry") "schema_version"

@[simp] theorem content_untraced (payload : Fields) : content (untraced payload) = content payload := by
  unfold content untraced
  rw [Fields.erase_set_ne (by decide), Fields.erase_set_self, Fields.erase_erase_self]

@[simp] theorem content_traced (payload telemetry : Fields) :
    content (traced payload telemetry) = content payload := by
  unfold content traced
  rw [Fields.erase_set_self, Fields.erase_set_ne (by decide), Fields.erase_set_self]

theorem get?_content {payload : Fields} {name : String} (h₁ : name ≠ "telemetry")
    (h₂ : name ≠ "schema_version") :
    Fields.get? (content payload) name = Fields.get? payload name := by
  unfold content
  rw [Fields.get?_erase_ne h₂, Fields.get?_erase_ne h₁]

/-- Payloads with the same content agree outside the two names. -/
theorem get?_of_content_eq {p q : Fields} {name : String} (h : content p = content q)
    (h₁ : name ≠ "telemetry") (h₂ : name ≠ "schema_version") :
    Fields.get? p name = Fields.get? q name := by
  rw [← get?_content h₁ h₂, h, get?_content h₁ h₂]

/-- `_v2_outbox_payload`. -/
def v2OutboxPayload : Json → Except Exc Fields
  | .obj payload => .ok (untraced payload)
  | _ => .error (.valueError "outbox payload must be an object")

/-- A payload without a trace, as far as its two names say. -/
def IsUntraced (payload : Fields) : Prop :=
  Fields.get? payload "schema_version" = some (.num 2) ∧ Fields.get? payload "telemetry" = none

/-- A payload that carries the trace. -/
def Carries (payload telemetry : Fields) : Prop :=
  Fields.get? payload "schema_version" = some (.num 3) ∧
    Fields.get? payload "telemetry" = some (.obj telemetry)

theorem isUntraced_untraced (payload : Fields) : IsUntraced (untraced payload) := by
  unfold IsUntraced untraced
  rw [Fields.get?_set_self, Fields.get?_set_ne (by decide), Fields.get?_erase_self]
  exact ⟨rfl, rfl⟩

theorem carries_traced (payload telemetry : Fields) : Carries (traced payload telemetry) telemetry := by
  unfold Carries traced
  rw [Fields.get?_set_self, Fields.get?_set_ne (by decide), Fields.get?_set_self]
  exact ⟨rfl, rfl⟩

/-! ## Reading values -/

/-- `dict(value)` of a value that should be an object, and `{}` for none. -/
def dictOf : Option Json → Except Exc Fields
  | none => .ok []
  | some (.obj fields) => .ok fields
  | some _ => .error (.typeError "object is not iterable")

/-- A value that should be a list. -/
def listOf : Json → Except Exc (List Json)
  | .arr items => .ok items
  | _ => .error (.typeError "object is not iterable")

/-- The value of a decimal literal without a sign, with single underscores. -/
def digitsValue : List Char → Nat → Option Nat
  | [], _ => none
  | [c], acc => (charDigit c).map (acc * 10 + ·)
  | c :: '_' :: rest, acc => (charDigit c).bind fun d => digitsValue rest (acc * 10 + d)
  | c :: rest, acc => (charDigit c).bind fun d => digitsValue rest (acc * 10 + d)

/-- `int(text)`, for texts in ASCII. -/
def intOfText (text : String) : Option Int :=
  match text.trimAscii.toString.toList with
  | '-' :: digits => (digitsValue digits 0).map fun n => -(n : Int)
  | '+' :: digits => (digitsValue digits 0).map Int.ofNat
  | digits => (digitsValue digits 0).map Int.ofNat

/-- `int(value)`. -/
def intOf : Json → Option Int
  | .num q => some (Int.tdiv q.num q.den)
  | .bool b => some (if b then 1 else 0)
  | .str text => intOfText text
  | _ => none

/-! ## Equality of objects -/

/-- `==` of two values.  Objects are compared by name, and a truth value is the
number `0` or `1`. -/
def Json.same : Json → Json → Bool
  | .null, .null => true
  | .str s, .str t => s == t
  | .bool b, .bool c => b == c
  | .bool b, .num q => (if b then 1 else 0) == q
  | .num q, .bool b => (if b then 1 else 0) == q
  | .num q, .num r => q == r
  | .arr items, .arr others => sameItems items others
  | .obj fields, .obj others => fields.length == others.length && sameFields fields others
  | _, _ => false
where
  sameItems : List Json → List Json → Bool
    | [], [] => true
    | a :: as, b :: bs => Json.same a b && sameItems as bs
    | _, _ => false
  sameFields : List (String × Json) → Fields → Bool
    | [], _ => true
    | (name, value) :: rest, others =>
        (match Fields.get? others name with
          | some other => Json.same value other
          | none => false) && sameFields rest others

/-- `==` of two objects. -/
def sameObject (left right : Fields) : Bool := Json.same (.obj left) (.obj right)

/-- `_same_trace`: the same but for what the delivery changes. -/
def sameTrace (left right : Fields) : Except Exc Bool := do
  return sameObject (← immutable left) (← immutable right)
where
  immutable (trace : Fields) : Except Exc Fields := do
    let durations ← dictOf (Fields.get? trace "stage_durations")
    let stamps ← dictOf (Fields.get? trace "stage_timestamps")
    let rest := Fields.set (Fields.erase trace "delivery") "stage_durations"
      (.obj (Fields.erase (Fields.erase durations "delivery_lag_ms") "cloud_send_to_ack_ms"))
    let kept := stamps.filter fun f => !("cloud_".toList.isPrefixOf f.1.toList)
    return if kept.isEmpty then Fields.erase rest "stage_timestamps"
      else Fields.set rest "stage_timestamps" (.obj kept)

/-! ## Making a trace -/

/-- `_TELEMETRY_FRAME_KEYS`. -/
def telemetryFrameKeys : List String :=
  ["sequence", "digest", "width", "height", "sharpness", "brightness", "darkness",
    "highlight_clipping", "status"]

/-- `_TELEMETRY_OCR_KEYS`. -/
def telemetryOcrKeys : List String :=
  ["frame_sequence", "duration_ms", "status", "plate", "confidence", "make", "colour"]

/-- `{key: item[key] for key in keys if key in item}`. -/
def pickKeys (keys : List String) : Json → Except Exc Json
  | .obj fields =>
      .ok (.obj (keys.filterMap fun key => (Fields.get? fields key).map fun value => (key, value)))
  | _ => .error (.typeError "argument is not iterable")

/-- An entry that has to be an object. -/
def objectItem (raw : Fields) (name : String) : Except Exc Json := do
  return .obj (← dictOf (some (← item raw name)))

/-- `_telemetry_payload` of what `to_wire` returns. -/
def telemetryPayload (raw : Fields) : Except Exc Fields := do
  match Fields.get? raw "schema_version" with
  | some (.num q) =>
      if q ≠ 3 then throw (.valueError "telemetry must use schema version 3")
  | _ => throw (.valueError "telemetry must use schema version 3")
  let payload : Fields := [
    ("trace_id", ← item raw "trace_id"),
    ("taxonomy_version", ← item raw "taxonomy_version"),
    ("stage_durations", ← objectItem raw "stage_durations"),
    ("frames", .arr (← (← listOf (← item raw "frames")).mapM (pickKeys telemetryFrameKeys))),
    ("ocr_attempts",
      .arr (← (← listOf (← item raw "ocr_attempts")).mapM (pickKeys telemetryOcrKeys))),
    ("decision", ← objectItem raw "decision"),
    ("actuation", ← objectItem raw "actuation"),
    ("delivery", ← objectItem raw "delivery")]
  let payload ←
    if (Fields.get? raw "stage_timestamps").isSome then
      pure (Fields.set payload "stage_timestamps" (← objectItem raw "stage_timestamps"))
    else pure payload
  if (Fields.get? raw "trigger").isSome then
    return Fields.set payload "trigger" (← objectItem raw "trigger")
  else return payload

/-- `setdefault`. -/
def setDefault (fields : Fields) (name : String) (value : Json) : Fields :=
  if (Fields.get? fields name).isSome then fields else Fields.set fields name value

/-- `_enrich_outbox_delivery`, with the time of the outbox row of the event. -/
def enrichOutboxDelivery (createdAt : Option String) (telemetry : Fields) : Except Exc Fields :=
  match createdAt with
  | none => .ok telemetry
  | some text => do
      let stamps ← dictOf (Fields.get? telemetry "stage_timestamps")
      return Fields.set telemetry "stage_timestamps"
        (.obj (setDefault stamps "cloud_enqueued_at" (.str text)))

/-! ## Reading a stored trace -/

/-- Whether a value is of the type that the contract names. -/
def hasType (fields : Fields) (name : String) (type : Json → Bool) : Bool :=
  (Fields.get? fields name).any type

/-- `isinstance(value, int)`. -/
def isInt : Json → Bool
  | .num q => q.den == 1
  | .bool _ => true
  | _ => false

/-- `isinstance(value, str)`. -/
def isStr : Json → Bool
  | .str _ => true
  | _ => false

/-- `isinstance(value, list)`. -/
def isList : Json → Bool
  | .arr _ => true
  | _ => false

/-- `isinstance(value, dict)`. -/
def isDict : Json → Bool
  | .obj _ => true
  | _ => false

/-- The timestamps that a stored trace may have. -/
def stampsValid : Option Json → Bool
  | none => true
  | some .null => true
  | some (.obj stamps) => stamps.all fun f => isStr f.2
  | some _ => false

/-- `_decode_telemetry_payload`.  `_MalformedTelemetry` is a `ValueError`. -/
def decodeTelemetryPayload (encoded : JsonText) : Except Exc Fields :=
  match encoded with
  | .other _ => .error (.valueError "telemetry is not valid JSON")
  | .json (.obj telemetry) =>
      if !(hasType telemetry "trace_id" isStr && hasType telemetry "taxonomy_version" isInt &&
          hasType telemetry "stage_durations" isDict && hasType telemetry "frames" isList &&
          hasType telemetry "ocr_attempts" isList && hasType telemetry "decision" isDict &&
          hasType telemetry "actuation" isDict && hasType telemetry "delivery" isDict) then
        .error (.valueError "telemetry has an invalid bounded contract")
      else if !stampsValid (Fields.get? telemetry "stage_timestamps") then
        .error (.valueError "telemetry stage timestamps are invalid")
      else .ok telemetry
  | .json _ => .error (.valueError "telemetry is not an object")

/-- `MAX_DELIVERY_ATTEMPT`. -/
def maxDeliveryAttempt : Int := 1000

/-- `MAX_DURATION_MS`. -/
def maxDurationMs : Int := 600000

/-- `_telemetry_attempt`. -/
def telemetryAttempt (telemetry : Fields) : Except Exc Int := do
  let delivery ← dictOf (Fields.get? telemetry "delivery")
  match intOf ((Fields.get? delivery "outbox_attempt").getD (.num 0)) with
  | some attempt => return min (max attempt 0) maxDeliveryAttempt
  | none => throw (.valueError "telemetry delivery attempt is invalid")

/-! ## What an attempt writes into a trace -/

/-- The `delivery` of a trace. -/
def deliveryOf (attempt : Int) (state : String) : Json :=
  .obj [("outbox_attempt", .num attempt), ("state", .str state)]

/-- `telemetry["stage_durations"][name] = value`. -/
def setDuration (telemetry : Fields) (name : String) (value : Int) : Except Exc Fields := do
  let durations ← dictOf (some (← item telemetry "stage_durations"))
  return Fields.set telemetry "stage_durations" (.obj (Fields.set durations name (.num value)))

/-- The trace of an attempt that begins. -/
def sendingTelemetry (stored : JsonText) (createdAt : String) (attemptedAt : DateTime) :
    Except Exc Fields := do
  let telemetry ← decodeTelemetryPayload stored
  let attempt := min ((← telemetryAttempt telemetry) + 1) maxDeliveryAttempt
  let telemetry := Fields.set telemetry "delivery" (deliveryOf attempt "sending")
  let queuedAt := parseTimestamp createdAt
  let stamps ← dictOf (Fields.get? telemetry "stage_timestamps")
  let stamps := setDefault stamps "cloud_enqueued_at" (.str (timestamp queuedAt))
  let stamps := Fields.set stamps "cloud_send_started_at" (.str (timestamp attemptedAt))
  let telemetry := Fields.set telemetry "stage_timestamps"
    (.obj (Fields.erase stamps "cloud_acknowledged_at"))
  let lag := max 0 (Int.tdiv ((attemptedAt.utc.val : Int) - queuedAt.utc.val) 1000)
  setDuration telemetry "delivery_lag_ms" (min lag maxDurationMs)

/-- `round(n / d)`: to the nearest, and to the even one of two. -/
def roundDiv (n d : Nat) : Nat :=
  let q := n / d
  if 2 * (n % d) < d ∨ (2 * (n % d) = d ∧ q % 2 = 0) then q else q + 1

/-- `_bounded_interval_ms`. -/
def boundedIntervalMs (start : Option Json) (finish : String) : Option Int :=
  match start with
  | some (.str text) =>
      match fromisoformat (replaceZ text), fromisoformat (replaceZ finish) with
      | some from_, some to_ =>
          if from_.offset.isNone || to_.offset.isNone then none
          else if to_.utc.val < from_.utc.val then none
          else some (min (roundDiv (to_.utc.val - from_.utc.val) 1000) maxDurationMs)
      | _, _ => none
  | _ => none

/-- The trace of an attempt that came to an end.  The time is there if it was
acknowledged. -/
def settledTelemetry (stored : JsonText) (state : String) (completedAt : Option DateTime) :
    Except Exc Fields := do
  let telemetry ← decodeTelemetryPayload stored
  let telemetry := Fields.set telemetry "delivery"
    (deliveryOf (← telemetryAttempt telemetry) state)
  match completedAt with
  | none => return telemetry
  | some completedAt =>
      if state ≠ "delivered" then return telemetry
      else do
        let stamps ← dictOf (Fields.get? telemetry "stage_timestamps")
        let stamps := Fields.set stamps "cloud_acknowledged_at" (.str (timestamp completedAt))
        let telemetry := Fields.set telemetry "stage_timestamps" (.obj stamps)
        match boundedIntervalMs (Fields.get? stamps "cloud_send_started_at")
            (timestamp completedAt) with
        | none => return telemetry
        | some ms => setDuration telemetry "cloud_send_to_ack_ms" ms

end GateController

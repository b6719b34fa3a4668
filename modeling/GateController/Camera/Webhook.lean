import GateController.Camera.Correlator
import GateController.Data.Json
import GateController.Data.Text
import GateController.Data.Wall

/-!
# The webhook of the cameras

`ReolinkWebhookEndpoint.handle`: the path, the method, the content type, the
length and the JSON of a request are checked, then the secret, then the fields of
the alarm, and an event goes to the correlator.

`Python` are the functions of the interpreter whose results depend on its version
or on bytes.  Nothing is assumed of them beyond what their types say: `int` and
`fromisoformat` raise nothing but `ValueError` on a text, and `json.loads` of at
most 4096 bytes nothing but what `Loaded` lists.
-/

namespace GateController

open Data Text

namespace ReolinkWebhookEndpoint

/-- What `json.loads(body.decode("utf-8"))` comes to. -/
inductive Loaded where
  | value (payload : Json)
  | unicodeDecodeError
  | jsonDecodeError
  | recursionError

/-- Functions of the interpreter. -/
structure Python where
  /-- `int(text)`, without a value where it raises `ValueError`. -/
  int : String → Option Int
  /-- `json.loads(body.decode("utf-8"))`. -/
  loads : List UInt8 → Loaded
  /-- `datetime.fromisoformat`, without a value where it raises `ValueError`. -/
  fromisoformat : String → Option Wall
  /-- The SHA-256 of the JSON text of an identity. -/
  digest : Fields → String

/-- A request.  `readBody` raises an `Exception` or returns bytes or something else. -/
structure Request where
  method : String
  path : String
  headers : List (String × String)
  readBody : Int → Except Unit (Option (List UInt8))
  receivedAt : Option Wall := none

/-- `WebhookResponse`. -/
structure WebhookResponse where
  status : Nat
deriving DecidableEq

/-! ## The request -/

/-- `REOLINK_WEBHOOK_PATH`. -/
def webhookPath : String := "/reolink/events"

/-- `MAX_REOLINK_WEBHOOK_BODY_BYTES`. -/
def maxBodyBytes : Int := 4096

/-- `_header`. -/
def header (headers : List (String × String)) (name : String) : Option String :=
  (headers.find? fun h => lower h.1 == lower name).map Prod.snd

/-- Whether the content type of the headers is JSON. -/
def isJson (headers : List (String × String)) : Bool :=
  lower (strip (before ';' ((header headers "Content-Type").getD ""))) == "application/json"

/-- The content length that the headers state. -/
def contentLength (py : Python) (headers : List (String × String)) : Option Int :=
  match header headers "Content-Length" with
  | none => some 0
  | some text => py.int text

/-- The JSON of a request, or the answer to one that is not acceptable. -/
def payloadOf (py : Python) (r : Request) : Except WebhookResponse Json :=
  if r.path ≠ webhookPath then .error ⟨404⟩
  else if r.method ≠ "POST" then .error ⟨405⟩
  else if !isJson r.headers then .error ⟨415⟩
  else
    match contentLength py r.headers with
    | none => .error ⟨400⟩
    | some length =>
        if length ≤ 0 then .error ⟨411⟩
        else if maxBodyBytes < length then .error ⟨413⟩
        else
          match r.readBody length with
          | .error _ => .error ⟨400⟩
          | .ok none => .error ⟨400⟩
          | .ok (some body) =>
              if (body.length : Int) ≠ length then .error ⟨400⟩
              else
                match py.loads body with
                | .value payload => .ok payload
                | _ => .error ⟨400⟩

/-! ## The event -/

/-- How `_sanitize_event` ends without an event. -/
inductive Refusal where
  | unauthorized
  | invalid
  | raised (x : Exc)

/-- `hmac.compare_digest` of texts, which takes ASCII only. -/
def compareDigest (a b : String) : Except Exc Bool :=
  if isAscii a && isAscii b then .ok (a == b)
  else .error (.typeError "comparing strings with non-ASCII characters is not supported")

/-- `_utc` of a time, in UTC. -/
def utc (w : Wall) : Except Exc Instant :=
  match w.instant with
  | some t => .ok t
  | none => .error (.overflowError "date value out of range")

/-- A text of bounded length without control characters. -/
def boundedText (text : String) : Bool :=
  decide (text.length ≤ 128) && text.toList.all fun c => decide (32 ≤ c.toNat)

/-- `_bounded_string`. -/
def boundedString (value : Option Json) (required : Bool) : Except Refusal (Option String) :=
  match value, required with
  | none, false => .ok none
  | some .null, false => .ok none
  | some (.str text), required =>
      if (required && text == "") || !boundedText text then .error .invalid
      else .ok (if text = "" then none else some text)
  | _, _ => .error .invalid

/-- The fields of an alarm that are used. -/
structure Alarm where
  alarmType : Option String
  outerType : Option String
  name : Option String
  message : Option String
  channel : Option String
  alarmTime : Option String
  fallbackTime : Option String

/-- The checked fields of an alarm. -/
def readAlarm (payload alarm : Fields) : Except Refusal Alarm := do
  let alarmType ← boundedString (Fields.get? alarm "type") true
  let outerType ← boundedString (Fields.get? payload "type") false
  let name ← boundedString (Fields.get? alarm "name") false
  let message ← boundedString (Fields.get? alarm "message") false
  let channel ← boundedString (Fields.get? alarm "channel") false
  let alarmTime ← boundedString (Fields.get? alarm "alarmTime") false
  let fallbackTime ← boundedString (Fields.get? alarm "time") false
  return { alarmType, outerType, name, message, channel, alarmTime, fallbackTime }

/-- `_parse_event_time`. -/
def parseEventTime (py : Python) : Option String → Except Exc (Option Instant)
  | none => .ok none
  | some text =>
      match py.fromisoformat (replaceZ text) with
      | none => .ok none
      | some w =>
          if w.offset.isNone then .ok none
          else do
            let t ← utc w
            return some t

/-- The time of the alarm: the first field that gives one. -/
def eventTime (py : Python) (alarm : Alarm) : Except Exc (Option Instant) := do
  match ← parseEventTime py alarm.alarmTime with
  | some t => return some t
  | none => parseEventTime py alarm.fallbackTime

/-- `_event_type`. -/
def eventType (outerType : Option String) (others : List (Option String)) : String :=
  let values := (outerType :: others).filterMap id
  let normalized := underscored false (" ".intercalate (values.map lower)).toList
  let outer := stripBy (· == '_') (underscored false (lower (outerType.getD "")).toList)
  if outer ∈ ["test".toList, "manual".toList, "manual_test".toList] then "manual_test"
  else if isIn "line_cross" normalized then "line_crossing"
  else if isIn "vehicle" normalized || isIn "car" normalized then "vehicle"
  else "other"

/-- `_rule_id`. -/
def ruleId : Option String → Option String
  | none => none
  | some value =>
      let normalized := (stripBy (· == '_') (underscored false (lower value).toList)).take 64
      if normalized = [] then none else some (String.ofList normalized)

/-- A text or `null`. -/
def textOrNull : Option String → Json
  | some text => .str text
  | none => .null

/-- The event of an alarm. -/
def eventOf (py : Python) (alarm : Alarm) (eventAt : Option Instant) (receivedAt : Instant) :
    SanitizedCameraEvent :=
  let kind := eventType alarm.outerType [alarm.alarmType, alarm.name, alarm.message]
  let rule := (ruleId alarm.name <|> ruleId alarm.alarmType).getD ("reolink_" ++ kind)
  let time := alarm.alarmTime <|> alarm.fallbackTime
  { eventId := py.digest [
      ("alarm_time", textOrNull time),
      ("channel", textOrNull alarm.channel),
      ("event_type", .str kind),
      ("outer_type", textOrNull alarm.outerType),
      ("received_at", if time.isSome then .null else .str receivedAt.isoformat),
      ("rule_id", .str rule)]
    eventType := kind
    ruleId := some rule
    receivedAt := ⟨receivedAt, some 0⟩
    eventAt := eventAt.map fun t => ⟨t, some 0⟩ }

/-- Raise what a step raises. -/
def raising {α : Type} (m : Except Exc α) : Except Refusal α :=
  match m with
  | .ok a => .ok a
  | .error x => .error (.raised x)

/-- Check the secret of a request. -/
def authorize (secret : String) (fields : Fields) : Except Refusal Unit :=
  match Fields.get? fields "secret" with
  | some (.str supplied) => do
      if ← raising (compareDigest supplied secret) then return ()
      else .error .unauthorized
  | _ => .error .unauthorized

/-- `_sanitize_event`. -/
def sanitizeEvent (py : Python) (payload : Json) (secret : String) (receivedAt : Instant) :
    Except Refusal SanitizedCameraEvent :=
  match payload with
  | .obj fields => do
      authorize secret fields
      match Fields.get? fields "alarm" with
      | some (.obj alarm) => do
          let alarm ← readAlarm fields alarm
          let eventAt ← raising (eventTime py alarm)
          return eventOf py alarm eventAt receivedAt
      | _ => .error .invalid
  | _ => .error .invalid

/-- The answer to a recording. -/
def answerTo : ReolinkEventCorrelator.Recording → WebhookResponse
  | .accepted => ⟨202⟩
  | .duplicate => ⟨200⟩
  | .stale => ⟨422⟩

/-- `handle`.  `clock` is the time at which the request is handled. -/
def handle (py : Python) (limits : ReolinkEventCorrelator.Limits) (secret : String)
    (clock : Instant) (r : Request) (s : ReolinkEventCorrelator.State) :
    Except Exc WebhookResponse × ReolinkEventCorrelator.State :=
  match payloadOf py r with
  | .error response => (.ok response, s)
  | .ok payload =>
      match utc (r.receivedAt.getD ⟨clock, some 0⟩) with
      | .error x => (.error x, s)
      | .ok receivedAt =>
          match sanitizeEvent py payload secret receivedAt with
          | .error .unauthorized => (.ok ⟨401⟩, s)
          | .error .invalid => (.ok ⟨400⟩, s)
          | .error (.raised x) => (.error x, s)
          | .ok event =>
              let recorded := ReolinkEventCorrelator.record limits event ⟨receivedAt, some 0⟩ s
              (.ok (answerTo recorded.1), recorded.2)

/-! ## What is acceptable -/

/-- The path, the method, the content type, the length and the JSON are acceptable. -/
structure Acceptable (py : Python) (r : Request) (payload : Json) : Prop where
  path : r.path = webhookPath
  method : r.method = "POST"
  json : isJson r.headers = true
  body : ∃ body, contentLength py r.headers = some (body.length : Int) ∧ body ≠ [] ∧
    body.length ≤ 4096 ∧ r.readBody body.length = .ok (some body) ∧
    py.loads body = .value payload

theorem payloadOf_eq_ok_iff {py : Python} {r : Request} {payload : Json} :
    payloadOf py r = .ok payload ↔ Acceptable py r payload := by
  constructor
  · intro h
    unfold payloadOf at h
    split at h
    · cases h
    next hpath =>
      split at h
      · cases h
      next hmethod =>
        split at h
        · cases h
        next hjson =>
          split at h
          · cases h
          next length hlength =>
            split at h
            · cases h
            next hpos =>
              split at h
              · cases h
              next hmax =>
                split at h
                · cases h
                · cases h
                next body hbody =>
                  split at h
                  · cases h
                  next hlen =>
                    split at h
                    next value hload =>
                      cases h
                      have hlen' : length = (body.length : Int) := (not_not.1 hlen).symm
                      subst hlen'
                      unfold maxBodyBytes at hmax
                      refine ⟨not_not.1 hpath, not_not.1 hmethod, by simpa using hjson,
                        body, hlength, ?_, by omega, hbody, hload⟩
                      rintro rfl
                      exact hpos (by simp)
                    · cases h
  · rintro ⟨hpath, hmethod, hjson, body, hlength, hne, hmax, hbody, hload⟩
    have hmax' : ¬ maxBodyBytes < (body.length : Int) := by
      unfold maxBodyBytes
      omega
    simp [payloadOf, hpath, hmethod, hjson, hlength, hbody, hload, hne, hmax']

/-- A time that is read from the text, if one is and it has a zone, is within the
calendar. -/
def Denotes (py : Python) (text : Option String) : Prop :=
  ∀ value w, text = some value → py.fromisoformat (replaceZ value) = some w →
    w.offset.isSome → w.instant.isSome

/-- The text gives no time. -/
def GivesNoTime (py : Python) (text : Option String) : Prop :=
  ∀ value w, text = some value → py.fromisoformat (replaceZ value) = some w → w.offset = none

/-- What an acceptable request must have to be answered. -/
structure Answerable (py : Python) (secret : String) (clock : Instant) (r : Request)
    (payload : Json) : Prop where
  /-- The time of arrival is within the calendar. -/
  received : (r.receivedAt.getD ⟨clock, some 0⟩).instant.isSome
  /-- The supplied secret and the configured one are ASCII. -/
  ascii : ∀ fields supplied, payload = .obj fields →
    Fields.get? fields "secret" = some (.str supplied) → isAscii supplied = true ∧ isAscii secret = true
  /-- The time of the alarm, where it is read, is within the calendar. -/
  dated : ∀ fields alarmFields alarm, payload = .obj fields →
    Fields.get? fields "secret" = some (.str secret) →
    Fields.get? fields "alarm" = some (.obj alarmFields) →
    readAlarm fields alarmFields = .ok alarm →
      Denotes py alarm.alarmTime ∧ (GivesNoTime py alarm.alarmTime → Denotes py alarm.fallbackTime)

/-! ## What raises -/

variable {py : Python} {secret : String} {clock : Instant} {r : Request}

theorem utc_ok_iff {w : Wall} : (∃ t, utc w = .ok t) ↔ w.instant.isSome := by
  unfold utc
  cases w.instant <;> simp

theorem parseEventTime_ok_iff {text : Option String} :
    (∃ t, parseEventTime py text = .ok t) ↔ Denotes py text := by
  cases text with
  | none => exact ⟨fun _ => nofun, fun _ => ⟨none, rfl⟩⟩
  | some value =>
      cases hread : py.fromisoformat (replaceZ value) with
      | none =>
          refine ⟨fun _ value' w heq hw => ?_, fun _ => ⟨none, by simp [parseEventTime, hread]⟩⟩
          cases heq
          rw [hread] at hw
          cases hw
      | some w =>
          have hdenotes : Denotes py (some value) ↔ (w.offset.isSome → w.instant.isSome) := by
            refine ⟨fun h => h value w rfl hread, fun h value' w' heq hw => ?_⟩
            cases heq
            cases hread.symm.trans hw
            exact h
          rw [hdenotes]
          cases hoffset : w.offset with
          | none => exact ⟨fun _ h => absurd h (by simp), fun _ => ⟨none, by
              simp [parseEventTime, hread, hoffset]⟩⟩
          | some offset =>
              cases hinstant : w.instant with
              | none => simp [parseEventTime, hread, hoffset, utc, hinstant]
              | some t =>
                  exact ⟨fun _ _ => rfl, fun _ => ⟨some t, by
                    simp [parseEventTime, hread, hoffset, utc, hinstant]⟩⟩

theorem parseEventTime_none_iff {text : Option String} :
    parseEventTime py text = .ok none ↔ GivesNoTime py text := by
  cases text with
  | none => exact ⟨fun _ => nofun, fun _ => rfl⟩
  | some value =>
      cases hread : py.fromisoformat (replaceZ value) with
      | none =>
          refine ⟨fun _ value' w heq hw => ?_, fun _ => by simp [parseEventTime, hread]⟩
          cases heq
          rw [hread] at hw
          cases hw
      | some w =>
          have hgives : GivesNoTime py (some value) ↔ w.offset = none := by
            refine ⟨fun h => h value w rfl hread, fun h value' w' heq hw => ?_⟩
            cases heq
            cases hread.symm.trans hw
            exact h
          rw [hgives]
          cases hoffset : w.offset with
          | none => simp [parseEventTime, hread, hoffset]
          | some offset => cases hinstant : w.instant <;>
              simp [parseEventTime, hread, hoffset, utc, hinstant]

/-- The second field is read only where the first one gives no time. -/
theorem eventTime_ok_iff {alarm : Alarm} : (∃ t, eventTime py alarm = .ok t) ↔
    Denotes py alarm.alarmTime ∧ (GivesNoTime py alarm.alarmTime → Denotes py alarm.fallbackTime) := by
  rw [← parseEventTime_ok_iff, ← parseEventTime_ok_iff, ← parseEventTime_none_iff]
  cases hfirst : parseEventTime py alarm.alarmTime with
  | error x => simp [eventTime, hfirst, bind, Except.bind]
  | ok first => cases first <;> simp [eventTime, hfirst, bind, Except.bind, pure, Except.pure]

theorem boundedString_ne_raised {value : Option Json} {required : Bool} {x : Exc} :
    boundedString value required ≠ .error (.raised x) := by
  unfold boundedString
  split
  · nofun
  · nofun
  · split <;> nofun
  · nofun

/-- A sequence raises where its first part does, or the rest. -/
theorem bind_ne_raised {α β : Type} {m : Except Refusal α} {f : α → Except Refusal β} {x : Exc}
    (hm : m ≠ .error (.raised x)) (hf : ∀ a, f a ≠ .error (.raised x)) :
    m >>= f ≠ .error (.raised x) := by
  cases m with
  | ok a => exact hf a
  | error y => exact fun h => hm (by cases h; rfl)

theorem readAlarm_ne_raised {payload alarm : Fields} {x : Exc} :
    readAlarm payload alarm ≠ .error (.raised x) := by
  unfold readAlarm
  iterate 7
    refine bind_ne_raised boundedString_ne_raised fun _ => ?_
  nofun

/-- The comparison of the secrets raises only on a text that is not ASCII. -/
theorem authorize_cases (secret : String) (fields : Fields) :
    (∃ supplied, Fields.get? fields "secret" = some (.str supplied) ∧
      ¬ (isAscii supplied = true ∧ isAscii secret = true) ∧
      ∃ x, authorize secret fields = .error (.raised x)) ∨
    ((∀ supplied, Fields.get? fields "secret" = some (.str supplied) →
        isAscii supplied = true ∧ isAscii secret = true) ∧
      ((Fields.get? fields "secret" = some (.str secret) ∧ authorize secret fields = .ok ()) ∨
        (Fields.get? fields "secret" ≠ some (.str secret) ∧
          authorize secret fields = .error .unauthorized))) := by
  cases hget : Fields.get? fields "secret" with
  | none => exact .inr ⟨nofun, .inr ⟨nofun, by simp [authorize, hget]⟩⟩
  | some value =>
      cases value with
      | str supplied =>
          cases hascii : isAscii supplied && isAscii secret with
          | false =>
              refine .inl ⟨supplied, rfl, fun h => ?_, _, by
                simp [authorize, hget, compareDigest, hascii, raising]; rfl⟩
              rw [h.1, h.2] at hascii
              cases hascii
          | true =>
              obtain ⟨h₁, h₂⟩ := Bool.and_eq_true_iff.1 hascii
              refine .inr ⟨fun _ heq => by cases heq; exact ⟨h₁, h₂⟩, ?_⟩
              rcases Decidable.em (supplied = secret) with rfl | hne
              · exact .inl ⟨rfl, by simp [authorize, hget, compareDigest, h₁, raising, bind, Except.bind, pure, Except.pure]⟩
              · refine .inr ⟨fun heq => hne (by cases heq; rfl), ?_⟩
                simp [authorize, hget, compareDigest, h₁, h₂, raising, hne, bind, Except.bind]
      | _ => exact .inr ⟨nofun, .inr ⟨nofun, by simp [authorize, hget]⟩⟩

/-- `_sanitize_event` raises only on a text that is not ASCII, or on a time outside the
calendar. -/
theorem sanitizeEvent_raises_iff {payload : Json} {receivedAt : Instant} :
    (∀ x, sanitizeEvent py payload secret receivedAt ≠ .error (.raised x)) ↔
      (∀ fields supplied, payload = .obj fields →
        Fields.get? fields "secret" = some (.str supplied) →
          isAscii supplied = true ∧ isAscii secret = true) ∧
      ∀ fields alarmFields alarm, payload = .obj fields →
        Fields.get? fields "secret" = some (.str secret) →
        Fields.get? fields "alarm" = some (.obj alarmFields) →
        readAlarm fields alarmFields = .ok alarm →
          Denotes py alarm.alarmTime ∧
            (GivesNoTime py alarm.alarmTime → Denotes py alarm.fallbackTime) := by
  cases payload with
  | obj fields =>
      rcases authorize_cases secret fields with ⟨supplied, hget, hascii, x, hauth⟩ |
        ⟨hascii, ⟨hget, hauth⟩ | ⟨hget, hauth⟩⟩
      · refine ⟨fun h => absurd ?_ (h x), fun h => absurd (h.1 fields supplied rfl hget) hascii⟩
        simp [sanitizeEvent, hauth, bind, Except.bind]
      · have hfirst : ∀ fields' supplied, Json.obj fields = .obj fields' →
            Fields.get? fields' "secret" = some (.str supplied) →
              isAscii supplied = true ∧ isAscii secret = true := by
          rintro _ supplied ⟨⟩ hsupplied
          exact hascii supplied hsupplied
        rw [and_iff_right hfirst]
        cases halarm : Fields.get? fields "alarm" with
        | none =>
            refine ⟨fun _ fields' alarmFields alarm heq _ hget' _ => ?_, fun _ x => ?_⟩
            · cases heq
              rw [halarm] at hget'
              cases hget'
            · simp [sanitizeEvent, hauth, halarm, bind, Except.bind]
        | some value =>
            cases value with
            | obj alarmFields =>
                cases hread : readAlarm fields alarmFields with
                | error refusal =>
                    refine ⟨fun _ fields' alarmFields' alarm heq _ hget' hread' => ?_, fun _ x => ?_⟩
                    · cases heq
                      cases halarm.symm.trans hget'
                      rw [hread] at hread'
                      cases hread'
                    · have hne := @readAlarm_ne_raised fields alarmFields x
                      rw [hread] at hne
                      simpa [sanitizeEvent, hauth, halarm, hread, bind, Except.bind] using hne
                | ok alarm =>
                    have hdated : (∀ fields' alarmFields' alarm', Json.obj fields = .obj fields' →
                        Fields.get? fields' "secret" = some (.str secret) →
                        Fields.get? fields' "alarm" = some (.obj alarmFields') →
                        readAlarm fields' alarmFields' = .ok alarm' →
                          Denotes py alarm'.alarmTime ∧
                            (GivesNoTime py alarm'.alarmTime → Denotes py alarm'.fallbackTime)) ↔
                        ∃ t, eventTime py alarm = .ok t := by
                      rw [eventTime_ok_iff]
                      refine ⟨fun h => h fields alarmFields alarm rfl hget halarm hread, ?_⟩
                      rintro h _ alarmFields' alarm' ⟨⟩ - halarm' hread'
                      cases halarm.symm.trans halarm'
                      cases hread.symm.trans hread'
                      exact h
                    rw [hdated]
                    cases htime : eventTime py alarm with
                    | ok t => exact ⟨fun _ => ⟨t, rfl⟩, fun _ x => by
                        simp [sanitizeEvent, hauth, halarm, hread, htime, raising, bind, Except.bind,
                          pure, Except.pure]⟩
                    | error x =>
                        refine ⟨fun h => absurd ?_ (h x), nofun⟩
                        simp [sanitizeEvent, hauth, halarm, hread, htime, raising, bind, Except.bind]
            | _ =>
                refine ⟨fun _ fields' alarmFields alarm heq _ hget' _ => ?_, fun _ x => ?_⟩
                · cases heq
                  rw [halarm] at hget'
                  cases hget'
                · simp [sanitizeEvent, hauth, halarm, bind, Except.bind]
      · refine ⟨fun _ => ⟨?_, ?_⟩, fun _ x => ?_⟩
        · rintro _ supplied ⟨⟩ hsupplied
          exact hascii supplied hsupplied
        · rintro _ alarmFields alarm ⟨⟩ hsecret
          exact absurd hsecret hget
        · simp [sanitizeEvent, hauth, bind, Except.bind]
  | _ => exact ⟨fun _ => ⟨nofun, nofun⟩, fun _ x => nofun⟩

/-! ## Answers -/

section Answers

variable (limits : ReolinkEventCorrelator.Limits) (s : ReolinkEventCorrelator.State)

/-- An event comes of a request only with the configured secret. -/
theorem sanitizeEvent_ok {payload : Json} {receivedAt : Instant} {event : SanitizedCameraEvent}
    (h : sanitizeEvent py payload secret receivedAt = .ok event) :
    ∃ fields, payload = .obj fields ∧ Fields.get? fields "secret" = some (.str secret) := by
  cases payload with
  | obj fields =>
      rcases authorize_cases secret fields with ⟨-, -, -, x, hauth⟩ | ⟨-, ⟨hget, -⟩ | ⟨-, hauth⟩⟩
      · simp [sanitizeEvent, hauth, bind, Except.bind] at h
      · exact ⟨fields, rfl, hget⟩
      · simp [sanitizeEvent, hauth, bind, Except.bind] at h
  | _ => cases h

/-- The correlator changes only in a request that is acceptable and has the secret. -/
theorem handle_changes (h : (handle py limits secret clock r s).2 ≠ s) :
    ∃ fields, Acceptable py r (.obj fields) ∧
      Fields.get? fields "secret" = some (.str secret) := by
  cases hpayload : payloadOf py r with
  | error response => exact absurd (by simp [handle, hpayload]) h
  | ok payload =>
      cases hutc : utc (r.receivedAt.getD ⟨clock, some 0⟩) with
      | error x => exact absurd (by simp [handle, hpayload, hutc]) h
      | ok receivedAt =>
          cases hevent : sanitizeEvent py payload secret receivedAt with
          | error refusal => exact absurd (by cases refusal <;> simp [handle, hpayload, hutc, hevent]) h
          | ok event =>
              obtain ⟨fields, rfl, hsecret⟩ := sanitizeEvent_ok hevent
              exact ⟨fields, payloadOf_eq_ok_iff.1 hpayload, hsecret⟩

/-- A request is answered if it is not acceptable, or if nothing in it raises. -/
theorem handle_ok_iff : (∃ response, (handle py limits secret clock r s).1 = .ok response) ↔
    ∀ payload, Acceptable py r payload → Answerable py secret clock r payload := by
  cases hpayload : payloadOf py r with
  | error response =>
      refine ⟨fun _ payload h => ?_, fun _ => ⟨response, by simp [handle, hpayload]⟩⟩
      rw [payloadOf_eq_ok_iff.2 h] at hpayload
      cases hpayload
  | ok payload =>
      have hacceptable := payloadOf_eq_ok_iff.1 hpayload
      have hall : (∀ payload, Acceptable py r payload → Answerable py secret clock r payload) ↔
          Answerable py secret clock r payload := by
        refine ⟨fun h => h payload hacceptable, fun h payload' h' => ?_⟩
        cases hpayload.symm.trans (payloadOf_eq_ok_iff.2 h')
        exact h
      rw [hall]
      cases hutc : utc (r.receivedAt.getD ⟨clock, some 0⟩) with
      | error x =>
          refine ⟨fun ⟨response, h⟩ => ?_, fun h => ?_⟩
          · simp [handle, hpayload, hutc] at h
          · obtain ⟨t, ht⟩ := utc_ok_iff.2 h.received
            rw [hutc] at ht
            cases ht
      | ok receivedAt =>
          have hreceived := utc_ok_iff.1 ⟨receivedAt, hutc⟩
          have hanswerable : Answerable py secret clock r payload ↔
              ∀ x, sanitizeEvent py payload secret receivedAt ≠ .error (.raised x) := by
            rw [sanitizeEvent_raises_iff]
            exact ⟨fun h => ⟨h.ascii, h.dated⟩, fun h => ⟨hreceived, h.1, h.2⟩⟩
          rw [hanswerable]
          cases hevent : sanitizeEvent py payload secret receivedAt with
          | ok event => exact ⟨fun _ => nofun, fun _ => ⟨_, by simp [handle, hpayload, hutc, hevent]; rfl⟩⟩
          | error refusal =>
              cases refusal with
              | raised x =>
                  refine ⟨fun ⟨response, h⟩ => ?_, fun h => absurd rfl (h x)⟩
                  simp [handle, hpayload, hutc, hevent] at h
              | unauthorized => exact ⟨fun _ => nofun, fun _ => ⟨⟨401⟩, by simp [handle, hpayload, hutc, hevent]⟩⟩
              | invalid => exact ⟨fun _ => nofun, fun _ => ⟨⟨400⟩, by simp [handle, hpayload, hutc, hevent]⟩⟩

end Answers

/-- A request is answered, and changes the correlator only if it is acceptable and has the
secret, if and only if what is acceptable in it can be compared and dated. -/
theorem request_answered (py : Python) (limits : ReolinkEventCorrelator.Limits) (secret : String)
    (clock : Instant) (r : Request) (s : ReolinkEventCorrelator.State) :
    ((∃ response, (handle py limits secret clock r s).1 = .ok response) ∧
      ((handle py limits secret clock r s).2 ≠ s → ∃ fields, Acceptable py r (.obj fields) ∧
        Fields.get? fields "secret" = some (.str secret))) ↔
    ∀ payload, Acceptable py r payload → Answerable py secret clock r payload := by
  rw [handle_ok_iff limits s]
  exact and_iff_left (handle_changes limits s)

/-! ### A secret with an accent -/

namespace Accented

/-- The text `{"secret":"é"}` in UTF-8. -/
def body : List UInt8 :=
  [0x7b, 0x22, 0x73, 0x65, 0x63, 0x72, 0x65, 0x74, 0x22, 0x3a, 0x22, 0xc3, 0xa9, 0x22, 0x7d]

/-- An interpreter that reads this body and its length. -/
def python : Python where
  int text := if text = "15" then some 15 else none
  loads bytes := if bytes = body then .value (.obj [("secret", .str "é")]) else .jsonDecodeError
  fromisoformat := readWall
  digest _ := "digest"

/-- The request with it. -/
def request : Request where
  method := "POST"
  path := "/reolink/events"
  headers := [("Content-Type", "application/json"), ("Content-Length", "15")]
  readBody _ := .ok (some body)

/-- The comparison raises. -/
theorem accent_raises : ¬ ∃ response,
    (handle python {} "correct-horse-battery-staple" 0 request {}).1 = .ok response := by
  have hpayload : payloadOf python request = .ok (.obj [("secret", .str "é")]) := by rfl
  rintro ⟨response, h⟩
  rw [handle, hpayload] at h
  cases h

end Accented

end ReolinkWebhookEndpoint

end GateController

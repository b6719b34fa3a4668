import GateController.Delivery.Shape

/-!
# The wire form of a trace

What the processor hands over is an `EventTelemetry`, and the store gets the object that
`to_wire` makes of it.  Numbers are rational here, without rounding errors.  A `Reading` is
what `float` makes of a value, and there is none where it raises or is not finite.  Where a
text is expected, a value that is no text is treated like the empty one.
-/

namespace GateController

open Data

/-- A number, if it is one. -/
abbrev Reading := Option ℚ

namespace EventTelemetry

/-! ## Values -/

/-- `MAX_ITEMS`. -/
def maxItems : Nat := 8

/-- `MAX_STRING_LENGTH`. -/
def maxStringLength : Nat := 128

/-- `MAX_DIMENSION`. -/
def maxDimension : Int := 16384

/-- `math.floor(number + 0.5)`. -/
def rounded (number : ℚ) : Int := (number + 1 / 2).floor

/-- `_rounded_int`. -/
def roundedInt (value : Reading) (minimum maximum fallback : Int) : Int :=
  match value with
  | none => fallback
  | some number => min (max (rounded number) minimum) maximum

/-- `_duration`. -/
def duration : Option Reading → Option Int
  | none => none
  | some value => some (roundedInt value 0 maxDurationMs 0)

/-- `_required_duration`. -/
def requiredDuration : Reading → Option Int
  | none => none
  | some number => if number < 0 then none else some (min (rounded number) maxDurationMs)

/-- `_ratio`. -/
def ratio : Reading → ℚ
  | none => 0
  | some number => min (max number 0) 1

/-- `_TOKEN.fullmatch`. -/
def matchesToken : List Char → Bool
  | [] => false
  | first :: rest =>
      first.isAlphanum && decide (rest.length ≤ 127) &&
        rest.all fun c => c.isAlphanum || c == '.' || c == '_' || c == ':' || c == '-'

/-- `_token`. -/
def token (value : String) (fallback : String := "unknown") : String :=
  if matchesToken value.toList then value else fallback

/-- `_SHA256.fullmatch`. -/
def matchesSha256 (value : List Char) : Bool :=
  decide (value.length = 64) && value.all fun c => ('a' ≤ c && c ≤ 'f') || c.isDigit

/-- `_optional_string`. -/
def optionalString (value : String) : Json :=
  if value.isEmpty then .null else .str (String.ofList (value.toList.take maxStringLength))

/-- `_wire_timestamp`. -/
def wireTimestamp : Option DateTime → Option String
  | none => none
  | some value => if value.offset.isNone then none else some (timestamp value)

/-- The entries of a table that have a value. -/
def present {α : Type} (encode : α → Option Json) (values : List (String × α)) : Fields :=
  values.filterMap fun entry => (encode entry.2).map fun encoded => (entry.1, encoded)

/-! ## The parts of a trace -/

structure FrameTelemetry where
  sequence : Reading
  digest : String
  width : Reading
  height : Reading
  sharpness : Reading
  brightness : Reading
  darkness : Reading
  highlightClipping : Reading
  status : String

/-- `FrameTelemetry.to_wire`. -/
def FrameTelemetry.toWire (frame : FrameTelemetry) : Option Fields :=
  if !matchesSha256 frame.digest.toList then none
  else some [
    ("sequence", .num (roundedInt frame.sequence 0 (maxItems - 1) 0)),
    ("digest", .str frame.digest),
    ("width", .num (roundedInt frame.width 1 maxDimension 1)),
    ("height", .num (roundedInt frame.height 1 maxDimension 1)),
    ("sharpness", .num (ratio frame.sharpness)),
    ("brightness", .num (ratio frame.brightness)),
    ("darkness", .num (ratio frame.darkness)),
    ("highlight_clipping", .num (ratio frame.highlightClipping)),
    ("status", .str (token frame.status))]

structure OcrAttemptTelemetry where
  frameSequence : Reading
  durationMs : Option Reading
  status : String
  plate : String
  confidence : Option Reading
  make : String
  colour : String

/-- `OcrAttemptTelemetry.to_wire`. -/
def OcrAttemptTelemetry.toWire (attempt : OcrAttemptTelemetry) : Fields := [
  ("frame_sequence", .num (roundedInt attempt.frameSequence 0 (maxItems - 1) 0)),
  ("duration_ms", .num ((duration attempt.durationMs).getD 0)),
  ("status", .str (token attempt.status)),
  ("plate", optionalString attempt.plate),
  ("confidence",
    match attempt.confidence with
    | none => .null
    | some confidence => .num (ratio confidence)),
  ("make", optionalString attempt.make),
  ("colour", optionalString attempt.colour)]

structure TriggerTelemetry where
  source : String
  eventType : String
  correlation : String
  ruleId : String
  eventAt : Option DateTime
  deltaMs : Reading

/-- `_MATCHED_TRIGGER_EVENT_TYPES`. -/
def matchedTriggerEventTypes : List String :=
  ["line_crossing", "vehicle", "manual_test", "other"]

/-- `TriggerTelemetry.to_wire`. -/
def TriggerTelemetry.toWire (trigger : TriggerTelemetry) : Fields :=
  let ruleId := token trigger.ruleId ""
  match requiredDuration trigger.deltaMs with
  | some deltaMs =>
      if trigger.source = "reolink_webhook" ∧ trigger.eventType ∈ matchedTriggerEventTypes ∧
          trigger.correlation = "matched" ∧ ruleId ≠ "" then
        [("source", .str "reolink_webhook"), ("event_type", .str trigger.eventType),
          ("rule_id", .str ruleId), ("correlation", .str "matched")] ++
        (match wireTimestamp trigger.eventAt with
          | none => []
          | some eventAt => [("event_at", .str eventAt)]) ++
        [("delta_ms", .num deltaMs)]
      else unverified
  | none => unverified
where
  unverified : Fields :=
    [("source", .str "camera_ftp"), ("event_type", .str "unverified"),
      ("correlation", .str "unverified")]

structure StageTimestamps where
  filesystemIngressAt : Option DateTime
  burstProcessingStartedAt : Option DateTime
  ocrStartedAt : Option DateTime
  ocrFinishedAt : Option DateTime
  decisionAt : Option DateTime
  relayStartedAt : Option DateTime
  relayFinishedAt : Option DateTime
  processingFinishedAt : Option DateTime

/-- `StageTimestamps.to_wire`. -/
def StageTimestamps.toWire (stamps : StageTimestamps) : Fields :=
  present (fun value => (wireTimestamp value).map Json.str) [
    ("filesystem_ingress_at", stamps.filesystemIngressAt),
    ("burst_processing_started_at", stamps.burstProcessingStartedAt),
    ("ocr_started_at", stamps.ocrStartedAt),
    ("ocr_finished_at", stamps.ocrFinishedAt),
    ("decision_at", stamps.decisionAt),
    ("relay_started_at", stamps.relayStartedAt),
    ("relay_finished_at", stamps.relayFinishedAt),
    ("processing_finished_at", stamps.processingFinishedAt)]

structure StageDurations where
  captureToBurstMs : Option Reading
  burstToOcrMs : Option Reading
  ocrMs : Option Reading
  decisionMs : Option Reading
  decisionToRelayMs : Option Reading
  endToEndMs : Option Reading
  deliveryLagMs : Option Reading
  filesystemIngressToDecisionMs : Option Reading
  filesystemIngressToRelayMs : Option Reading
  relayMs : Option Reading
  cloudSendToAckMs : Option Reading

/-- `StageDurations.to_wire`. -/
def StageDurations.toWire (durations : StageDurations) : Fields :=
  present (fun value => (duration value).map fun ms => Json.num ms) [
    ("capture_to_burst_ms", durations.captureToBurstMs),
    ("burst_to_ocr_ms", durations.burstToOcrMs),
    ("ocr_ms", durations.ocrMs),
    ("decision_ms", durations.decisionMs),
    ("decision_to_relay_ms", durations.decisionToRelayMs),
    ("end_to_end_ms", durations.endToEndMs),
    ("delivery_lag_ms", durations.deliveryLagMs),
    ("filesystem_ingress_to_decision_ms", durations.filesystemIngressToDecisionMs),
    ("filesystem_ingress_to_relay_ms", durations.filesystemIngressToRelayMs),
    ("relay_ms", durations.relayMs),
    ("cloud_send_to_ack_ms", durations.cloudSendToAckMs)]

end EventTelemetry

open EventTelemetry in
/-- `EventTelemetry`, once it is constructed. -/
structure EventTelemetry where
  traceId : String
  stageDurations : StageDurations
  frames : List FrameTelemetry
  ocrAttempts : List OcrAttemptTelemetry
  decisionOutcome : String
  decisionReason : String
  actuationClaim : String
  actuationAttempted : Bool
  relayOutcome : String
  outboxAttempt : Reading
  deliveryState : String
  stageTimestamps : StageTimestamps
  trigger : Option EventTelemetry.TriggerTelemetry

namespace EventTelemetry

/-- The frames that have a wire form. -/
def wireFrames (t : EventTelemetry) : List Json :=
  ((t.frames.filterMap FrameTelemetry.toWire).take maxItems).map Json.obj

/-- The attempts in their wire form. -/
def wireAttempts (t : EventTelemetry) : List Json :=
  (t.ocrAttempts.map fun attempt => Json.obj attempt.toWire).take maxItems

/-- How often the trace was handed to the cloud. -/
def wireAttempt (t : EventTelemetry) : Int := roundedInt t.outboxAttempt 0 maxDeliveryAttempt 0

/-- `EventTelemetry.to_wire`. -/
def toWire (t : EventTelemetry) : Fields :=
  let payload : Fields := [
    ("schema_version", .num 3),
    ("trace_id", .str t.traceId),
    ("taxonomy_version", .num 1),
    ("stage_durations", .obj t.stageDurations.toWire),
    ("frames", .arr t.wireFrames),
    ("ocr_attempts", .arr t.wireAttempts),
    ("decision", .obj [("outcome", .str (token t.decisionOutcome)),
      ("reason", .str (token t.decisionReason))]),
    ("actuation", .obj [("claim", .str (token t.actuationClaim)),
      ("attempted", .bool t.actuationAttempted),
      ("relay_outcome", .str (token t.relayOutcome))]),
    ("delivery", deliveryOf t.wireAttempt (token t.deliveryState))]
  let timestamps := t.stageTimestamps.toWire
  let payload :=
    if timestamps.isEmpty then payload else Fields.set payload "stage_timestamps" (.obj timestamps)
  match t.trigger with
  | none => payload
  | some trigger => Fields.set payload "trigger" (.obj trigger.toWire)

/-! ## The shape of a wire form -/

/-- The entries of a table that have a value keep to the order of the table. -/
theorem follows_present {α : Type} {encode : α → Option Json} {s : Shape}
    {order : List (String × Shape)}
    (h : ∀ value encoded, encode value = some encoded → Fits s encoded)
    (values : List (String × α)) (horder : (values.map fun entry => (entry.1, s)) = order) :
    Follows order (present encode values) := by
  subst horder
  induction values with
  | nil => exact .nil
  | cons entry rest ih =>
      rw [present, List.filterMap_cons]
      cases hencode : encode entry.2 with
      | none => exact .skip ih
      | some encoded => exact .take (h _ _ hencode) ih

/-- The frames. -/
def frameShape : List (String × Shape) := [
  ("sequence", .number), ("digest", .text), ("width", .number), ("height", .number),
  ("sharpness", .number), ("brightness", .number), ("darkness", .number),
  ("highlight_clipping", .number), ("status", .text)]

theorem fits_frame {frame : FrameTelemetry} {fields : Fields} (h : frame.toWire = some fields) :
    Fits (.object frameShape) (.obj fields) := by
  unfold FrameTelemetry.toWire at h
  split at h
  next => cases h
  next =>
    cases h
    refine Follows.fits ?_ (by decide)
    exact .take (.number _) (.take (.text _) (.take (.number _) (.take (.number _)
      (.take (.number _) (.take (.number _) (.take (.number _) (.take (.number _)
        (.take (.text _) .nil))))))))

/-- The attempts at reading a plate. -/
def attemptShape : List (String × Shape) := [
  ("frame_sequence", .number), ("duration_ms", .number), ("status", .text),
  ("plate", .nullable .text), ("confidence", .nullable .number), ("make", .nullable .text),
  ("colour", .nullable .text)]

theorem fits_optionalString (value : String) : Fits (.nullable .text) (optionalString value) := by
  unfold optionalString
  split
  next => exact .null _
  next => exact .present (.text _)

theorem fits_attempt (attempt : OcrAttemptTelemetry) :
    Fits (.object attemptShape) (.obj attempt.toWire) := by
  have hconfidence : Fits (.nullable .number)
      (match attempt.confidence with
        | none => .null
        | some confidence => .num (ratio confidence)) := by
    cases attempt.confidence with
    | none => exact .null _
    | some confidence => exact .present (.number _)
  refine Follows.fits ?_ (by decide)
  exact .take (.number _) (.take (.number _) (.take (.text _) (.take (fits_optionalString _)
    (.take hconfidence (.take (fits_optionalString _) (.take (fits_optionalString _) .nil))))))

/-- The trigger. -/
def triggerShape : List (String × Shape) := [
  ("source", .text), ("event_type", .text), ("rule_id", .text), ("correlation", .text),
  ("event_at", .text), ("delta_ms", .number)]

theorem fits_trigger (trigger : TriggerTelemetry) :
    Fits (.object triggerShape) (.obj trigger.toWire) := by
  have hunverified : Follows triggerShape TriggerTelemetry.toWire.unverified :=
    .take (.text _) (.take (.text _) (.skip (.take (.text _) (.skip (.skip .nil)))))
  refine Follows.fits ?_ (by decide)
  unfold TriggerTelemetry.toWire
  dsimp only
  split
  next deltaMs _ =>
    split
    next =>
      refine .take (.text _) (.take (.text _) (.take (.text _) (.take (.text _) ?_)))
      cases wireTimestamp trigger.eventAt with
      | none => exact .skip (.take (.number _) .nil)
      | some eventAt => exact .take (.text _) (.take (.number _) .nil)
    next => exact hunverified
  next => exact hunverified

/-- The times of the stages. -/
def timestampShape : List (String × Shape) := [
  ("filesystem_ingress_at", .text), ("burst_processing_started_at", .text),
  ("ocr_started_at", .text), ("ocr_finished_at", .text), ("decision_at", .text),
  ("relay_started_at", .text), ("relay_finished_at", .text),
  ("processing_finished_at", .text)]

theorem follows_timestamps (stamps : StageTimestamps) : Follows timestampShape stamps.toWire := by
  refine follows_present (s := .text) (fun value encoded h => ?_) _ rfl
  obtain ⟨text, -, rfl⟩ := Option.map_eq_some_iff.1 h
  exact .text _

/-- The durations of the stages. -/
def durationShape : List (String × Shape) := [
  ("capture_to_burst_ms", .number), ("burst_to_ocr_ms", .number), ("ocr_ms", .number),
  ("decision_ms", .number), ("decision_to_relay_ms", .number), ("end_to_end_ms", .number),
  ("delivery_lag_ms", .number), ("filesystem_ingress_to_decision_ms", .number),
  ("filesystem_ingress_to_relay_ms", .number), ("relay_ms", .number),
  ("cloud_send_to_ack_ms", .number)]

theorem follows_durations (durations : StageDurations) :
    Follows durationShape durations.toWire := by
  refine follows_present (s := .number) (fun value encoded h => ?_) _ rfl
  obtain ⟨ms, -, rfl⟩ := Option.map_eq_some_iff.1 h
  exact .number _

/-! ## What the store makes of it -/

/-- The times, if there are any. -/
def wireStamps (t : EventTelemetry) : Fields :=
  if t.stageTimestamps.toWire.isEmpty then []
  else [("stage_timestamps", .obj t.stageTimestamps.toWire)]

/-- The trigger, if there is one. -/
def wireTrigger (t : EventTelemetry) : Fields :=
  match t.trigger with
  | none => []
  | some trigger => [("trigger", .obj trigger.toWire)]

/-- The entries before the delivery. -/
def head (t : EventTelemetry) (durations : Json) : Fields := [
  ("trace_id", .str t.traceId),
  ("taxonomy_version", .num 1),
  ("stage_durations", durations),
  ("frames", .arr t.wireFrames),
  ("ocr_attempts", .arr t.wireAttempts),
  ("decision", .obj [("outcome", .str (token t.decisionOutcome)),
    ("reason", .str (token t.decisionReason))]),
  ("actuation", .obj [("claim", .str (token t.actuationClaim)),
    ("attempted", .bool t.actuationAttempted),
    ("relay_outcome", .str (token t.relayOutcome))])]

/-- The wire form without its version. -/
def payload (t : EventTelemetry) : Fields :=
  t.head (.obj t.stageDurations.toWire) ++
    ("delivery", deliveryOf t.wireAttempt (token t.deliveryState)) ::
      (t.wireStamps ++ t.wireTrigger)

variable (t : EventTelemetry)

theorem toWire_eq : t.toWire = ("schema_version", .num 3) :: t.payload := by
  cases hstamps : t.stageTimestamps.toWire with
  | nil =>
      cases htrigger : t.trigger with
      | none => simp [toWire, payload, head, wireStamps, wireTrigger, hstamps, htrigger]
      | some trigger =>
          simp [toWire, payload, head, wireStamps, wireTrigger, hstamps, htrigger, Fields.set]
  | cons f rest =>
      cases htrigger : t.trigger with
      | none => simp [toWire, payload, head, wireStamps, wireTrigger, hstamps, htrigger, Fields.set]
      | some trigger =>
          simp [toWire, payload, head, wireStamps, wireTrigger, hstamps, htrigger, Fields.set]

/-- Picking all names of an object, in their order. -/
theorem pickKeys_self {keys : List String} {fields : Fields} (hnames : fields.map Prod.fst = keys)
    (hnodup : keys.Nodup) : pickKeys keys (.obj fields) = .ok (.obj fields) := by
  have hfilter : ∀ all : Fields, (all.map Prod.fst).Nodup → ∀ part : Fields, part ⊆ all →
      (part.map Prod.fst).filterMap (fun key =>
        (Fields.get? all key).map fun value => (key, value)) = part := by
    intro all hall part
    induction part with
    | nil => exact fun _ => rfl
    | cons f rest ih =>
        intro hsub
        have hget : Fields.get? all f.1 = some f.2 :=
          Fields.get?_eq_some_of_mem hall (hsub List.mem_cons_self)
        rw [List.map_cons, List.filterMap_cons, hget, Option.map_some]
        exact congrArg (f :: ·) (ih fun g hg => hsub (List.mem_cons_of_mem f hg))
  subst hnames
  rw [pickKeys, hfilter fields hnodup fields (List.Subset.refl _)]

theorem mapM_eq_self {f : Json → Except Exc Json} {items : List Json}
    (h : ∀ value ∈ items, f value = .ok value) : items.mapM f = .ok items := by
  induction items with
  | nil => rfl
  | cons value rest ih =>
      rw [List.mapM_cons, h value List.mem_cons_self,
        ih fun other hother => h other (List.mem_cons_of_mem value hother)]
      rfl

theorem mapM_wireFrames :
    t.wireFrames.mapM (pickKeys telemetryFrameKeys) = .ok t.wireFrames := by
  refine mapM_eq_self fun value hvalue => ?_
  obtain ⟨fields, hfields, rfl⟩ := List.mem_map.1 hvalue
  obtain ⟨frame, -, hframe⟩ := List.mem_filterMap.1 (List.mem_of_mem_take hfields)
  unfold FrameTelemetry.toWire at hframe
  split at hframe
  next => cases hframe
  next =>
    cases hframe
    exact pickKeys_self rfl (by decide)

theorem mapM_wireAttempts :
    t.wireAttempts.mapM (pickKeys telemetryOcrKeys) = .ok t.wireAttempts := by
  refine mapM_eq_self fun value hvalue => ?_
  obtain ⟨attempt, -, rfl⟩ := List.mem_map.1 (List.mem_of_mem_take hvalue)
  exact pickKeys_self rfl (by decide)

/-- The store takes the wire form as it is. -/
theorem telemetryPayload_toWire : telemetryPayload t.toWire = .ok t.payload := by
  rw [toWire_eq]
  have hframes := t.mapM_wireFrames
  have hattempts := t.mapM_wireAttempts
  cases hstamps : t.stageTimestamps.toWire with
  | nil =>
      cases htrigger : t.trigger with
      | none =>
          simp [telemetryPayload, payload, head, wireStamps, wireTrigger, hstamps, htrigger, item,
            Fields.get?_cons, objectItem, dictOf, listOf, hframes, hattempts, deliveryOf,
            bind, Except.bind, pure, Except.pure]
      | some trigger =>
          simp [telemetryPayload, payload, head, wireStamps, wireTrigger, hstamps, htrigger, item,
            Fields.get?_cons, Fields.set, objectItem, dictOf, listOf, hframes, hattempts,
            deliveryOf, bind, Except.bind, pure, Except.pure]
  | cons f rest =>
      cases htrigger : t.trigger with
      | none =>
          simp [telemetryPayload, payload, head, wireStamps, wireTrigger, hstamps, htrigger, item,
            Fields.get?_cons, Fields.set, objectItem, dictOf, listOf, hframes, hattempts,
            deliveryOf, bind, Except.bind, pure, Except.pure]
      | some trigger =>
          simp [telemetryPayload, payload, head, wireStamps, wireTrigger, hstamps, htrigger, item,
            Fields.get?_cons, Fields.set, objectItem, dictOf, listOf, hframes, hattempts,
            deliveryOf, bind, Except.bind, pure, Except.pure]

/-! ## What the delivery leaves alone -/

/-- A time that the delivery sets. -/
def isCloudStamp (f : String × Json) : Bool := "cloud_".toList.isPrefixOf f.1.toList

/-- A wire form less what the delivery sets: its state, the two durations and its times. -/
def outsideDelivery (wire : Fields) : Fields :=
  let rest := Fields.erase wire "delivery"
  let rest :=
    match Fields.get? rest "stage_durations" with
    | some (.obj durations) => Fields.set rest "stage_durations"
        (.obj (Fields.erase (Fields.erase durations "delivery_lag_ms") "cloud_send_to_ack_ms"))
    | _ => rest
  match Fields.get? rest "stage_timestamps" with
  | some (.obj stamps) =>
      Fields.set rest "stage_timestamps" (.obj (stamps.filter fun f => !isCloudStamp f))
  | _ => rest

/-- What lasts of a trace in the store. -/
def lasting (t : EventTelemetry) : Fields :=
  t.head (.obj (Fields.erase (Fields.erase t.stageDurations.toWire "delivery_lag_ms")
    "cloud_send_to_ack_ms")) ++ (t.wireStamps ++ t.wireTrigger)

section Head

variable {t} {durations : Json} {rest : Fields} {name : String}

theorem head_ne (h : name = "delivery" ∨ name = "stage_timestamps") :
    ∀ f ∈ t.head durations, f.1 ≠ name := by
  intro f hf heq
  have hname : name ∈ (t.head durations).map Prod.fst := List.mem_map.2 ⟨f, hf, heq⟩
  have hnames : (t.head durations).map Prod.fst = ["trace_id", "taxonomy_version",
    "stage_durations", "frames", "ocr_attempts", "decision", "actuation"] := rfl
  rw [hnames] at hname
  obtain rfl | rfl := h
  · exact absurd hname (by decide)
  · exact absurd hname (by decide)

theorem set_head {value : Json} :
    Fields.set (t.head durations ++ rest) "stage_durations" value = t.head value ++ rest := rfl

theorem get?_head_ne (h : name = "delivery" ∨ name = "stage_timestamps") :
    Fields.get? (t.head durations ++ rest) name = Fields.get? rest name :=
  Fields.get?_append_of_ne (head_ne h)

theorem set_head_ne {value : Json} (h : name = "delivery" ∨ name = "stage_timestamps") :
    Fields.set (t.head durations ++ rest) name value =
      t.head durations ++ Fields.set rest name value :=
  Fields.set_append_of_ne (head_ne h)

theorem erase_head (h : name = "delivery" ∨ name = "stage_timestamps") :
    Fields.erase (t.head durations ++ rest) name = t.head durations ++ Fields.erase rest name :=
  Fields.erase_append_of_ne (head_ne h)

end Head

/-- No time of a stage is one of the delivery. -/
theorem filter_timestamps (stamps : StageTimestamps) :
    (stamps.toWire.filter fun f => !isCloudStamp f) = stamps.toWire := by
  have hnames : ∀ name ∈ timestampShape.map Prod.fst,
      "cloud_".toList.isPrefixOf name.toList = false := by decide
  refine List.filter_eq_self.2 fun f hf => ?_
  have hname := (follows_timestamps stamps).names.subset (List.mem_map.2 ⟨f, hf, rfl⟩)
  rw [isCloudStamp, hnames f.1 hname]
  rfl

/-- What comes after the delivery. -/
theorem tail_cases :
    Fields.erase (t.wireStamps ++ t.wireTrigger) "delivery" = t.wireStamps ++ t.wireTrigger ∧
    (t.stageTimestamps.toWire = [] ∧
        Fields.get? (t.wireStamps ++ t.wireTrigger) "stage_timestamps" = none ∨
      Fields.get? (t.wireStamps ++ t.wireTrigger) "stage_timestamps" =
          some (.obj t.stageTimestamps.toWire) ∧ t.stageTimestamps.toWire ≠ [] ∧
        Fields.set (t.wireStamps ++ t.wireTrigger) "stage_timestamps"
          (.obj t.stageTimestamps.toWire) = t.wireStamps ++ t.wireTrigger) := by
  unfold wireStamps wireTrigger
  generalize t.stageTimestamps.toWire = stamps
  cases stamps with
  | nil =>
      cases t.trigger with
      | none => simp [Fields.erase]
      | some trigger => simp [Fields.erase, Fields.get?_cons]
  | cons f rest =>
      cases t.trigger with
      | none => simp [Fields.erase, Fields.get?_cons, Fields.set]
      | some trigger => simp [Fields.erase, Fields.get?_cons, Fields.set]

theorem erase_delivery : Fields.erase t.payload "delivery" =
    t.head (.obj t.stageDurations.toWire) ++ (t.wireStamps ++ t.wireTrigger) := by
  have herase : ∀ (value : Json) (rest : Fields),
      Fields.erase (("delivery", value) :: rest) "delivery" = Fields.erase rest "delivery" := by
    simp [Fields.erase]
  rw [payload, erase_head (.inl rfl), herase, t.tail_cases.1]

theorem outsideDelivery_toWire :
    outsideDelivery t.toWire = ("schema_version", .num 3) :: t.lasting := by
  have herase : Fields.erase t.toWire "delivery" =
      ("schema_version", .num 3) :: Fields.erase t.payload "delivery" := by
    rw [toWire_eq]
    rfl
  have hhead : ∀ (durations value : Json) (rest : Fields),
      Fields.get? (("schema_version", .num 3) :: (t.head durations ++ rest)) "stage_durations" =
        some durations ∧
      Fields.set (("schema_version", .num 3) :: (t.head durations ++ rest)) "stage_durations"
        value = ("schema_version", .num 3) :: (t.head value ++ rest) :=
    fun _ _ _ => ⟨rfl, rfl⟩
  have hstamps : ∀ durations : Json,
      Fields.get? (("schema_version", .num 3) :: (t.head durations ++
        (t.wireStamps ++ t.wireTrigger))) "stage_timestamps" =
      Fields.get? (t.wireStamps ++ t.wireTrigger) "stage_timestamps" := by
    intro durations
    rw [Fields.get?_cons, if_neg (by decide), get?_head_ne (.inr rfl)]
  have hset : ∀ durations value : Json,
      Fields.set (("schema_version", .num 3) :: (t.head durations ++
        (t.wireStamps ++ t.wireTrigger))) "stage_timestamps" value =
      ("schema_version", .num 3) :: (t.head durations ++
        Fields.set (t.wireStamps ++ t.wireTrigger) "stage_timestamps" value) := by
    intro durations value
    rw [Fields.set, if_neg (by decide), set_head_ne (.inr rfl)]
  rw [outsideDelivery, herase, erase_delivery, (hhead _ .null _).1]
  dsimp only
  rw [(hhead _ _ _).2, hstamps]
  obtain ⟨-, ⟨-, hnone⟩ | ⟨hsome, -, hsame⟩⟩ := t.tail_cases
  · rw [hnone]
    rfl
  · rw [hsome]
    dsimp only
    rw [hset, filter_timestamps, hsame]
    rfl

/-- What `_same_trace` compares of a trace with these durations and times. -/
def compared (trace durations stamps : Fields) : Fields :=
  let rest := Fields.set (Fields.erase trace "delivery") "stage_durations"
    (.obj (Fields.erase (Fields.erase durations "delivery_lag_ms") "cloud_send_to_ack_ms"))
  let kept := stamps.filter fun f => !isCloudStamp f
  if kept.isEmpty then Fields.erase rest "stage_timestamps"
  else Fields.set rest "stage_timestamps" (.obj kept)

theorem immutable_eq {trace durations stamps : Fields}
    (hdurations : dictOf (Fields.get? trace "stage_durations") = .ok durations)
    (hstamps : dictOf (Fields.get? trace "stage_timestamps") = .ok stamps) :
    sameTrace.immutable trace = .ok (compared trace durations stamps) := by
  rw [sameTrace.immutable, hdurations, hstamps]
  rfl

/-- The times of a trace in the store. -/
theorem get?_stamps : Fields.get? t.payload "stage_timestamps" =
    Fields.get? (t.wireStamps ++ t.wireTrigger) "stage_timestamps" := by
  rw [payload, get?_head_ne (.inr rfl), Fields.get?_cons, if_neg (by simp)]

theorem immutable_payload : sameTrace.immutable t.payload = .ok t.lasting := by
  have hdurations : dictOf (Fields.get? t.payload "stage_durations") =
      .ok t.stageDurations.toWire := rfl
  obtain ⟨-, ⟨hempty, hnone⟩ | ⟨hsome, hne, hsame⟩⟩ := t.tail_cases
  · have hstamps : dictOf (Fields.get? t.payload "stage_timestamps") = .ok [] := by
      rw [get?_stamps, hnone]
      rfl
    rw [immutable_eq hdurations hstamps, compared, erase_delivery, set_head]
    dsimp only [List.filter_nil, List.isEmpty_nil, if_true]
    rw [erase_head (.inr rfl), Fields.erase_of_get?_eq_none hnone]
    rfl
  · have hstamps : dictOf (Fields.get? t.payload "stage_timestamps") =
        .ok t.stageTimestamps.toWire := by
      rw [get?_stamps, hsome]
      rfl
    rw [immutable_eq hdurations hstamps, compared, erase_delivery, set_head, filter_timestamps,
      if_neg (by simpa using hne), set_head_ne (.inr rfl), hsame]
    rfl

/-- The shape of what lasts. -/
def lastingShape : List (String × Shape) := [
  ("trace_id", .text), ("taxonomy_version", .number),
  ("stage_durations", .object durationShape), ("frames", .list (.object frameShape)),
  ("ocr_attempts", .list (.object attemptShape)),
  ("decision", .object [("outcome", .text), ("reason", .text)]),
  ("actuation", .object [("claim", .text), ("attempted", .truth), ("relay_outcome", .text)]),
  ("stage_timestamps", .object timestampShape), ("trigger", .object triggerShape)]

theorem fits_lasting : Fits (.object lastingShape) (.obj t.lasting) := by
  have hdurations : Fits (.object durationShape) (.obj (Fields.erase
      (Fields.erase t.stageDurations.toWire "delivery_lag_ms") "cloud_send_to_ack_ms")) :=
    (((follows_durations t.stageDurations).filter _).filter _).fits (by decide)
  have hframes : Fits (.list (.object frameShape)) (.arr t.wireFrames) := by
    refine .list fun value hvalue => ?_
    obtain ⟨fields, hfields, rfl⟩ := List.mem_map.1 hvalue
    obtain ⟨frame, -, hframe⟩ := List.mem_filterMap.1 (List.mem_of_mem_take hfields)
    exact fits_frame hframe
  have hattempts : Fits (.list (.object attemptShape)) (.arr t.wireAttempts) := by
    refine .list fun value hvalue => ?_
    obtain ⟨attempt, -, rfl⟩ := List.mem_map.1 (List.mem_of_mem_take hvalue)
    exact fits_attempt attempt
  have hdecision : Fits (.object [("outcome", .text), ("reason", .text)])
      (.obj [("outcome", .str (token t.decisionOutcome)),
        ("reason", .str (token t.decisionReason))]) :=
    Follows.fits (.take (.text _) (.take (.text _) .nil)) (by decide)
  have hactuation : Fits
      (.object [("claim", .text), ("attempted", .truth), ("relay_outcome", .text)])
      (.obj [("claim", .str (token t.actuationClaim)), ("attempted", .bool t.actuationAttempted),
        ("relay_outcome", .str (token t.relayOutcome))]) :=
    Follows.fits (.take (.text _) (.take (.truth _) (.take (.text _) .nil))) (by decide)
  have htrigger : Follows [("trigger", .object triggerShape)] t.wireTrigger := by
    unfold wireTrigger
    cases t.trigger with
    | none => exact .skip .nil
    | some trigger => exact .take (fits_trigger trigger) .nil
  have htail : Follows [("stage_timestamps", .object timestampShape),
      ("trigger", .object triggerShape)] (t.wireStamps ++ t.wireTrigger) := by
    unfold wireStamps
    split
    next => exact .skip htrigger
    next => exact .take ((follows_timestamps t.stageTimestamps).fits (by decide)) htrigger
  refine Follows.fits ?_ (by decide)
  exact .take (.text _) (.take (.number _) (.take hdurations (.take hframes (.take hattempts
    (.take hdecision (.take hactuation htail))))))

/-- Python takes what lasts of two traces for the same only if it is equal. -/
theorem sameObject_lasting {t t' : EventTelemetry} :
    sameObject t.lasting t'.lasting = true ↔ t.lasting = t'.lasting := by
  constructor
  · intro h
    have heq := t.fits_lasting.eq_of_same t'.fits_lasting h
    injection heq
  · intro h
    rw [h]
    exact t'.fits_lasting.same_self

end EventTelemetry

end GateController

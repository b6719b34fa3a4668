import GateController.Delivery.Wire
import Mathlib.Algebra.Order.Floor.Ring
import Mathlib.Data.Rat.Floor

/-!
# The trace of a burst

`ProcessingTrace` collects when the stages of a burst began and ended, what the recogniser read
and what was decided.  Each method reads the monotonic clock at most once, so its reading is an
argument.  Times are rational here, without rounding errors.

`_BestEffortTrace` gives the trace up for good as soon as one of its methods raises.
-/

namespace GateController

open Data EventTelemetry

/-! ## Clocks -/

/-- `MAX_UPSTREAM_INTERVAL_SECONDS`. -/
def maxUpstreamIntervalSeconds : ℚ := 600

/-- `MAX_CLOCK_SKEW_SECONDS`. -/
def maxClockSkewSeconds : ℚ := 1 / 10

/-- `_elapsed`, in milliseconds. -/
def elapsed : Option ℚ → Option ℚ → Option ℚ
  | some start, some finish => some (max 0 ((finish - start) * 1000))
  | _, _ => none

/-- `(wall_anchor - received_at).total_seconds()`, of times that can be subtracted. -/
def secondsBetween (later earlier : DateTime) : Option ℚ :=
  if later.offset.isSome == earlier.offset.isSome then
    some ((later.utc.val - earlier.utc.val : Int) / 1000000)
  else none

/-- `math.isfinite` of a time that may be missing. -/
def anchored (anchor : Option ℚ) : Except Exc ℚ :=
  anchor.elim (.error (.typeError "must be real number, not NoneType")) .ok

/-- `_wall_to_monotonic`. -/
def wallToMonotonic (receivedAt : Option DateTime) (wallAnchor : DateTime)
    (anchor : Option ℚ) : Except Exc (Option ℚ) :=
  match receivedAt.bind (secondsBetween wallAnchor) with
  | none => .ok none
  | some age => do
      let anchor ← anchored anchor
      if age < -maxClockSkewSeconds ∨ age > maxUpstreamIntervalSeconds then return none
      else return some (anchor - max age 0)

/-- `_upstream_monotonic`. -/
def upstreamMonotonic (value anchor : Option ℚ) : Except Exc (Option ℚ) :=
  match value with
  | none => .ok none
  | some timestamp => do
      let anchor ← anchored anchor
      let offset := timestamp - anchor
      if offset > maxClockSkewSeconds ∨ offset < -maxUpstreamIntervalSeconds then return none
      else return some (min timestamp anchor)

/-- The microseconds of `timedelta(seconds=...)`, ties to even. -/
def microseconds (seconds : ℚ) : Int :=
  let scaled := seconds * 1000000
  let below := scaled.floor
  if scaled - below < 1 / 2 then below
  else if scaled - below = 1 / 2 ∧ below % 2 = 0 then below
  else below + 1

/-! ## The trace -/

structure ProcessingTrace where
  traceId : String
  wallAnchor : DateTime
  monotonicAnchor : ℚ
  captured : Option ℚ
  filesystemIngressAt : Option DateTime := none
  burst : Option ℚ := none
  burstProcessingStartedAt : Option DateTime := none
  firstOcrStart : Option ℚ := none
  pendingOcrStart : Option ℚ := none
  lastOcrEnd : Option ℚ := none
  ocrWorkMs : ℚ := 0
  decision : Option ℚ := none
  actuation : Option ℚ := none
  relayFinished : Option ℚ := none
  actuationDetailsMarked : Bool := false
  frames : List FrameTelemetry := []
  ocrAttempts : List OcrAttemptTelemetry := []
  decisionOutcome : String := "unknown"
  decisionReason : String := "unknown"
  actuationClaim : String := "not_requested"
  actuationAttempted : Bool := false
  relayOutcome : String := "not_attempted"
  trigger : Option EventTelemetry.TriggerTelemetry := none
  finishedTelemetry : Option EventTelemetry := none

/-- A call of a method that collects. -/
inductive TraceCall where
  | setTrigger (trigger : Option EventTelemetry.TriggerTelemetry)
  | seedUpstream (receivedAt : Option DateTime) (decisionStartedAt : Option ℚ)
      (processingStartedAt : Option DateTime)
  | markBurst
  | addFrame (frame : FrameTelemetry)
  | markOcrStart
  | addOcrAttempt (attempt : OcrAttemptTelemetry)
  | addOcrRejection (attempt : OcrAttemptTelemetry)
  | markDecision (outcome reason : String)
  | reviseDecision (outcome reason : String)
  | markRelayActivation
  | markRelayFinished
  | setActuationOutcome (claim : String) (attempted : Bool) (relayOutcome : String)

/-- A reading of the monotonic clock, which may raise. -/
abbrev ClockReading := Except Exc ℚ

namespace ProcessingTrace

/-- `__init__`, without a trace id of the caller. -/
def new (traceId : String) (wallClock : DateTime) (monotonicClock : ℚ) : ProcessingTrace where
  traceId := traceId
  wallAnchor := wallClock
  monotonicAnchor := monotonicClock
  captured := some monotonicClock

/-- `seed_upstream`. -/
def seedUpstream (t : ProcessingTrace) (receivedAt : Option DateTime)
    (decisionStartedAt : Option ℚ) (processingStartedAt : Option DateTime) :
    Except Exc ProcessingTrace := do
  let capture ← wallToMonotonic receivedAt t.wallAnchor t.captured
  let burst ← upstreamMonotonic decisionStartedAt t.captured
  let seeded := { t with
    captured :=
      if receivedAt.isSome || decisionStartedAt.isSome then capture else t.captured
    filesystemIngressAt := if capture.isSome then receivedAt else t.filesystemIngressAt
    burst := if decisionStartedAt.isSome then burst else t.burst
    burstProcessingStartedAt :=
      if (wireTimestamp processingStartedAt).isSome then processingStartedAt
      else t.burstProcessingStartedAt }
  match capture, burst with
  | some capture, some burst =>
      if capture ≤ burst then return seeded
      else if capture - burst ≤ maxClockSkewSeconds then
        return { seeded with captured := some burst }
      else return { seeded with captured := none }
  | _, _ => return seeded

/-- `mark_decision`. -/
def markDecision (t : ProcessingTrace) (outcome reason : String) (clock : ClockReading) :
    Except Exc ProcessingTrace := do
  if t.decision.isSome then return t
  else
    let now ← clock
    return { t with decision := some now, decisionOutcome := outcome, decisionReason := reason }

/-- `mark_ocr_start`. -/
def markOcrStart (t : ProcessingTrace) (clock : ClockReading) : Except Exc ProcessingTrace := do
  if maxItems ≤ t.ocrAttempts.length ∨ t.pendingOcrStart.isSome then return t
  else
    let now ← clock
    return { t with
      pendingOcrStart := some now
      firstOcrStart := if t.firstOcrStart.isNone then some now else t.firstOcrStart }

/-- `add_ocr_attempt`. -/
def addOcrAttempt (t : ProcessingTrace) (attempt : OcrAttemptTelemetry) (clock : ClockReading) :
    Except Exc ProcessingTrace := do
  if maxItems ≤ t.ocrAttempts.length then return t
  else
    match t.pendingOcrStart with
    | none => .error (.runtimeError "mark_ocr_start must be called before add_ocr_attempt")
    | some started =>
        let endedAt ← clock
        let durationMs := (elapsed (some started) (some endedAt)).getD 0
        return { t with
          lastOcrEnd := some endedAt
          pendingOcrStart := none
          ocrWorkMs := t.ocrWorkMs + durationMs
          ocrAttempts := t.ocrAttempts ++ [{ attempt with durationMs := some (some durationMs) }] }

/-- What a method makes of a trace, given the reading of the clock if it asks for one. -/
def apply (t : ProcessingTrace) (call : TraceCall) (clock : ClockReading) :
    Except Exc ProcessingTrace :=
  match call with
  | .setTrigger trigger => .ok { t with trigger }
  | .seedUpstream receivedAt decisionStartedAt processingStartedAt =>
      t.seedUpstream receivedAt decisionStartedAt processingStartedAt
  | .markBurst => do
      if t.burst.isSome then return t
      else
        let now ← clock
        return { t with burst := some now }
  | .addFrame frame =>
      .ok (if t.frames.length < maxItems then { t with frames := t.frames ++ [frame] } else t)
  | .markOcrStart => t.markOcrStart clock
  | .addOcrAttempt attempt => t.addOcrAttempt attempt clock
  | .addOcrRejection attempt =>
      .ok (if t.ocrAttempts.length < maxItems then
        { t with ocrAttempts := t.ocrAttempts ++ [{ attempt with durationMs := some (some 0) }] }
      else t)
  | .markDecision outcome reason => t.markDecision outcome reason clock
  | .reviseDecision outcome reason =>
      if t.decision.isNone then t.markDecision outcome reason clock
      else .ok { t with decisionOutcome := outcome, decisionReason := reason }
  | .markRelayActivation => do
      if t.actuation.isSome then return t
      else
        let now ← clock
        return { t with actuation := some now }
  | .markRelayFinished => do
      if t.actuation.isSome ∧ t.relayFinished.isNone then
        let now ← clock
        return { t with relayFinished := some now }
      else return t
  | .setActuationOutcome claim attempted relayOutcome =>
      .ok (if t.actuationDetailsMarked then t
      else { t with
        actuationClaim := claim
        actuationAttempted := attempted
        relayOutcome
        actuationDetailsMarked := true })

/-- `_wall_at`. -/
def wallAt (t : ProcessingTrace) : Option ℚ → Except Exc (Option DateTime)
  | none => .ok none
  | some value =>
      let offset := value - t.monotonicAnchor
      if |offset| > maxUpstreamIntervalSeconds then .ok none
      else (DateTime.minus t.wallAnchor (-microseconds offset)).map some

/-- The durations of the stages. -/
def stageDurations (t : ProcessingTrace) (finished : ℚ) : StageDurations :=
  let ingress := if t.filesystemIngressAt.isSome then t.captured else none
  { captureToBurstMs := (elapsed t.captured t.burst).map some
    burstToOcrMs := (elapsed t.burst t.firstOcrStart).map some
    ocrMs := some (some t.ocrWorkMs)
    decisionMs := (elapsed t.lastOcrEnd t.decision).map some
    decisionToRelayMs := (elapsed t.decision t.actuation).map some
    endToEndMs := (elapsed t.captured (some finished)).map some
    deliveryLagMs := none
    filesystemIngressToDecisionMs := (elapsed ingress t.decision).map some
    filesystemIngressToRelayMs := (elapsed ingress t.actuation).map some
    relayMs := (elapsed t.actuation t.relayFinished).map some
    cloudSendToAckMs := none }

/-- The times of the stages. -/
def stageTimestamps (t : ProcessingTrace) (finished : ℚ) : Except Exc StageTimestamps := do
  return {
    filesystemIngressAt := t.filesystemIngressAt
    burstProcessingStartedAt :=
      ← match t.burstProcessingStartedAt with
        | some startedAt => .ok (some startedAt)
        | none => t.wallAt t.burst
    ocrStartedAt := ← t.wallAt t.firstOcrStart
    ocrFinishedAt := ← t.wallAt t.lastOcrEnd
    decisionAt := ← t.wallAt t.decision
    relayStartedAt := ← t.wallAt t.actuation
    relayFinishedAt := ← t.wallAt t.relayFinished
    processingFinishedAt := ← t.wallAt (some finished) }

/-- `finish`, with its default arguments, of a trace that was not finished before. -/
def telemetry (t : ProcessingTrace) (finished : ℚ) : Except Exc EventTelemetry := do
  return {
    traceId := t.traceId
    stageDurations := t.stageDurations finished
    frames := t.frames.take maxItems
    ocrAttempts := t.ocrAttempts.take maxItems
    decisionOutcome := t.decisionOutcome
    decisionReason := t.decisionReason
    actuationClaim := t.actuationClaim
    actuationAttempted := t.actuationAttempted
    relayOutcome := t.relayOutcome
    outboxAttempt := some 0
    deliveryState := "pending"
    stageTimestamps := ← t.stageTimestamps finished
    trigger := t.trigger }

/-- `finish`. -/
def finish (t : ProcessingTrace) (clock : ClockReading) :
    Except Exc (EventTelemetry × ProcessingTrace) := do
  match t.finishedTelemetry with
  | some telemetry => return (telemetry, t)
  | none =>
      let telemetry ← t.telemetry (← clock)
      return (telemetry, { t with finishedTelemetry := some telemetry })

end ProcessingTrace

/-! ## Best effort -/

/-- `_BestEffortTrace`: a trace, until one of its methods raises. -/
abbrev BestEffortTrace := Option ProcessingTrace

namespace BestEffortTrace

/-- `_call` of a method that collects. -/
def call (trace : BestEffortTrace) (c : TraceCall) (clock : ClockReading) : BestEffortTrace :=
  trace.bind fun t => (t.apply c clock).toOption

/-- `finish`. -/
def finish (trace : BestEffortTrace) (clock : ClockReading) :
    Option EventTelemetry × BestEffortTrace :=
  match trace.bind fun t => (t.finish clock).toOption with
  | some (telemetry, t) => (some telemetry, some t)
  | none => (none, none)

end BestEffortTrace

end GateController

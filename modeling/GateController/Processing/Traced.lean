import GateController.Effects.Expand
import GateController.Processing.Processor
import GateController.Processing.Trace

/-!
# The gate processor and its trace

`GateProcessor.process` and `record_skipped` again, now with every call of the trace where the
source makes it.  Everything else they do is an operation `TracedEff.gate` of the gate.

A method of the trace reads its clock, and the relay's deactivation may have been reported to the
trace since the last call, by whatever thread.  Both are in the answer to the call.  What the
methods make of them is the matter of `ProcessingTrace`.
-/

namespace GateController

open Data Effects LocalStore ActuationCoordinator EventTelemetry GateProcessor

/-! ## Operations -/

/-- A call of a method of the trace. -/
structure Called where
  /-- The readings of `mark_relay_finished` since the last call. -/
  reports : List ClockReading
  /-- The reading of the clock, if the method asks for one. -/
  reading : ℚ

/-- What came of `_recognise`. -/
structure Recognised where
  /-- The call of `on_start`, if it came to that. -/
  started : Option (Except Exc Called)
  outcome : Except Exc OcrOutcome
  make : String
  colour : String

/-- The operations of the processor with its trace. -/
inductive TracedEff where
  | gate (e : Eff)
  /-- The construction of the trace. -/
  | newTrace
  | disable
  | trace (call : TraceCall)
  /-- `mark_relay_activation`, called by the relay. -/
  | onActivation
  | finish
  /-- `measure_frame_quality`. -/
  | measure (path digest : String)
  | recognise (path : String)

/-- What an operation answers. -/
@[reducible] def TracedEff.Ans : TracedEff → Type
  | .gate e => e.Ans
  | .newTrace => String × DateTime × ℚ
  | .disable => Unit
  | .trace _ => Called
  | .onActivation => Called
  | .finish => Called × Option EventTelemetry
  | .measure _ _ => FrameTelemetry
  | .recognise _ => Recognised

/-- A call of the processor, with its trace. -/
abbrev TracedProc (α : Type) : Type := Prog TracedEff TracedEff.Ans Exc α

namespace TracedProcessor

variable {α : Type}

/-- The operations of the gate, with `mark_relay_activation` for the callback of the relay. -/
def traced : Impl Eff Eff.Ans TracedEff TracedEff.Ans Exc Unit where
  program _ e :=
    match e with
    | .env .onActivation => do
        match ← (Prog.perform TracedEff.onActivation).attempt with
        | .ok _ => return ()
        | .error x => if x.isException then return () else .raise x
    | e => Prog.perform (TracedEff.gate e)
  remember _ _ _ := ()

/-- A program of the gate. -/
def gate (p : Proc α) : TracedProc α := p.expand traced ()

def env (op : EnvOp) : TracedProc op.Ans := Prog.perform (TracedEff.gate (.env op))

def store (op : StoreOp) : TracedProc op.Ans := Prog.perform (TracedEff.gate (.store op))

/-- `try: body except Exception: return default`. -/
def bestEffort (body : TracedProc α) (default : α) : TracedProc α := do
  match ← body.attempt with
  | .ok a => return a
  | .error x => if x.isException then return default else .raise x

/-- `_new_trace`. -/
def newTrace : TracedProc Unit :=
  bestEffort (do let _ ← Prog.perform TracedEff.newTrace) ()

/-- `_call` of a method that collects. -/
def call (c : TraceCall) : TracedProc Unit :=
  bestEffort (do let _ ← Prog.perform (TracedEff.trace c)) ()

/-- `_call` of `finish`. -/
def finish : TracedProc (Option EventTelemetry) :=
  bestEffort (do return (← Prog.perform TracedEff.finish).2) none

/-! ## Recording -/

/-- A `ProcessingResult`, with its telemetry. -/
structure TracedResult where
  result : ProcessingResult
  telemetry : Option EventTelemetry

/-- The arguments of `process`. -/
structure ProcessArgs extends GateProcessor.ProcessArgs where
  processingStartedAt : Option DateTime := none
  trigger : Option EventTelemetry.TriggerTelemetry := none

/-- The arguments of `record_skipped`. -/
structure SkipArgs extends GateProcessor.SkipArgs where
  /-- The caller hands its trace over. -/
  traceGiven : Bool := false
  decisionStartedAt : Option ℚ := none
  processingStartedAt : Option DateTime := none
  trigger : Option EventTelemetry.TriggerTelemetry := none

/-- `ftp_fallback_trigger`. -/
def ftpFallbackTrigger : EventTelemetry.TriggerTelemetry where
  source := "camera_ftp"
  eventType := "unverified"
  correlation := "unverified"
  ruleId := ""
  eventAt := none
  deltaMs := none

/-- `_finish_result`. -/
def finishResult (cfg : Config) (result : ProcessingResult) : TracedProc TracedResult := do
  match ← finish with
  | none =>
      gate (releaseOutboxWithoutTelemetry cfg result.eventId)
      return ⟨result, none⟩
  | some telemetry =>
      match result.eventId with
      | none => return ⟨result, some telemetry⟩
      | some eventId =>
          gate (Proc.exceptException
            (Proc.store (.attachEventTelemetry eventId telemetry.toWire))
            (releaseOutboxWithoutTelemetry cfg (some eventId)))
          return ⟨result, some telemetry⟩

/-- `trace.seed_upstream`, if there is something to seed the trace with. -/
def seed (receivedAt : Option DateTime) (decisionStartedAt : Option ℚ)
    (processingStartedAt : Option DateTime) : TracedProc Unit :=
  if receivedAt.isSome || decisionStartedAt.isSome || processingStartedAt.isSome then
    call (.seedUpstream receivedAt decisionStartedAt processingStartedAt)
  else return ()

/-- `trace.mark_burst`, if nobody marked it upstream. -/
def markBurst (decisionStartedAt : Option ℚ) : TracedProc Unit :=
  if decisionStartedAt.isNone then call .markBurst else return ()

/-- The trace of a call of `record_skipped`, unless it was given one. -/
def skipTrace (a : SkipArgs) : TracedProc Unit := do
  if a.traceGiven then return ()
  else
    newTrace
    seed a.receivedAt a.decisionStartedAt a.processingStartedAt
    markBurst a.decisionStartedAt
    call (.setTrigger (some (a.trigger.getD ftpFallbackTrigger)))

/-- `record_skipped`. -/
def recordSkipped (cfg : Config) (a : SkipArgs) : TracedProc TracedResult := do
  let key ←
    gate (if truthy a.idempotencyKey then pure (a.idempotencyKey.getD "") else eventKey a.paths :
      Proc String)
  if ← gate (eventExists key) then
    let eventId ← store (.eventId key)
    match cfg.outboxEnabled, eventId with
    | true, some eventId => do
        let payload ← gate (outboxPayload cfg a.paths)
        let _ ← store (.ensureOutbox eventId payload)
    | _, _ => pure ()
    let reason ← gate (takenReason key)
    return ⟨{ opened := false, reason, eventId }, none⟩
  else
    skipTrace a
    call (.markDecision "denied" a.reason)
    let receivedAt ←
      (match a.receivedAt with
        | some receivedAt => pure receivedAt
        | none => env .clock : TracedProc DateTime)
    let decisionAt ← env .clock
    let eventId ← gate (record cfg {
      source := "ocr", reason := a.reason, opened := false, idempotencyKey := some key
      receivedAt, decisionAt := some decisionAt } a.paths)
    finishResult cfg { opened := false, reason := a.reason, eventId := some eventId }

/-! ## Deciding -/

/-- The quality of a frame, for the trace. -/
def measureFrame (sequence : Nat) (path digest : String) : TracedProc Unit := do
  match ← (Prog.perform (TracedEff.measure path digest)).attempt with
  | .ok quality => call (.addFrame { quality with sequence := some (sequence : ℚ) })
  | .error x => if x.isException then Prog.perform TracedEff.disable else .raise x

/-- `_recognise`, and whether it came to calling `on_start`. -/
def recognise (path : String) : TracedProc Recognised := do
  match ← (Prog.perform (TracedEff.recognise path)).attempt with
  | .ok r => return r
  | .error x => return ⟨none, .error x, "", ""⟩

/-- An `OcrAttemptTelemetry` without a reading. -/
def attempt (sequence : Nat) (status : String) : OcrAttemptTelemetry where
  frameSequence := some (sequence : ℚ)
  durationMs := some (some 0)
  status := status
  plate := ""
  confidence := none
  make := ""
  colour := ""

/-- The `OcrAttemptTelemetry` of a reading. -/
def observedAttempt (sequence : Nat) (o : PlateObservation) (r : Recognised) :
    OcrAttemptTelemetry where
  frameSequence := some (sequence : ℚ)
  durationMs := some (some 0)
  status := if truthy o.plate then "recognized" else "no_plate"
  plate := o.plate.getD ""
  confidence := some (some o.confidence)
  make := r.make
  colour := r.colour

/-- An attempt that had started, if it had. -/
def addStarted (r : Recognised) (sequence : Nat) (status : String) : TracedProc Unit :=
  if r.started.isSome then call (.addOcrAttempt (attempt sequence status)) else return ()

/-- The OCR loop, over the frames that are left and their digests. -/
def ocrLoop (cfg : Config) (started : ℚ) (authorised : List String) :
    Nat → List (String × String) → OcrState → TracedProc OcrState
  | _, [], s => return s
  | sequence, frame :: rest, s => do
      if cfg.decisionTimeout - ((← env .decisionClock) - started) ≤ 0 then
        return { s with timedOut := true }
      else
        measureFrame sequence frame.1 frame.2
        if cfg.decisionTimeout - ((← env .decisionClock) - started) ≤ 0 then
          return { s with timedOut := true }
        else
          let r ← recognise frame.1
          match r.outcome with
          | .error x =>
              if x.isException then
                addStarted r sequence "ocr_error"
                ocrLoop cfg started authorised (sequence + 1) rest
                  { s with failureReason := some "ocr_error" }
              else .raise x
          | .ok .busy =>
              call (.addOcrRejection (attempt sequence "ocr_busy"))
              return { s with failureReason := some "ocr_busy" }
          | .ok .deadlineExceeded =>
              addStarted r sequence "ocr_timeout"
              return { s with timedOut := true }
          | .ok (.observed plate confidence) =>
              call (.addOcrAttempt (observedAttempt sequence ⟨plate, confidence⟩ r))
              let observations := s.observations ++ [⟨plate, confidence⟩]
              let decision := decideAccess observations authorised
              let s := { s with observations, decision := some decision }
              if (← env .decisionClock) - started ≥ cfg.decisionTimeout then
                return { s with timedOut := true }
              else if decision.allowed then return s
              else ocrLoop cfg started authorised (sequence + 1) rest s

/-- `FINAL_INHIBITION_REASONS`. -/
def finalInhibitionReasons : List String :=
  ["stale_burst", "authorisation_error", "authorisation_revoked", "decision_timeout",
    "processor_closed"]

/-- `_actuation_telemetry`: the claim, whether the relay was attempted, and its outcome. -/
def actuationTelemetry (execution : ActuationExecution) : String × Bool × String :=
  if execution.opened then ("claimed", true, "activated")
  else if execution.reason = "cooldown" then ("cooldown", false, "not_attempted")
  else if execution.reason = "actuation_inhibit_error" then
    ("claim_error", false, "not_attempted")
  else if execution.reason = "relay_latched" then ("claimed", false, "relay_latched")
  else if execution.reason ∈ finalInhibitionReasons then ("claimed", false, "inhibited")
  else if execution.reason = "indeterminate_claim" then ("claimed", true, "indeterminate")
  else ("claimed", true, execution.reason)

/-- What the trace is told about the coordinator's answer. -/
def tellExecution (execution : ActuationExecution) : TracedProc Unit := do
  if execution.reason ∈ finalInhibitionReasons then
    call (.reviseDecision "denied" execution.reason)
  else pure ()
  let told := actuationTelemetry execution
  call (.setActuationOutcome told.1 told.2.1 told.2.2)

/-- The part of `process` that follows a decision to open. -/
def open_ (owner : CallId) (cfg : Config) (key : String) (receivedAt decisionAt : DateTime)
    (activationDeadline : ℚ) (decision : MatchDecision) (payload : Option Fields) :
    TracedProc TracedResult := do
  let actuationAt ← env .clock
  if !isFresh actuationAt receivedAt cfg.maxImageAge then
    let event := deniedEvent key receivedAt actuationAt "stale_burst" decision
    let eventId ← store (.recordEventWithOutbox event payload)
    finishResult cfg ⟨false, "stale_burst", some eventId, some decision⟩
  else
    let event := decidedEvent key receivedAt decisionAt decision
    let execution ← gate (Proc.withLock .actuation (actuate owner cfg {
      event
      outboxPayload := payload
      preActivationInhibit := some (finalInhibition cfg receivedAt
        (decision.authorisedPlate.getD "") activationDeadline)
      onActivation := true
      onDeactivation := true }))
    tellExecution execution
    finishResult cfg ⟨execution.opened, execution.reason, execution.eventId, some decision⟩

/-- The part of `process` that follows a decision. -/
def conclude (owner : CallId) (cfg : Config) (paths : List String) (key : String)
    (receivedAt : DateTime) (activationDeadline : ℚ) (s : OcrState) (decision : MatchDecision) :
    TracedProc TracedResult := do
  let decisionAt ← env .clock
  if s.timedOut then
    call (.markDecision "denied" "decision_timeout")
    let eventId ← gate (record cfg
      (deniedEvent key receivedAt decisionAt "decision_timeout" decision) paths)
    finishResult cfg ⟨false, "decision_timeout", some eventId, some decision⟩
  else if !isFresh decisionAt receivedAt cfg.maxImageAge then
    call (.markDecision "denied" "stale_burst")
    let eventId ← gate (record cfg
      (deniedEvent key receivedAt decisionAt "stale_burst" decision) paths)
    finishResult cfg ⟨false, "stale_burst", some eventId, some decision⟩
  else
    let reason := if s.failureReason = some "ocr_error" then "ocr_error" else decision.reason
    if decision.allowed then call (.markDecision "allowed" decision.reason)
    else call (.markDecision "denied" reason)
    let payload ← gate (outboxPayload cfg paths true)
    if decision.allowed then
      open_ owner cfg key receivedAt decisionAt activationDeadline decision payload
    else
      let eventId ← store (.recordEventWithOutbox
        (deniedEvent key receivedAt decisionAt reason decision) payload)
      finishResult cfg ⟨false, reason, some eventId, some decision⟩

/-- The part of `process` that follows the determination of `received_at`. -/
def decideReceived (owner : CallId) (cfg : Config) (candidates : List (String × String))
    (key : String) (started : ℚ) (receivedAt : DateTime) : TracedProc TracedResult := do
  let paths := candidates.map Prod.fst
  let now ← env .clock
  let skip (reason : String) : TracedProc TracedResult :=
    recordSkipped cfg
      { paths, reason, receivedAt := some receivedAt, idempotencyKey := some key
        traceGiven := true }
  if (← env .decisionClock) - started ≥ cfg.decisionTimeout then skip "decision_timeout"
  else if !isFresh now receivedAt cfg.maxImageAge then skip "stale_burst"
  else
    match ← (env .authorised).attempt with
    | .error x => if x.isException then skip "authorisation_error" else .raise x
    | .ok authorised =>
        let s ← ocrLoop cfg started authorised 0 (candidates.take maxOcrFrames) {}
        let s ←
          (if s.decision.any MatchDecision.allowed then pure s
          else do
            if (← env .decisionClock) - started ≥ cfg.decisionTimeout then
              return { s with timedOut := true }
            else return s : TracedProc OcrState)
        match s.decision with
        | none =>
            skip (if s.timedOut then "decision_timeout" else s.failureReason.getD "no_match")
        | some decision =>
            conclude owner cfg paths key receivedAt
              (started + cfg.decisionTimeout - cfg.activationGuardSeconds) s decision

/-- The part of `process` that follows the check for duplicates. -/
def decideBurst (owner : CallId) (cfg : Config) (a : ProcessArgs)
    (candidates : List (String × String)) (key : String) (started : ℚ) :
    TracedProc TracedResult := do
  newTrace
  call (.setTrigger a.trigger)
  seed a.receivedAt a.decisionStartedAt a.processingStartedAt
  markBurst a.decisionStartedAt
  let receivedAt ←
    (match a.receivedAt with
      | some receivedAt => pure receivedAt
      | none => env .clock : TracedProc DateTime)
  decideReceived owner cfg candidates key started receivedAt

/-- `process`. -/
def process (owner : CallId) (cfg : Config) (a : ProcessArgs) : TracedProc TracedResult := do
  let started ←
    (match a.decisionStartedAt with
      | some started => pure started
      | none => env .decisionClock : TracedProc ℚ)
  let candidates ← gate (uniqueContentCandidates [] a.paths)
  let key := keyOr a.idempotencyKey (eventKeyFromDigests (candidates.map Prod.snd))
  if ← gate (eventExists key) then
    if cfg.outboxEnabled then
      let eventId ←
        (do
          match ← store (.terminalOutcome key) with
          | some terminal => return terminal.eventId
          | none => store (.eventId key) : TracedProc (Option Nat))
      match eventId with
      | some eventId =>
          let payload ← gate (outboxPayload cfg (candidates.map Prod.fst))
          let _ ← store (.ensureOutbox eventId payload)
      | none => pure ()
    let reason ← gate (takenReason key)
    return ⟨{ opened := false, reason }, none⟩
  else decideBurst owner cfg a candidates key started

end TracedProcessor

end GateController

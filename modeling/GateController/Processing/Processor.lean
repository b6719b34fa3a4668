import GateController.Actuation.Coordinator
import GateController.Processing.Matching

/-!
# The gate processor

`GateProcessor.process` and `record_skipped`.  A burst of frames is identified
by the digest of its first frame, read by OCR, decided, and either recorded as
denied or handed to the coordinator.

Traces are best effort: their operations swallow every exception and decide
nothing, so only the trace that is left at the end appears, as `finishTrace`.
The measurement of a frame's quality feeds nothing but the trace.  How one OCR
request is bounded in time is behind the operation `recognise`.
-/

namespace GateController

open Data Effects Proc LocalStore ActuationCoordinator

namespace GateProcessor

/-- What `process` and `record_skipped` return. -/
structure ProcessingResult where
  opened : Bool
  reason : String
  eventId : Option Nat := none
  decision : Option MatchDecision := none

/-- The arguments of `process`. -/
structure ProcessArgs where
  paths : List String
  receivedAt : Option DateTime := none
  decisionStartedAt : Option ℚ := none
  idempotencyKey : Option String := none

/-- The arguments of `record_skipped`. -/
structure SkipArgs where
  paths : List String
  reason : String
  receivedAt : Option DateTime := none
  idempotencyKey : Option String := none

/-- `MAX_OCR_FRAMES`. -/
def maxOcrFrames : Nat := 3

/-! ## Keys -/

/-- The digest of a burst without frames. -/
def emptyBurst : String := "4d1fe7e1f9979f93d5819d8399be0c8cfe526dce9bb51b80d9bdaf8176f2bbf2"

/-- `_unique_content_candidates`: the paths with their digests, the first path of
each digest. -/
def uniqueContentCandidates (seen : List String) : List String → Proc (List (String × String))
  | [] => return []
  | path :: rest => do
      let digest ← env (.contentDigest path)
      if digest ∈ seen then uniqueContentCandidates seen rest
      else
        let others ← uniqueContentCandidates (digest :: seen) rest
        return (path, digest) :: others

/-- `_event_key_from_digests`. -/
def eventKeyFromDigests (digests : List String) : String := digests.headD emptyBurst

/-- `_event_key`. -/
def eventKey : List String → Proc String
  | [] => return emptyBurst
  | path :: _ => env (.contentDigest path)

/-- `idempotency_key or default`. -/
def keyOr (key : Option String) (default : String) : String :=
  if truthy key then key.getD "" else default

/-! ## Recording -/

/-- `event_exists`: two reads. -/
def eventExists (key : String) : Proc Bool := do
  if (← store (.actuationClaimStatus key)).isSome then return true
  else return (← store (.eventId key)).isSome

/-- `_outbox_payload`. -/
def outboxPayload (cfg : Config) (paths : List String) (awaitTelemetry : Bool := false) :
    Proc (Option Fields) := do
  if !cfg.outboxEnabled then return none
  else
    let payload ← env (.preparePayload paths.head?)
    if awaitTelemetry then return some (Fields.set payload "_awaiting_telemetry" (.bool true))
    else return some payload

/-- `_record`. -/
def record (cfg : Config) (event : GateEvent) (paths : List String) : Proc Nat := do
  let payload ← outboxPayload cfg paths true
  store (.recordEventWithOutbox event payload)

/-- `_release_outbox_without_telemetry`. -/
def releaseOutboxWithoutTelemetry (cfg : Config) : Option Nat → Proc Unit
  | none => return ()
  | some eventId =>
      if cfg.outboxEnabled then
        exceptException (store (.releaseOutboxWithoutTelemetry eventId)) (return ())
      else return ()

/-- `_finish_result`. -/
def finishResult (cfg : Config) (result : ProcessingResult) : Proc ProcessingResult := do
  match ← exceptException (env .finishTrace) (return none) with
  | none =>
      releaseOutboxWithoutTelemetry cfg result.eventId
      return result
  | some telemetry =>
      match result.eventId with
      | none => return result
      | some eventId =>
          exceptException (store (.attachEventTelemetry eventId telemetry))
            (releaseOutboxWithoutTelemetry cfg (some eventId))
          return result

/-- The reason a key that is taken is reported with. -/
def takenReason (key : String) : Proc String := do
  match ← store (.actuationClaimStatus key) with
  | some status => return status.text
  | none => return "duplicate_event"

/-- `record_skipped`. -/
def recordSkipped (cfg : Config) (a : SkipArgs) : Proc ProcessingResult := do
  let key ←
    (if truthy a.idempotencyKey then pure (a.idempotencyKey.getD "") else eventKey a.paths :
      Proc String)
  if ← eventExists key then
    let eventId ← store (.eventId key)
    match cfg.outboxEnabled, eventId with
    | true, some eventId => do
        let payload ← outboxPayload cfg a.paths
        let _ ← store (.ensureOutbox eventId payload)
    | _, _ => pure ()
    let reason ← takenReason key
    return { opened := false, reason, eventId }
  else
    let receivedAt ←
      (match a.receivedAt with
        | some receivedAt => pure receivedAt
        | none => env .clock : Proc DateTime)
    let decisionAt ← env .clock
    let eventId ← record cfg {
      source := "ocr", reason := a.reason, opened := false, idempotencyKey := some key
      receivedAt, decisionAt := some decisionAt } a.paths
    finishResult cfg { opened := false, reason := a.reason, eventId := some eventId }

/-! ## Deciding -/

/-- `_is_fresh`.  Times with and without a zone cannot be subtracted. -/
def isFresh (now receivedAt : DateTime) (maxAge : Int) : Bool :=
  now.offset.isSome == receivedAt.offset.isSome &&
    (let age : Int := now.utc.val - receivedAt.utc.val
     decide (0 ≤ age) && decide (age ≤ maxAge))

/-- What the OCR loop has found so far. -/
structure OcrState where
  observations : List PlateObservation := []
  failureReason : Option String := none
  decision : Option MatchDecision := none
  timedOut : Bool := false

/-- The OCR loop, over the frames that are left. -/
def ocrLoop (cfg : Config) (started : ℚ) (authorised : List String) :
    List String → OcrState → Proc OcrState
  | [], s => return s
  | path :: rest, s => do
      if cfg.decisionTimeout - ((← env .decisionClock) - started) ≤ 0 then
        return { s with timedOut := true }
      else if cfg.decisionTimeout - ((← env .decisionClock) - started) ≤ 0 then
        return { s with timedOut := true }
      else
        match ← (env (.recognise path)).attempt with
        | .error x =>
            if x.isException then
              ocrLoop cfg started authorised rest { s with failureReason := some "ocr_error" }
            else .raise x
        | .ok .busy => return { s with failureReason := some "ocr_busy" }
        | .ok .deadlineExceeded => return { s with timedOut := true }
        | .ok (.observed plate confidence) =>
            let observations := s.observations ++ [⟨plate, confidence⟩]
            let decision := decideAccess observations authorised
            let s := { s with observations, decision := some decision }
            if (← env .decisionClock) - started ≥ cfg.decisionTimeout then
              return { s with timedOut := true }
            else if decision.allowed then return s
            else ocrLoop cfg started authorised rest s

/-- `_denied_event`. -/
def deniedEvent (key : String) (receivedAt decisionAt : DateTime) (reason : String)
    (decision : MatchDecision) : GateEvent where
  source := "ocr"
  reason := reason
  opened := false
  idempotencyKey := some key
  receivedAt := receivedAt
  decisionAt := some decisionAt
  authorisedPlate := decision.authorisedPlate
  observedPlate := decision.observedPlate
  ocrConfidence := decision.confidence

/-- The event of a decision, as `process` builds it. -/
def decidedEvent (key : String) (receivedAt decisionAt : DateTime) (decision : MatchDecision) :
    GateEvent := deniedEvent key receivedAt decisionAt decision.reason decision

/-- The `activation_inhibition` of `process`. -/
def finalInhibition (cfg : Config) (receivedAt : DateTime) (plate : String)
    (activationDeadline : ℚ) : Asking (Option Inhibition) := do
  if ← Prog.perform EnvOp.closed then return some ⟨"failed", "processor_closed"⟩
  else
    let now ← Prog.perform EnvOp.clock
    if !isFresh now receivedAt cfg.maxImageAge then return some ⟨"failed", "stale_burst"⟩
    else
      match ← (Prog.perform EnvOp.authorised).attempt with
      | .error x => if x.isException then return some ⟨"failed", "authorisation_error"⟩ else .raise x
      | .ok authorised =>
          if normalisePlate plate ∉ authorised.map normalisePlate then
            return some ⟨"failed", "authorisation_revoked"⟩
          else if (← Prog.perform EnvOp.decisionClock) ≥ activationDeadline then
            return some ⟨"failed", "decision_timeout"⟩
          else return none

/-- The part of `process` that follows a decision to open. -/
def open_ (owner : CallId) (cfg : Config) (key : String) (receivedAt decisionAt : DateTime)
    (activationDeadline : ℚ) (decision : MatchDecision) (payload : Option Fields) :
    Proc ProcessingResult := do
  let actuationAt ← env .clock
  if !isFresh actuationAt receivedAt cfg.maxImageAge then
    let event := deniedEvent key receivedAt actuationAt "stale_burst" decision
    let eventId ← store (.recordEventWithOutbox event payload)
    finishResult cfg ⟨false, "stale_burst", some eventId, some decision⟩
  else
    let event := decidedEvent key receivedAt decisionAt decision
    let execution ← withLock .actuation (actuate owner cfg {
      event
      outboxPayload := payload
      preActivationInhibit := some (finalInhibition cfg receivedAt
        (decision.authorisedPlate.getD "") activationDeadline)
      onActivation := true
      onDeactivation := true })
    finishResult cfg ⟨execution.opened, execution.reason, execution.eventId, some decision⟩

/-- The part of `process` that follows a decision. -/
def conclude (owner : CallId) (cfg : Config) (paths : List String) (key : String)
    (receivedAt : DateTime) (activationDeadline : ℚ) (s : OcrState) (decision : MatchDecision) :
    Proc ProcessingResult := do
  let decisionAt ← env .clock
  if s.timedOut then
    let eventId ← record cfg (deniedEvent key receivedAt decisionAt "decision_timeout" decision)
      paths
    finishResult cfg ⟨false, "decision_timeout", some eventId, some decision⟩
  else if !isFresh decisionAt receivedAt cfg.maxImageAge then
    let eventId ← record cfg (deniedEvent key receivedAt decisionAt "stale_burst" decision) paths
    finishResult cfg ⟨false, "stale_burst", some eventId, some decision⟩
  else
    let payload ← outboxPayload cfg paths true
    if decision.allowed then
      open_ owner cfg key receivedAt decisionAt activationDeadline decision payload
    else
      let reason := if s.failureReason = some "ocr_error" then "ocr_error" else decision.reason
      let eventId ← store (.recordEventWithOutbox
        (deniedEvent key receivedAt decisionAt reason decision) payload)
      finishResult cfg ⟨false, reason, some eventId, some decision⟩

/-- The part of `process` that follows the check for duplicates. -/
def decideBurst (owner : CallId) (cfg : Config) (a : ProcessArgs) (paths : List String)
    (key : String) (started : ℚ) : Proc ProcessingResult := do
  let receivedAt ←
    (match a.receivedAt with
      | some receivedAt => pure receivedAt
      | none => env .clock : Proc DateTime)
  let now ← env .clock
  let skip (reason : String) : Proc ProcessingResult :=
    recordSkipped cfg
      { paths, reason, receivedAt := some receivedAt, idempotencyKey := some key }
  if (← env .decisionClock) - started ≥ cfg.decisionTimeout then skip "decision_timeout"
  else if !isFresh now receivedAt cfg.maxImageAge then skip "stale_burst"
  else
    match ← (env .authorised).attempt with
    | .error x => if x.isException then skip "authorisation_error" else .raise x
    | .ok authorised =>
        let s ← ocrLoop cfg started authorised (paths.take maxOcrFrames) {}
        let s ←
          (if s.decision.any MatchDecision.allowed then pure s
          else do
            if (← env .decisionClock) - started ≥ cfg.decisionTimeout then
              return { s with timedOut := true }
            else return s : Proc OcrState)
        match s.decision with
        | none =>
            skip (if s.timedOut then "decision_timeout" else s.failureReason.getD "no_match")
        | some decision =>
            conclude owner cfg paths key receivedAt
              (started + cfg.decisionTimeout - cfg.activationGuardSeconds) s decision

/-- `process`. -/
def process (owner : CallId) (cfg : Config) (a : ProcessArgs) : Proc ProcessingResult := do
  let started ←
    (match a.decisionStartedAt with
      | some started => pure started
      | none => env .decisionClock : Proc ℚ)
  let candidates ← uniqueContentCandidates [] a.paths
  let paths := candidates.map Prod.fst
  let key := keyOr a.idempotencyKey (eventKeyFromDigests (candidates.map Prod.snd))
  if ← eventExists key then
    if cfg.outboxEnabled then
      let eventId ←
        (do
          match ← store (.terminalOutcome key) with
          | some terminal => return terminal.eventId
          | none => store (.eventId key) : Proc (Option Nat))
      match eventId with
      | some eventId =>
          let payload ← outboxPayload cfg paths
          let _ ← store (.ensureOutbox eventId payload)
      | none => pure ()
    let reason ← takenReason key
    return { opened := false, reason }
  else decideBurst owner cfg a paths key started

end GateProcessor

end GateController

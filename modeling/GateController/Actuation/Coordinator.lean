import GateController.Data.Wall
import GateController.Relay.Controller
import Mathlib.Data.Rat.Defs

/-!
# The actuation coordinator

`ActuationCoordinator.actuate`: look the key up, claim it, mark the attempt,
pulse the relay and finalize, all under one lock.  Every store call is its own
transaction.
-/

namespace GateController

open Data Effects Proc LocalStore

/-- The parameters of the objects of a process. -/
structure Config where
  controllerId : String := "gate"
  /-- The cooldown, in microseconds. -/
  cooldown : Int := 20000000
  maxOffAttempts : Nat := 3
  relayKind : RelayKind := .takesInhibit
  /-- `max_command_lifetime`, in microseconds. -/
  maxCommandLifetime : Int := 10000000
  /-- Whether there is a prompt player. -/
  promptPlayer : Bool := true
  /-- `max_image_age`, in microseconds. -/
  maxImageAge : Int := 8000000
  decisionTimeout : ℚ := 4
  activationGuardSeconds : ℚ := 1 / 10
  outboxEnabled : Bool := true
  /-- `datetime.fromisoformat` of the interpreter, without a value where it raises
  `ValueError`. -/
  fromisoformat : String → Option Wall := readWall

/-- `cooldown.total_seconds()`. -/
def Config.cooldownSeconds (cfg : Config) : ℚ := cfg.cooldown / 1000000

namespace ActuationCoordinator

/-- The arguments of `actuate`. -/
structure ActuateArgs where
  event : GateEvent
  outboxPayload : Option Fields := none
  commandAck : Option CommandAck := none
  preActivationInhibit : Option (Asking (Option Inhibition)) := none
  onActivation : Bool := false
  onDeactivation : Bool := false

/-- The answer when the claim or the marker could not be written. -/
def inhibitError : ActuationExecution where
  opened := false
  reason := "actuation_inhibit_error"
  terminalDetail := some "actuation_inhibit_error"

/-- The answer when the outcome could not be written. -/
def indeterminate : ActuationExecution where
  opened := false
  reason := "indeterminate_claim"
  terminalDetail := some "indeterminate_claim"

/-- The event of a call that the cooldown refuses. -/
def cooldownEvent (event : GateEvent) (claimTime : DateTime) : GateEvent :=
  { event with
    reason := "cooldown", opened := false, decisionAt := some claimTime
    relayActivatedAt := none }

/-- `_reconcile_outbox`. -/
def reconcileOutbox : Option Nat → Option Fields → Proc Unit
  | some eventId, some payload => do let _ ← store (.ensureOutbox eventId (some payload))
  | _, _ => return ()

/-- The answer for a key whose outcome is known. -/
def replay (a : ActuateArgs) (terminal : TerminalOutcome) : Proc ActuationExecution := do
  reconcileOutbox terminal.eventId a.outboxPayload
  match a.commandAck with
  | some ack => store (.queueCommandAck ack terminal.status terminal.detail)
  | none => pure ()
  return {
    opened := false
    reason := if truthy terminal.detail then terminal.detail.getD "" else terminal.status
    eventId := terminal.eventId
    terminalStatus := terminal.status
    terminalDetail := terminal.detail }

/-- The arguments of the claim. -/
def claimArgs (cfg : Config) (a : ActuateArgs) (key : String) (claimTime cutoff : DateTime)
    (monotonicNow : ℚ) (bootId : Option String) : ClaimArgs where
  idempotencyKey := key
  claimedAt := claimTime
  cooldownCutoff := some cutoff
  monotonicCutoff := some (monotonicNow - cfg.cooldownSeconds)
  bootId := bootId
  event := some a.event
  outboxPayload := a.outboxPayload
  commandAck := a.commandAck

/-- The `try` around the claim: the reading of the monotonic clock, the boot id and
the claim. -/
def claim (cfg : Config) (a : ActuateArgs) (key : String) (claimTime : DateTime) :
    Proc (ℚ × Option String × ActuationClaim) := do
  let monotonicNow ← device .monotonicClock
  let cutoff ← Prog.ofExcept (DateTime.minus claimTime cfg.cooldown)
  let bootId ← mem .bootId
  let claim ← store (.claimActuation (claimArgs cfg a key claimTime cutoff monotonicNow bootId))
  return (monotonicNow, bootId, claim)

/-- The database's cooldown refuses the call. -/
def refuse (a : ActuateArgs) (claimTime : DateTime) : Proc ActuationExecution := do
  let eventId ← store (.recordTerminalOutcome {
    event := cooldownEvent a.event claimTime
    status := "failed"
    detail := some "cooldown"
    outboxPayload := a.outboxPayload
    commandAck := a.commandAck })
  return { opened := false, reason := "cooldown", eventId, terminalDetail := some "cooldown" }

/-- The cooldown in memory refuses the call. -/
def refuseClaimed (a : ActuateArgs) (claimTime : DateTime) (claim : ActuationClaim) :
    Proc ActuationExecution :=
  exceptException (do
    let eventId ← store (.finalizeActuation {
      claim
      event := cooldownEvent a.event claimTime
      terminalStatus := some "failed"
      terminalDetail := some "cooldown"
      outboxPayload := a.outboxPayload
      commandAck := a.commandAck })
    return {
      opened := false
      reason := "cooldown"
      eventId := some eventId
      terminalDetail := some "cooldown" })
    (return indeterminate)

/-- The arguments of the marker. -/
def markArgs (a : ActuateArgs) (claimTime : DateTime) (monotonicNow : ℚ) (bootId : Option String)
    (claim : ActuationClaim) : MarkArgs where
  claim := claim
  attemptedAt := claimTime
  event := a.event
  outboxPayload := a.outboxPayload
  commandAck := a.commandAck
  attemptedMonotonic := some monotonicNow
  bootId := bootId

/-- `check_inhibition`. -/
def checkInhibition (check : Asking (Option Inhibition)) : Proc (Option Inhibition) := do
  let inhibition ← asking check
  mem (.setInhibition inhibition)
  return inhibition

/-- The arguments that `actuate` hands to `trigger`. -/
def triggerArgs (a : ActuateArgs) (key : String) : RelayController.TriggerArgs where
  source := a.event.source
  idempotencyKey := some key
  preActivationInhibit := a.preActivationInhibit.map checkInhibition
  onActivation :=
    if a.onActivation then some (exceptException (env .onActivation) (return ())) else none
  onDeactivation := a.onDeactivation

/-- Whether the call counts as an attempt to activate. -/
def activationAttempted (inhibition : Option Inhibition) (result : RelayResult) : Bool :=
  inhibition.isNone && result.reason != "relay_latched"

/-- The event of a call that came to the relay. -/
def finalEvent (event : GateEvent) (result : RelayResult) (decisionAt : Option DateTime) :
    GateEvent :=
  { event with
    reason := if result.activated then event.reason else result.reason
    opened := result.activated
    decisionAt
    relayActivatedAt := result.activatedAt }

/-- The status of a call that came to the relay. -/
def finalStatus (inhibition : Option Inhibition) (result : RelayResult) : String :=
  match inhibition with
  | some inhibition => inhibition.status
  | none => if result.activated then "completed" else "failed"

/-- The detail of a call that came to the relay. -/
def finalDetail (inhibition : Option Inhibition) (result : RelayResult) : Option String :=
  match inhibition with
  | some inhibition => some inhibition.detail
  | none => if result.activated then none else some result.reason

/-- The arguments of the last store call. -/
def finalArgs (a : ActuateArgs) (claim : ActuationClaim) (result : RelayResult)
    (inhibition : Option Inhibition) (decisionAt : Option DateTime) : FinalizeArgs where
  claim := claim
  event := finalEvent a.event result decisionAt
  terminalStatus := some (finalStatus inhibition result)
  terminalDetail := finalDetail inhibition result
  outboxPayload := a.outboxPayload
  commandAck := a.commandAck
  retainActivationAttempt := activationAttempted inhibition result

/-- Store what came of the call. -/
def finalize (a : ActuateArgs) (claim : ActuationClaim) (result : RelayResult)
    (inhibition : Option Inhibition) (decisionAt : Option DateTime) : Proc ActuationExecution :=
  exceptException (do
    let eventId ← store (.finalizeActuation (finalArgs a claim result inhibition decisionAt))
    return {
      opened := result.activated
      reason := (finalEvent a.event result decisionAt).reason
      eventId := some eventId
      terminalStatus := finalStatus inhibition result
      terminalDetail := finalDetail inhibition result })
    (return indeterminate)

/-- What follows the stamp of the attempt. -/
def conclude (a : ActuateArgs) (claim : ActuationClaim) (result : RelayResult)
    (inhibition : Option Inhibition) : Proc ActuationExecution := do
  match inhibition with
  | some _ =>
      let now ← env .clock
      finalize a claim result inhibition (some now)
  | none => finalize a claim result inhibition a.event.decisionAt

/-- What follows the return of `trigger`. -/
def settle (a : ActuateArgs) (claim : ActuationClaim) (result : RelayResult) :
    Proc ActuationExecution := do
  let inhibition ← mem .inhibition
  if activationAttempted inhibition result then
    let lastAttempt ← device .monotonicClock
    mem (.setLastAttempt lastAttempt)
  conclude a claim result inhibition

/-- Mark the attempt, pulse, finalize. -/
def activate (owner : CallId) (cfg : Config) (a : ActuateArgs) (key : String)
    (claimTime : DateTime) (monotonicNow : ℚ) (bootId : Option String) (claim : ActuationClaim) :
    Proc ActuationExecution := do
  let args := markArgs a claimTime monotonicNow bootId claim
  match ← (store (.markActuationAttempt args)).attempt with
  | .error x => if x.isException then return inhibitError else .raise x
  | .ok () =>
      mark (.triggerCalled key a.preActivationInhibit)
      let result ← RelayController.trigger owner cfg.relayKind cfg.maxOffAttempts
        (triggerArgs a key)
      settle a claim result

/-- What follows a claim, by its status. -/
def afterClaim (owner : CallId) (cfg : Config) (a : ActuateArgs) (key : String)
    (claimTime : DateTime) (monotonicNow : ℚ) (bootId : Option String) (claim : ActuationClaim) :
    Proc ActuationExecution :=
  match claim.status with
  | .cooldown => refuse a claimTime
  | .claimed => do
      match ← mem .lastAttempt with
      | some lastAttempt =>
          if monotonicNow - lastAttempt < cfg.cooldownSeconds then refuseClaimed a claimTime claim
          else activate owner cfg a key claimTime monotonicNow bootId claim
      | none => activate owner cfg a key claimTime monotonicNow bootId claim
  | status =>
      return { opened := false, reason := status.text, terminalDetail := some status.text }

/-- `actuate`, inside the lock. -/
def actuateLocked (owner : CallId) (cfg : Config) (a : ActuateArgs) (key : String) :
    Proc ActuationExecution := do
  match ← store (.terminalOutcome key) with
  | some terminal => replay a terminal
  | none =>
      let claimTime ←
        (match a.event.decisionAt with
          | some decisionAt => pure decisionAt
          | none => env .clock : Proc DateTime)
      match ← (claim cfg a key claimTime).attempt with
      | .error x => if x.isException then return inhibitError else .raise x
      | .ok (monotonicNow, bootId, claim) =>
          afterClaim owner cfg a key claimTime monotonicNow bootId claim

/-- `actuate`. -/
def actuate (owner : CallId) (cfg : Config) (a : ActuateArgs) : Proc ActuationExecution :=
  match a.event.idempotencyKey with
  | none => .raise (.valueError "actuation events require an idempotency key")
  | some key =>
      if key = "" then .raise (.valueError "actuation events require an idempotency key")
      else withLock .coordinator (actuateLocked owner cfg a key)

end ActuationCoordinator

end GateController

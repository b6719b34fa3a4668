import GateController.Runtime.Effects

/-!
# The relay controller

`RelayController` and the part of `PiRelay.Relay` under it.  The activation
boundary is re-entrant, and `Relay.on` and `Relay.off` enter it again while the
controller holds it.  Entering it again does nothing, so only the outer entry is
an operation.

The body of the `try` in `trigger` is cut where the handler has to know whether
`activated_at` was assigned.
-/

namespace GateController

open Data Effects Proc

/-- Whether `on()` of a relay takes `pre_activation_inhibit`, as `PiRelay.Relay`
does, and evaluates it itself. -/
inductive RelayKind where
  | takesInhibit
  | plain
deriving DecidableEq

namespace RelayController

/-- The arguments of `trigger`. -/
structure TriggerArgs where
  source : String
  idempotencyKey : Option String := none
  preActivationInhibit : Option (Proc (Option Inhibition)) := none
  onActivation : Option (Proc Unit) := none
  onDeactivation : Bool := false

/-! ## De-energising -/

/-- `_record_outcome`. -/
def recordOutcome (outcome : String) (observedAt : Option DateTime := none) : Proc Unit := do
  relay (.setOutcome outcome)
  match observedAt with
  | some at_ => relay (.setOutcomeAt at_)
  | none =>
      let at_ ← env .clock
      relay (.setOutcomeAt at_)

/-- `_AfterEvent.__call__` of the callback that a trigger call has left. -/
def afterEvent (owner : CallId) : Proc Unit := do
  relay (.waitActivation owner)
  let r ← (env (.onDeactivation owner)).attempt
  relay (.setNotified owner)
  Prog.ofExcept r

/-- `_notify`. -/
def notify : Option CallId → Proc Unit
  | none => return ()
  | some owner => exceptException (afterEvent owner) (return ())

/-- `_notify_without_waiting`. -/
def notifyWithoutWaiting : Option CallId → Proc Unit
  | none => return ()
  | some owner => do
      if ← relay (.activationReady owner) then notify (some owner)
      else exceptException (relay (.startReport owner)) (relay (.setNotified owner))

/-- `_deenergize_at_boundary`, with the attempts that are left. -/
def deenergizeAtBoundary : Nat → Proc Bool
  | 0 => return false
  | attempts + 1 => do
      match ← (relay .low).attempt with
      | .ok () => return true
      | .error x => if x.isException then deenergizeAtBoundary attempts else .raise x

/-- The section of `_deenergize` and `begin_shutdown` that turns the output off. -/
def offAtBoundary (maxOffAttempts : Nat) : Proc (Bool × Option CallId) := do
  let safe ← deenergizeAtBoundary maxOffAttempts
  if safe then
    let callback ← relay .takeCallback
    return (true, callback)
  else return (false, none)

/-- `_deenergize`. -/
def deenergize (maxOffAttempts : Nat) : Proc Bool := do
  let r ← withLock .boundary (offAtBoundary maxOffAttempts)
  notify r.2
  return r.1

/-- `__init__`, as far as it acts. -/
def construct (maxOffAttempts : Nat) : Proc Unit := do
  if maxOffAttempts < 1 then .raise (.valueError "max_off_attempts must be positive")
  else
    let safe ← deenergize maxOffAttempts
    relay (.setLatched !safe)
    recordOutcome (if safe then "initialized_safe" else "relay_deenergize_error")
    relay .constructed

/-- `begin_shutdown`. -/
def beginShutdown (maxOffAttempts : Nat) : Proc Bool := do
  let r ← withLock .boundary do
    relay .setShutdown
    relay (.setLatched true)
    offAtBoundary maxOffAttempts
  notifyWithoutWaiting r.2
  recordOutcome (if r.1 then "shutdown_safe" else "relay_deenergize_error")
  return r.1

/-! ## Pulses -/

/-- One evaluation of `pre_activation_inhibit`. -/
def evaluate : Option (Proc (Option Inhibition)) → Proc (Option Inhibition)
  | none => return none
  | some check => do
      mark .evaluating
      let inhibition ← check
      mark (.evaluated inhibition)
      return inhibition

/-- `activation_inhibition`. -/
def activationInhibition (check : Option (Proc (Option Inhibition))) :
    Proc (Option Inhibition) := do
  match ← evaluate check with
  | some inhibition => return some inhibition
  | none =>
      if ← relay .shutdownIsSet then return some ⟨"failed", "relay_latched"⟩
      else return none

/-- The answer of a call that was refused. -/
def refusal (key : Option String) (detail : String) : RelayResult where
  activated := false
  reason := detail
  idempotencyKey := key
  latched := detail == "relay_latched"

/-- Turn the output on unless the check objects: inside `on()` if it takes the
check, before it otherwise. -/
def turnOn (kind : RelayKind) (check : Proc (Option Inhibition)) : Proc (Option Inhibition) :=
  match kind with
  | .takesInhibit => do
      match ← check with
      | some inhibition => return some inhibition
      | none =>
          relay .high
          return none
  | .plain => do
      match ← check with
      | some inhibition => return some inhibition
      | none =>
          relay .high
          return none

/-- The check is made at the same place either way. -/
theorem turnOn_eq (kind : RelayKind) (check : Proc (Option Inhibition)) :
    turnOn kind check = turnOn .plain check := by
  cases kind with
  | takesInhibit => rfl
  | plain => rfl

/-- The section of `trigger` inside the activation boundary.  The answer is a
refusal, or none if the output was turned on. -/
def energise (owner : CallId) (kind : RelayKind) (a : TriggerArgs) :
    Proc (Option RelayResult) := do
  match ← turnOn kind (activationInhibition a.preActivationInhibit) with
  | some inhibition =>
      recordOutcome inhibition.detail
      return some (refusal a.idempotencyKey inhibition.detail)
  | none =>
      relay (.setCallback (if a.onDeactivation then some owner else none))
      return none

/-- The handler of `trigger`. -/
def failed (maxOffAttempts : Nat) (a : TriggerArgs) (activatedAt : Option DateTime) (x : Exc) :
    Proc RelayResult := do
  if ← deenergize maxOffAttempts then
    recordOutcome "relay_error" activatedAt
    if x.isException then
      return ⟨false, "relay_error", a.idempotencyKey, activatedAt, false⟩
    else .raise x
  else
    relay (.setLatched true)
    recordOutcome "relay_deenergize_error"
    if x.isException then
      return ⟨false, "relay_deenergize_error", a.idempotencyKey, activatedAt, true⟩
    else .raise x

/-- The end of `trigger` after a full pulse. -/
def finish (owner : CallId) (maxOffAttempts : Nat) (a : TriggerArgs) (activatedAt : DateTime) :
    Proc RelayResult := do
  if ← deenergize maxOffAttempts then
    if a.onDeactivation then relay (.waitNotified owner)
    if ← relay .shutdownIsSet then recordOutcome "shutdown_safe"
    else recordOutcome "activated" activatedAt
    return ⟨true, "activated", a.idempotencyKey, activatedAt, false⟩
  else
    relay (.setLatched true)
    recordOutcome "relay_deenergize_error"
    return ⟨false, "relay_deenergize_error", a.idempotencyKey, activatedAt, true⟩

/-- `on_activation` and the pause, once `activated_at` is known. -/
def hold (a : TriggerArgs) : Proc Unit := do
  let called ←
    (match a.onActivation with
      | none => return ()
      | some callback => exceptException callback (return ()) : Proc Unit).attempt
  relay .setActivationNotified
  Prog.ofExcept called
  env .sleep

/-- The `try` statement of `trigger` and what follows it. -/
def pulse (owner : CallId) (kind : RelayKind) (maxOffAttempts : Nat) (a : TriggerArgs) :
    Proc RelayResult := do
  match ← (withLock .boundary (energise owner kind a)).attempt with
  | .error x => failed maxOffAttempts a none x
  | .ok (some refused) => return refused
  | .ok none =>
      match ← (env .clock).attempt with
      | .error x =>
          relay .setActivationNotified
          failed maxOffAttempts a none x
      | .ok activatedAt =>
          match ← (hold a).attempt with
          | .error x => failed maxOffAttempts a (some activatedAt) x
          | .ok () => finish owner maxOffAttempts a activatedAt

/-- `trigger`, inside the lock. -/
def triggerLocked (owner : CallId) (kind : RelayKind) (maxOffAttempts : Nat) (a : TriggerArgs) :
    Proc RelayResult := do
  match ← activationInhibition a.preActivationInhibit with
  | some inhibition =>
      recordOutcome inhibition.detail
      return refusal a.idempotencyKey inhibition.detail
  | none =>
      if ← relay .isLatched then
        recordOutcome "relay_latched"
        return refusal a.idempotencyKey "relay_latched"
      else pulse owner kind maxOffAttempts a

/-- `trigger`. -/
def trigger (owner : CallId) (kind : RelayKind) (maxOffAttempts : Nat) (a : TriggerArgs) :
    Proc RelayResult := do
  let result ← withLock .trigger (triggerLocked owner kind maxOffAttempts a)
  mark (.triggerReturned result)
  return result

end RelayController

end GateController

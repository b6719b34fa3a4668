import GateController.Runtime.Machine

/-!
# What is watched of a call

One protocol for every call of the controller.  `Watch` is what a call has done
so far: the locks it holds, the store calls it made and their answers, and how
far it has come with the relay.  `Watch.allow` states, operation by operation,
what a call does only after what: it marks an attempt only on a claim of its
own, calls `trigger` only after the mark was committed, drives the output high
only inside the boundary after a check that did not object.

`Effects.Obeys` of the programs is proved once, in the modules that follow.  The
claims about runs are derived from the rules here.
-/

namespace GateController

open Data Effects Proc LocalStore ActuationCoordinator

/-! ## Commands among the calls -/

/-- The command of a call of `execute` that is well formed and addressed to this
controller. -/
def Call.command? (cfg : Config) : Call → Option DirectCommandExecutor.Command
  | .execute payload _ =>
      match DirectCommandExecutor.parse cfg payload with
      | .ok (some command) => if command.controllerId = cfg.controllerId then some command else none
      | _ => none
  | _ => none

/-- Whether a call plays a prompt. -/
def Call.isPrompt (cfg : Config) (call : Call) : Bool :=
  (call.command? cfg).any fun command => command.kind == .playPrompt

/-- The lock under which a call claims its key. -/
def Call.claimLock (cfg : Config) (call : Call) : LockId :=
  if call.isPrompt cfg then .prompt else .coordinator

/-! ## State -/

/-- The last evaluation of an inhibition check. -/
structure Evaluation where
  /-- Whether it began inside the activation boundary. -/
  inside : Bool
  /-- What the outside has answered, oldest first. -/
  answers : List (Σ op : EnvOp, Except Exc op.Ans) := []
  /-- What the check has answered. -/
  verdict : Option (Option Inhibition) := none

/-- What a call did with the store and the coordinator's memory. -/
structure StoreWatch where
  /-- The last reading of the monotonic clock.  The return of `trigger` clears it. -/
  monotonic : Option ℚ := none
  /-- Whether a reading of the monotonic clock has raised. -/
  clockFailed : Bool := false
  bootId : Option (Option String) := none
  lastAttempt : Option (Option ℚ) := none
  /-- The ids of events that the store has told. -/
  eventIds : List Nat := []
  terminal : Option (Option TerminalOutcome) := none
  claimed : Option (ClaimArgs × ActuationClaim) := none
  marked : Option MarkArgs := none
  /-- Whether the coordinator has called `trigger`. -/
  called : Bool := false
  returned : Option RelayResult := none
  inhibition : Option Inhibition := none
  /-- What was stored as the last attempt. -/
  stamped : Option ℚ := none
  /-- The attempt to finalize, and whether it was committed. -/
  finalized : Option (FinalizeArgs × Bool) := none
  /-- The attempt to record a refusal, and whether it was committed. -/
  refused : Option (TerminalArgs × Bool) := none
  played : Bool := false

/-- What a call did with the relay. -/
structure RelayWatch where
  /-- The check of the trigger call under way. -/
  inhibit : Option (Asking (Option Inhibition)) := none
  evaluation : Option Evaluation := none
  /-- The latch was seen open, and the trigger lock is still held. -/
  unlatched : Bool := false
  /-- The last check passed inside the boundary that is still held. -/
  cleared : Bool := false
  /-- The output was driven high, or tried to. -/
  lit : Bool := false
  /-- The output may be high, as far as this call knows. -/
  energised : Bool := false
  /-- An `off()` succeeded after the output was driven high. -/
  pulsed : Bool := false
  latchedIt : Bool := false
  /-- Whether construction has come to its end. -/
  constructed : Bool := false
  shutdownSet : Bool := false
  /-- An `off()` succeeded after the shutdown flag was set. -/
  offAfterShutdown : Bool := false

/-- What a call has done so far. -/
structure Watch where
  call : Call
  /-- When `process` began, by the decision clock. -/
  started : Option ℚ := none
  holds : LockId → Bool := fun _ => false
  store : StoreWatch := {}
  relay : RelayWatch := {}

/-! ## How the watch moves -/

/-- Whether the last check has passed: there is none, or it began inside the
boundary and did not object. -/
def RelayWatch.passed (v : RelayWatch) : Bool :=
  match v.inhibit with
  | none => true
  | some _ =>
      match v.evaluation with
      | some e => e.inside && e.verdict == some none
      | none => false

/-- An answer of the outside, noted for a check that is under way. -/
def RelayWatch.answer (v : RelayWatch) (op : EnvOp) (r : Except Exc op.Ans) : RelayWatch :=
  match v.evaluation with
  | some e =>
      if e.verdict.isNone then
        { v with evaluation := some { e with answers := e.answers ++ [⟨op, r⟩] } }
      else v
  | none => v

/-- Whether an operation has returned. -/
def isOk {α : Type} : Except Exc α → Bool
  | .ok _ => true
  | .error _ => false

/-- The watch after a store call. -/
def StoreWatch.nextStore (v : StoreWatch) : (op : StoreOp) → Except Exc op.Ans → StoreWatch
  | .terminalOutcome _, .ok terminal =>
      { v with
        terminal := some terminal
        eventIds := (terminal.bind TerminalOutcome.eventId).toList ++ v.eventIds }
  | .eventId _, .ok id => { v with eventIds := id.toList ++ v.eventIds }
  | .claimActuation a, .ok claim => { v with claimed := some (a, claim) }
  | .markActuationAttempt a, .ok _ => { v with marked := some a }
  | .finalizeActuation a, r => { v with finalized := some (a, isOk r) }
  | .recordTerminalOutcome a, r => { v with refused := some (a, isOk r) }
  | _, _ => v

/-- The watch after the coordinator used its memory. -/
def StoreWatch.nextMem (v : StoreWatch) : (op : MemOp) → Except Exc op.Ans → StoreWatch
  | .bootId, .ok bootId => { v with bootId := some bootId }
  | .lastAttempt, .ok last => { v with lastAttempt := some last }
  | .setLastAttempt value, _ => { v with stamped := some value }
  | .setInhibition value, _ => { v with inhibition := value }
  | _, _ => v

/-- The watch after a device answered. -/
def StoreWatch.nextDevice (v : StoreWatch) : (op : DeviceOp) → Except Exc op.Ans → StoreWatch
  | .monotonicClock, .ok value => { v with monotonic := some value }
  | .monotonicClock, .error _ => { v with clockFailed := true }
  | .play _, _ => { v with played := true }

/-- The first reading of the decision clock says when a call began. -/
def nextStarted (started : Option ℚ) : (op : EnvOp) → Except Exc op.Ans → Option ℚ
  | .decisionClock, .ok value => some (started.getD value)
  | _, _ => started

/-- The watch after an operation on the relay. -/
def RelayWatch.next (v : RelayWatch) (holds : LockId → Bool) :
    (op : RelayOp) → Except Exc op.Ans → RelayWatch
  | .shutdownIsSet, r => { v with cleared := holds .boundary && v.passed && r.toOption == some false }
  | .isLatched, r => { v with unlatched := holds .trigger && r.toOption == some false }
  | .high, _ => { v with lit := true, energised := true, cleared := false }
  | .low, .ok _ =>
      { v with
        energised := false
        pulsed := v.pulsed || v.lit
        offAfterShutdown := v.offAfterShutdown || v.shutdownSet }
  | .setShutdown, _ => { v with shutdownSet := true, cleared := false }
  | .setLatched latched, _ => { v with latchedIt := latched }
  | .constructed, _ => { v with constructed := true }
  | _, _ => v

/-- Leaving a lock ends what was known under it. -/
def RelayWatch.leave (v : RelayWatch) : LockId → RelayWatch
  | .boundary =>
      { v with
        evaluation := v.evaluation.map fun e => { e with inside := false }
        cleared := false }
  | .trigger => { v with unlatched := false, cleared := false }
  | _ => v

/-- The watch when a call begins. -/
def Watch.start (call : Call) : Watch where
  call := call
  started := match call with
    | .process a => a.decisionStartedAt
    | _ => none
  relay := {
    energised := match call with
      | .start => true
      | _ => false
    inhibit := match call with
      | .trigger _ _ inhibit _ _ => inhibit
      | _ => none }

/-- The watch after a note. -/
def Watch.nextMark (s : Watch) : Mark → Watch
  | .evaluating =>
      { s with relay := { s.relay with
        evaluation := some { inside := s.holds .boundary }
        cleared := false } }
  | .evaluated verdict =>
      { s with relay := { s.relay with
        evaluation := s.relay.evaluation.map fun e => { e with verdict := some verdict } } }
  | .triggerCalled _ inhibit =>
      { s with
        store := { s.store with called := true }
        relay := { s.relay with inhibit, evaluation := none, cleared := false } }
  | .triggerReturned result =>
      { s with store := { s.store with returned := some result, monotonic := none } }

/-- The watch after an operation. -/
def Watch.next (s : Watch) : (e : Eff) → Except Exc e.Ans → Watch
  | .acquire lock, _ => { s with holds := Function.update s.holds lock true }
  | .release lock, _ =>
      { s with holds := Function.update s.holds lock false, relay := s.relay.leave lock }
  | .store op, r => { s with store := s.store.nextStore op r }
  | .env op, r => { s with started := nextStarted s.started op r, relay := s.relay.answer op r }
  | .device op, r => { s with store := s.store.nextDevice op r }
  | .relay op, r => { s with relay := s.relay.next s.holds op r }
  | .mem op, r => { s with store := s.store.nextMem op r }
  | .mark m, _ => s.nextMark m

/-- An operation with its outcome. -/
abbrev Outcome : Type := Σ e : Eff, Except Exc e.Ans

/-! ## The rules -/

/-- The check that a call hands to `trigger` is the one its caller gave, or the
one that its own arguments and decision make up. -/
def Watch.InhibitOf (cfg : Config) (s : Watch) (inhibit : Option (Asking (Option Inhibition))) :
    Prop :=
  match s.call with
  | .actuate a => inhibit = a.preActivationInhibit
  | .execute _ now => ∃ command, s.call.command? cfg = some command ∧
      inhibit = some (DirectCommandExecutor.expiryInhibition cfg command.expiresAt now)
  | .process _ => ∃ m plate started, s.store.marked = some m ∧
      m.event.authorisedPlate = some plate ∧ s.started = some started ∧
      inhibit = some (GateProcessor.finalInhibition cfg m.event.receivedAt plate
        (started + cfg.decisionTimeout - cfg.activationGuardSeconds))
  | _ => False

/-- The claim of the call, if it is its own. -/
def StoreWatch.Owns (v : StoreWatch) (a : ClaimArgs) (claim : ActuationClaim) : Prop :=
  v.claimed = some (a, claim) ∧ claim.status = .claimed ∧
    claim.idempotencyKey = a.idempotencyKey

/-- Nothing of an actuation or a prompt has happened yet. -/
structure StoreWatch.Fresh (v : StoreWatch) : Prop where
  claimed : v.claimed = none
  marked : v.marked = none
  called : v.called = false
  finalized : v.finalized = none
  refused : v.refused = none
  returned : v.returned = none
  lastAttempt : v.lastAttempt = none
  monotonic : v.monotonic = none
  played : v.played = false
  stamped : v.stamped = none

/-- When a lock may be taken.  A call takes the lock under which it claims before
it does anything that the lock is for. -/
def Watch.AllowAcquire (cfg : Config) (s : Watch) (lock : LockId) : Prop :=
  s.holds lock = false ∧
  (lock = .coordinator ∨ lock = .prompt → lock = s.call.claimLock cfg ∧ s.store.Fresh ∧
    ∀ command, s.call.command? cfg = some command → s.store.terminal = none)

/-- When a lock may be left. -/
def Watch.AllowRelease (s : Watch) (lock : LockId) : Prop :=
  s.holds lock = true ∧
  (lock = .trigger → s.relay.energised = true → s.relay.latchedIt = true) ∧
  (lock = .coordinator → s.relay.lit = true → s.store.returned.isSome →
    s.store.stamped.isSome ∨ s.store.clockFailed = true)

/-- When a claim may be made. -/
def Watch.AllowClaim (cfg : Config) (s : Watch) (a : ClaimArgs) : Prop :=
  s.store.claimed = none ∧ s.holds (s.call.claimLock cfg) = true ∧
  (∀ command, s.call.command? cfg = some command → s.store.terminal = some none ∧
    a.idempotencyKey = DirectCommandExecutor.claimKey command.idempotencyKey) ∧
  if s.call.isPrompt cfg then a.event = none ∧ a.cooldownCutoff = none
  else ∃ event now, a.event = some event ∧ event.idempotencyKey = some a.idempotencyKey ∧
    a.cooldownCutoff.isSome ∧ s.store.monotonic = some now ∧
    a.monotonicCutoff = some (now - cfg.cooldownSeconds) ∧ s.store.bootId = some a.bootId

/-- When an attempt may be marked. -/
def Watch.AllowMark (cfg : Config) (s : Watch) (a : MarkArgs) : Prop :=
  s.holds .coordinator = true ∧ s.store.marked = none ∧ s.store.called = false ∧
  s.store.finalized = none ∧ s.call.isPrompt cfg = false ∧
  ∃ ca now last, s.store.Owns ca a.claim ∧ ca.event = some a.event ∧
    ca.outboxPayload = a.outboxPayload ∧ ca.commandAck = a.commandAck ∧ ca.bootId = a.bootId ∧
    s.store.monotonic = some now ∧ a.attemptedMonotonic = some now ∧
    ca.monotonicCutoff = some (now - cfg.cooldownSeconds) ∧
    s.store.lastAttempt = some last ∧ ∀ value, last = some value → cfg.cooldownSeconds ≤ now - value

/-- When a claim may be finalized. -/
def Watch.AllowFinalize (cfg : Config) (s : Watch) (a : FinalizeArgs) : Prop :=
  s.holds (s.call.claimLock cfg) = true ∧ s.store.finalized = none ∧
  (∃ ca, s.store.Owns ca a.claim) ∧
  a.event.idempotencyKey = some a.claim.idempotencyKey ∧
  (s.relay.lit = true → a.retainActivationAttempt = true ∧ a.status ≠ "expired") ∧
  (∀ result, s.store.returned = some result → result.activated = true →
    a.status = "completed" ∧ a.event.opened = true ∧ a.event.relayActivatedAt ≠ none) ∧
  (s.relay.lit = false → a.event.opened = false ∧ a.event.relayActivatedAt = none) ∧
  ∀ result, s.store.returned = some result →
    a.retainActivationAttempt = activationAttempted s.store.inhibition result ∧
      (s.store.stamped.isSome → a.retainActivationAttempt = true)

/-- When a terminal outcome may be recorded. -/
def Watch.AllowTerminal (s : Watch) (a : TerminalArgs) : Prop :=
  (∃ b, s.call = .recordTerminalOutcome b) ∨
  s.holds .coordinator = true ∧ a.status = "failed" ∧ a.detail = some "cooldown" ∧
    (∃ ca claim, s.store.claimed = some (ca, claim) ∧ claim.status = .cooldown ∧
      a.event.idempotencyKey = some ca.idempotencyKey) ∧
    a.event.opened = false ∧ a.event.relayActivatedAt = none

/-- When a store call may be made. -/
def Watch.AllowStore (cfg : Config) (s : Watch) : StoreOp → Prop
  | .terminalOutcome key => ∀ command, s.call.command? cfg = some command →
      s.holds (s.call.claimLock cfg) = true ∧
      key = DirectCommandExecutor.claimKey command.idempotencyKey
  | .claimActuation a => s.AllowClaim cfg a
  | .markActuationAttempt a => s.AllowMark cfg a
  | .finalizeActuation a => s.AllowFinalize cfg a
  | .recordTerminalOutcome a => s.AllowTerminal a
  | .recordEventWithOutbox _ _ => s.call.command? cfg = none
  | .recoverInterruptedActuations => s.call = .recoverInterruptedActuations
  | .ensureOutbox id _ => id ∈ s.store.eventIds
  | _ => True

/-- Whether a call enters the relay controller without the coordinator. -/
def Call.isTrigger : Call → Bool
  | .trigger .. => true
  | _ => false

/-- Whether a call may have its pulse: nothing is stored for it yet, and it is a
call of `trigger` itself or the coordinator has called `trigger` for it. -/
def Watch.Entitled (s : Watch) : Prop :=
  s.store.finalized = none ∧
  (s.call.isTrigger = true ∨
    s.holds .coordinator = true ∧ s.store.called = true ∧ s.store.returned = none)

/-- When a relay operation may be performed. -/
def Watch.AllowRelay (s : Watch) : RelayOp → Prop
  | .high => s.Entitled ∧ s.holds .trigger = true ∧ s.holds .boundary = true ∧
      s.relay.unlatched = true ∧ s.relay.cleared = true ∧ s.relay.lit = false
  | .low => s.holds .boundary = true
  | .setShutdown => s.holds .boundary = true ∧ s.call = .beginShutdown
  | .setLatched latched => latched = true ∨
      s.call = .start ∧ s.relay.constructed = false ∧ (s.relay.energised = true → latched = true)
  | .constructed => s.call = .start ∧ s.relay.constructed = false ∧ (s.relay.energised = true → s.relay.latchedIt = true)
  | _ => True

/-- When a note may be made. -/
def Watch.AllowNote (cfg : Config) (s : Watch) : Mark → Prop
  | .evaluating => True
  | .evaluated verdict => ∃ check e, s.relay.inhibit = some check ∧ s.relay.evaluation = some e ∧
      e.verdict = none ∧ check.Yields e.answers (.ok verdict)
  | .triggerCalled key inhibit => s.holds .coordinator = true ∧ s.store.called = false ∧
      s.store.finalized = none ∧
      (∃ m, s.store.marked = some m ∧ m.claim.idempotencyKey = key) ∧ s.InhibitOf cfg inhibit
  | .triggerReturned result => result.activated = true → s.relay.pulsed = true

/-- What a call may do next. -/
def Watch.allow (cfg : Config) (s : Watch) : Eff → Prop
  | .acquire lock => s.AllowAcquire cfg lock
  | .release lock => s.AllowRelease lock
  | .store op => s.AllowStore cfg op
  | .env _ => True
  | .device .monotonicClock => s.holds .coordinator = true
  | .device (.play _) => s.holds .prompt = true ∧ s.store.played = false ∧
      s.store.finalized = none ∧ s.call.isPrompt cfg = true ∧
      ∃ ca claim, s.store.Owns ca claim
  | .relay op => s.AllowRelay op
  | .mem (.setLastAttempt value) => s.holds .coordinator = true ∧ s.store.returned.isSome ∧
      s.store.monotonic = some value ∧ s.store.finalized = none ∧ ∃ ca claim, s.store.Owns ca claim
  | .mem _ => True
  | .mark m => s.AllowNote cfg m

/-- The protocol of a call. -/
def watch (cfg : Nat → Config) (c : CallId) : Protocol Eff Eff.Ans Exc Call Watch where
  start := Watch.start
  next s e r := s.next e r
  allow s e := s.allow (cfg c.proc) e
  expect s e r := e.Possible r ∧
    match e, r with
    | .mem .inhibition, r => r = .ok s.store.inhibition
    | _, _ => True

@[simp] theorem watch_next (cfg : Nat → Config) (c : CallId) (s : Watch) (e : Eff)
    (r : Except Exc e.Ans) : (watch cfg c).next s e r = s.next e r := rfl

end GateController

import GateController.Effects.System
import GateController.Store.Operations

/-!
# The operations of the controller

What a call of the controller does to the outside, one operation at a time.  An
operation is the grain of interleaving: a store transaction, taking or leaving a
lock, one access to a shared flag, one change of the output, one reading of a
clock.

`EnvOp` are the operations whose answer the outside decides, and any of them may
raise.  `DeviceOp` are two of that kind which the claims are about: the
monotonic clock of the coordinator and the prompt player.  `RelayOp` are the accesses of a `RelayController` to its own fields and
to the pin.  `MemOp` are the fields of the coordinator and the variable that
`actuate` shares with the check it hands to the relay.  `Mark` only leaves a
note in the log: that an inhibition check begins or has answered, that the
coordinator calls `trigger`, and what `trigger` returns.
-/

namespace GateController

open Data Effects

/-- The locks of a process. -/
inductive LockId where
  /-- `ActuationCoordinator._lock`. -/
  | coordinator
  /-- `RelayController._lock`. -/
  | trigger
  /-- `RelayController._activation_boundary`. -/
  | boundary
  /-- `DirectCommandExecutor._prompt_lock`. -/
  | prompt
  /-- `GateProcessor._actuation_lock`. -/
  | actuation
deriving DecidableEq

/-- What an OCR request came to. -/
inductive OcrOutcome where
  | observed (plate : Option String) (confidence : ℚ)
  | busy
  | deadlineExceeded
deriving DecidableEq

/-- What the outside answers. -/
inductive EnvOp where
  /-- The wall clock. -/
  | clock
  /-- The decision clock of the processor. -/
  | decisionClock
  /-- A `pre_activation_inhibit` about which nothing is known. -/
  | ask
  | onActivation
  | onDeactivation (owner : CallId)
  /-- The pause of a pulse. -/
  | sleep
  /-- Whether the processor was closed. -/
  | closed
  /-- The current authorised plates. -/
  | authorised
  | contentDigest (path : String)
  /-- `GateProcessor._recognise`. -/
  | recognise (path : String)
  /-- `outbox.prepare_payload`. -/
  | preparePayload (path : Option String)
  /-- The trace of a call, if it was kept up. -/
  | finishTrace
deriving DecidableEq

/-- The type of an answer. -/
@[reducible] def EnvOp.Ans : EnvOp → Type
  | .clock => DateTime
  | .decisionClock => ℚ
  | .ask => Option Inhibition
  | .onActivation => Unit
  | .onDeactivation _ => Unit
  | .sleep => Unit
  | .closed => Bool
  | .authorised => List String
  | .contentDigest _ => String
  | .recognise _ => OcrOutcome
  | .preparePayload _ => Fields
  | .finishTrace => Option Fields

/-- The devices of the coordinator and of the command executor. -/
inductive DeviceOp where
  | monotonicClock
  /-- `PromptPlayer.play`. -/
  | play (promptKey : Option String)
deriving DecidableEq

/-- What a `DeviceOp` answers. -/
@[reducible] def DeviceOp.Ans : DeviceOp → Type
  | .monotonicClock => ℚ
  | .play _ => Bool

/-- What a `RelayController` does with its fields and its pin. -/
inductive RelayOp where
  | shutdownIsSet
  | setShutdown
  | isLatched
  | setLatched (latched : Bool)
  /-- `GPIO.output(pin, HIGH)`. -/
  | high
  /-- `GPIO.output(pin, LOW)`. -/
  | low
  | setCallback (callback : Option CallId)
  | takeCallback
  | setOutcome (outcome : String)
  | setOutcomeAt (at_ : DateTime)
  /-- `activation_notified.set()`. -/
  | setActivationNotified
  /-- `self._event.wait()` of a callback. -/
  | waitActivation (owner : CallId)
  /-- `callback.ready`. -/
  | activationReady (owner : CallId)
  /-- `self._notified.set()` of a callback. -/
  | setNotified (owner : CallId)
  /-- `wait_until_notified`. -/
  | waitNotified (owner : CallId)
  /-- Start the thread that reports a deactivation. -/
  | startReport (owner : CallId)
  /-- The end of construction. -/
  | constructed
deriving DecidableEq

/-- What a `RelayOp` answers. -/
@[reducible] def RelayOp.Ans : RelayOp → Type
  | .shutdownIsSet => Bool
  | .isLatched => Bool
  | .takeCallback => Option CallId
  | .activationReady _ => Bool
  | _ => Unit

/-- The memory of a coordinator. -/
inductive MemOp where
  | bootId
  | lastAttempt
  | setLastAttempt (value : ℚ)
  /-- The variable `inhibition` of `actuate`. -/
  | inhibition
  | setInhibition (value : Option Inhibition)

/-- What a `MemOp` answers. -/
@[reducible] def MemOp.Ans : MemOp → Type
  | .bootId => Option String
  | .lastAttempt => Option ℚ
  | .setLastAttempt _ => Unit
  | .inhibition => Option Inhibition
  | .setInhibition _ => Unit

/-- A computation that only asks the outside, such as an inhibition check. -/
abbrev Asking (α : Type) : Type := Prog EnvOp EnvOp.Ans Exc α

/-- Notes in the log. -/
inductive Mark where
  | evaluating
  | evaluated (inhibition : Option Inhibition)
  | triggerCalled (key : String) (inhibit : Option (Asking (Option Inhibition)))
  | triggerReturned (result : RelayResult)

/-- One operation of a call. -/
inductive Eff where
  | acquire (lock : LockId)
  | release (lock : LockId)
  | store (op : StoreOp)
  | env (op : EnvOp)
  | device (op : DeviceOp)
  | relay (op : RelayOp)
  | mem (op : MemOp)
  | mark (m : Mark)

/-- What an operation answers. -/
@[reducible] def Eff.Ans : Eff → Type
  | .acquire _ => Unit
  | .release _ => Unit
  | .store op => op.Ans
  | .env op => op.Ans
  | .device op => op.Ans
  | .relay op => op.Ans
  | .mem op => op.Ans
  | .mark _ => Unit

/-- A call of the controller. -/
abbrev Proc (α : Type) : Type := Prog Eff Eff.Ans Exc α

namespace Proc

variable {α : Type}

def store (op : StoreOp) : Proc op.Ans := Prog.perform (Eff.store op)

def env (op : EnvOp) : Proc op.Ans := Prog.perform (Eff.env op)

def device (op : DeviceOp) : Proc op.Ans := Prog.perform (Eff.device op)

def relay (op : RelayOp) : Proc op.Ans := Prog.perform (Eff.relay op)

def mem (op : MemOp) : Proc op.Ans := Prog.perform (Eff.mem op)

def mark (m : Mark) : Proc Unit := Prog.perform (Eff.mark m)

/-- A computation that asks the outside, as part of a call. -/
def asking : Asking α → Proc α
  | .ret a => .ret a
  | .raise x => .raise x
  | .call e k => .call (.env e) fun r => asking (k r)

/-- `with lock:`. -/
def withLock (lock : LockId) (body : Proc α) : Proc α := do
  Prog.perform (Eff.acquire lock)
  let r ← body.attempt
  Prog.perform (Eff.release lock)
  Prog.ofExcept r

/-- `try: body except Exception: handler`. -/
def exceptException (body : Proc α) (handler : Proc α) : Proc α := do
  match ← body.attempt with
  | .ok a => return a
  | .error x => if x.isException then handler else .raise x

end Proc

/-! ## Handlers -/

open Proc

theorem only_exceptException {α : Type} {F : Eff → Prop} {body handler : Proc α}
    (hb : body.Only F) (hh : handler.Only F) : (exceptException body handler).Only F := by
  refine Prog.Only.bind (Prog.Only.attempt hb) fun r => ?_
  cases r with
  | ok a => trivial
  | error x =>
      dsimp only
      split
      · exact hh
      · trivial

/-- `except Exception` around a body. -/
theorem obeys_exceptException {α Call S : Type} {P : Protocol Eff Eff.Ans Exc Call S} {s : S}
    {body handler : Proc α} {Q R : S → Except Exc α → Prop} (hbody : Obeys P R s body)
    (ok : ∀ s' a, R s' (.ok a) → Q s' (.ok a))
    (error : ∀ s' x, R s' (.error x) → x.isException = true → Obeys P Q s' handler)
    (base : ∀ s' x, R s' (.error x) → x.isException = false → Q s' (.error x)) :
    Obeys P Q s (exceptException body handler) := by
  unfold exceptException
  rw [Obeys.bind_iff, Obeys.attempt_iff]
  refine hbody.mono fun s' r h => ?_
  cases r with
  | ok a => exact ok s' a h
  | error x =>
      dsimp only
      cases hx : x.isException with
      | true =>
          rw [if_pos rfl]
          exact error s' x h hx
      | false =>
          rw [if_neg Bool.false_ne_true]
          exact base s' x h hx

end GateController

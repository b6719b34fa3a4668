import GateController.Commands.Executor
import GateController.Processing.Processor
import GateController.Store.Cases

/-!
# The machine

The shared state of the controller's processes and what each operation does to
it.  A process is one life of a program: it is started once, and after a crash a
restart is a process of another number.  All processes use one database.  Each
has its own relay, whose output may be energised before the first successful
`off()`.

The scheduler hands an `Env` to every step.  It holds what the outside decides
at that step: answers, faults, and at a crash whether the host reboots.
-/

namespace GateController

open Data Effects Proc LocalStore ActuationCoordinator

/-! ## Calls -/

/-- A call that enters a process from outside. -/
inductive Call where
  /-- Build the relay controller and the coordinator. -/
  | start
  | trigger (source : String) (key : Option String) (inhibit : Option (Asking (Option Inhibition)))
      (onActivation onDeactivation : Bool)
  | beginShutdown
  /-- The thread that reports a deactivation. -/
  | report (owner : CallId)
  | actuate (a : ActuateArgs)
  | execute (payload : Json) (now : Option DateTime)
  | process (a : GateProcessor.ProcessArgs)
  | recordSkipped (a : GateProcessor.SkipArgs)
  | recordTerminalOutcome (a : TerminalArgs)
  | recordEventWithOutbox (event : GateEvent) (payload : Option Fields)
  | recoverInterruptedActuations

/-- What a call returns. -/
inductive Result where
  | done
  | relay (result : RelayResult)
  | shutdown (safe : Bool)
  | execution (e : ActuationExecution)
  | response (r : DirectCommandExecutor.Response)
  | processing (r : GateProcessor.ProcessingResult)
  | recorded (eventId : Option Nat)
  | recovered (count : Nat)

/-- The arguments of a direct call of `trigger`. -/
def directArgs (source : String) (key : Option String)
    (inhibit : Option (Asking (Option Inhibition))) (onActivation onDeactivation : Bool) :
    RelayController.TriggerArgs where
  source := source
  idempotencyKey := key
  preActivationInhibit := inhibit.map asking
  onActivation := if onActivation then some (env .onActivation) else none
  onDeactivation := onDeactivation

/-- The program of a call. -/
def Call.program (owner : CallId) (cfg : Config) : Call → Proc Result
  | .start => do
      RelayController.construct cfg.maxOffAttempts
      return .done
  | .trigger source key inhibit onActivation onDeactivation => do
      let result ← RelayController.trigger owner cfg.relayKind cfg.maxOffAttempts
        (directArgs source key inhibit onActivation onDeactivation)
      return .relay result
  | .beginShutdown => do
      let safe ← RelayController.beginShutdown cfg.maxOffAttempts
      return .shutdown safe
  | .report reported => do
      RelayController.notify (some reported)
      return .done
  | .actuate a => do
      let e ← ActuationCoordinator.actuate owner cfg a
      return .execution e
  | .execute payload now => do
      let r ← DirectCommandExecutor.execute owner cfg payload now
      return .response r
  | .process a => do
      let r ← GateProcessor.process owner cfg a
      return .processing r
  | .recordSkipped a => do
      let r ← GateProcessor.recordSkipped cfg a
      return .processing r
  | .recordTerminalOutcome a => do
      let eventId ← store (.recordTerminalOutcome a)
      return .recorded eventId
  | .recordEventWithOutbox event payload => do
      let eventId ← store (.recordEventWithOutbox event payload)
      return .recorded (some eventId)
  | .recoverInterruptedActuations => do
      let count ← store .recoverInterruptedActuations
      return .recovered count

/-! ## State -/

/-- The life of a process. -/
inductive Phase where
  | new
  | starting
  | ready
  | dead
deriving DecidableEq

/-- The memory of a process. -/
structure ProcState where
  phase : Phase := .new
  bootId : Option String := none
  lastAttempt : Option ℚ := none
  locks : LockId → Option CallId := fun _ => none
  shutdown : Bool := false
  latched : Bool := false
  pin : Bool := true
  callback : Option CallId := none
  outcome : String := ""
  outcomeAt : Option DateTime := none
  reports : List CallId := []

/-- The variables of a call that others can see. -/
structure CallState where
  inhibition : Option Inhibition := none
  activationNotified : Bool := false
  notified : Bool := false

/-- The state that the calls share. -/
structure State where
  db : Db
  procs : Nat → ProcState := fun _ => {}
  calls : CallId → CallState := fun _ => {}
  /-- The boot id of the host, and those before it. -/
  boot : Option String := none
  pastBoots : List (Option String) := []
  /-- The last reading of the monotonic clock in this boot. -/
  uptime : ℚ := 0

/-- What the outside decides at a step. -/
structure Env where
  now : DateTime := datetimeMin
  answer : (op : EnvOp) → Except Exc op.Ans := fun _ => .error .other
  monotonic : Except Exc ℚ := .error .other
  played : Except Exc Bool := .error .other
  storeFault : Option Exc := none
  highFault : Option Exc := none
  /-- Whether a pin operation that raises has changed the pin. -/
  driven : Bool := false
  lowFault : Bool := false
  threadFault : Bool := false
  reboot : Option (Option String) := none

namespace State

/-- Change the memory of a process. -/
def setProc (s : State) (p : Nat) (f : ProcState → ProcState) : State :=
  { s with procs := fun q => if q = p then f (s.procs q) else s.procs q }

/-- Change the variables of a call. -/
def setCall (s : State) (c : CallId) (f : CallState → CallState) : State :=
  { s with calls := fun d => if d = c then f (s.calls d) else s.calls d }

end State

/-- Put a holder on a lock. -/
def ProcState.setLock (m : ProcState) (lock : LockId) (holder : Option CallId) : ProcState :=
  { m with locks := fun l => if l = lock then holder else m.locks l }

/-! ## Operations -/

/-- What a `RelayOp` does.  A wait that is not over yet gives `none`. -/
def RelayOp.exec (c : CallId) (env : Env) (s : State) :
    (op : RelayOp) → Option (Except Exc op.Ans × State)
  | .shutdownIsSet => some (.ok (s.procs c.proc).shutdown, s)
  | .setShutdown => some (.ok (), s.setProc c.proc fun m => { m with shutdown := true })
  | .isLatched => some (.ok (s.procs c.proc).latched, s)
  | .setLatched latched => some (.ok (), s.setProc c.proc fun m => { m with latched })
  | .high =>
      match env.highFault with
      | none => some (.ok (), s.setProc c.proc fun m => { m with pin := true })
      | some x => some (.error x, s.setProc c.proc fun m => { m with pin := m.pin || env.driven })
  | .low =>
      if env.lowFault then
        some (.error .other, s.setProc c.proc fun m => { m with pin := m.pin && !env.driven })
      else some (.ok (), s.setProc c.proc fun m => { m with pin := false })
  | .setCallback callback => some (.ok (), s.setProc c.proc fun m => { m with callback })
  | .takeCallback =>
      some (.ok (s.procs c.proc).callback, s.setProc c.proc fun m => { m with callback := none })
  | .setOutcome outcome => some (.ok (), s.setProc c.proc fun m => { m with outcome })
  | .setOutcomeAt at_ => some (.ok (), s.setProc c.proc fun m => { m with outcomeAt := some at_ })
  | .setActivationNotified =>
      some (.ok (), s.setCall c fun v => { v with activationNotified := true })
  | .waitActivation owner =>
      if (s.calls owner).activationNotified then some (.ok (), s) else none
  | .activationReady owner => some (.ok (s.calls owner).activationNotified, s)
  | .setNotified owner => some (.ok (), s.setCall owner fun v => { v with notified := true })
  | .waitNotified owner => if (s.calls owner).notified then some (.ok (), s) else none
  | .startReport owner =>
      if env.threadFault then some (.error .other, s)
      else some (.ok (), s.setProc c.proc fun m => { m with reports := owner :: m.reports })
  | .constructed =>
      some (.ok (), s.setProc c.proc fun m => { m with phase := .ready, bootId := s.boot })

/-- What a `MemOp` does. -/
def MemOp.exec (c : CallId) (s : State) : (op : MemOp) → op.Ans × State
  | .bootId => ((s.procs c.proc).bootId, s)
  | .lastAttempt => ((s.procs c.proc).lastAttempt, s)
  | .setLastAttempt value => ((), s.setProc c.proc fun m => { m with lastAttempt := some value })
  | .inhibition => ((s.calls c).inhibition, s)
  | .setInhibition value => ((), s.setCall c fun v => { v with inhibition := value })

/-- What a device answers.  A reading of the monotonic clock shows how long the
host is up. -/
def DeviceOp.exec (env : Env) (s : State) : (op : DeviceOp) → Except Exc op.Ans × State
  | .monotonicClock =>
      match env.monotonic with
      | .ok value => (.ok value, { s with uptime := value })
      | .error x => (.error x, s)
  | .play _ => (env.played, s)

/-- What an operation does. -/
def Eff.exec (c : CallId) (env : Env) (s : State) : (e : Eff) → Option (Except Exc e.Ans × State)
  | .acquire lock =>
      match (s.procs c.proc).locks lock with
      | none => some (.ok (), s.setProc c.proc fun m => m.setLock lock (some c))
      | some _ => none
  | .release lock =>
      if (s.procs c.proc).locks lock = some c then
        some (.ok (), s.setProc c.proc fun m => m.setLock lock none)
      else some (.ok (), s)
  | .store op =>
      let r := op.run env.now env.storeFault s.db
      some (r.1, { s with db := r.2 })
  | .env op => some (env.answer op, s)
  | .device op => some (op.exec env s)
  | .relay op => op.exec c env s
  | .mem op => some (.ok (op.exec c s).1, (op.exec c s).2)
  | .mark _ => some (.ok (), s)

/-- The outcomes an operation may have.  A `with` statement only releases what it
holds, so that a release cannot raise, a claim is one of the key that was asked
for and is not refused without a cutoff, and a pin that is driven low can only
raise an ordinary exception. -/
def Eff.Possible : (e : Eff) → Except Exc e.Ans → Prop
  | .acquire _, r => r = .ok ()
  | .release _, r => r = .ok ()
  | .store (.claimActuation a), r => ∀ claim, r = .ok claim →
      claim.idempotencyKey = a.idempotencyKey ∧
      (a.cooldownCutoff = none → claim.status ≠ .cooldown)
  | .store _, _ => True
  | .env _, _ => True
  | .device _, _ => True
  | .relay .high, _ => True
  | .relay .low, r => r = .ok () ∨ r = .error .other
  | .relay (.startReport _), r => r = .ok () ∨ r = .error .other
  | .relay _, r => ∃ a, r = .ok a
  | .mem _, r => ∃ a, r = .ok a
  | .mark _, r => r = .ok ()

theorem StoreOp.claim_possible {now : DateTime} {fault : Option Exc} {a : ClaimArgs} {db : Db}
    {claim : ActuationClaim} (h : ((StoreOp.claimActuation a).run now fault db).1 = .ok claim) :
    claim.idempotencyKey = a.idempotencyKey ∧
      (a.cooldownCutoff = none → claim.status ≠ .cooldown) := by
  cases fault with
  | some x => cases h
  | none =>
      simp only [StoreOp.run, StoreOp.txn] at h
      rcases claimActuation_cases a db with
        ⟨id, row, -, heq⟩ | ⟨-, hrefused, heq⟩ | ⟨id, claims, -, -, heq⟩ <;>
        rw [heq] at h <;> cases h
      · refine ⟨rfl, fun _ => ?_⟩
        cases row.state <;> simp [existingStatus]
      · refine ⟨rfl, fun hnone => ?_⟩
        simp [ClaimArgs.refused, hnone] at hrefused
      · exact ⟨rfl, fun _ => by simp⟩

theorem Eff.possible_of_exec {c : CallId} {env : Env} {s s' : State} {e : Eff}
    {r : Except Exc e.Ans} (h : e.exec c env s = some (r, s')) : e.Possible r := by
  cases e with
  | acquire lock =>
      simp only [exec] at h
      split at h <;> cases h
      rfl
  | release lock =>
      simp only [exec] at h
      split at h <;> cases h <;> rfl
  | store op =>
      cases op with
      | claimActuation a =>
          rintro claim rfl
          simp only [exec, Option.some.injEq, Prod.mk.injEq] at h
          exact StoreOp.claim_possible h.1
      | _ => trivial
  | env op => trivial
  | device op => trivial
  | mem op =>
      cases h
      exact ⟨_, rfl⟩
  | mark m =>
      cases h
      rfl
  | relay op =>
      cases op with
      | high => trivial
      | low =>
          simp only [exec, RelayOp.exec] at h
          split at h <;> cases h
          · exact .inr rfl
          · exact .inl rfl
      | startReport owner =>
          simp only [exec, RelayOp.exec] at h
          split at h <;> cases h
          · exact .inr rfl
          · exact .inl rfl
      | waitActivation owner =>
          simp only [exec, RelayOp.exec] at h
          split at h <;> cases h
          exact ⟨_, rfl⟩
      | waitNotified owner =>
          simp only [exec, RelayOp.exec] at h
          split at h <;> cases h
          exact ⟨_, rfl⟩
      | _ =>
          cases h
          exact ⟨_, rfl⟩

/-- Whether a call may begin, and what that changes. -/
def Call.accept (c : CallId) (s : State) : Call → Option State
  | .start =>
      if (s.procs c.proc).phase = .new then
        some (s.setProc c.proc fun m => { m with phase := .starting })
      else none
  | .report owner =>
      if (s.procs c.proc).phase = .ready ∧ owner ∈ (s.procs c.proc).reports then
        some (s.setProc c.proc fun m => { m with reports := m.reports.erase owner })
      else none
  | .recordTerminalOutcome _ => if (s.procs c.proc).phase = .dead then none else some s
  | .recordEventWithOutbox _ _ => if (s.procs c.proc).phase = .dead then none else some s
  | .recoverInterruptedActuations => if (s.procs c.proc).phase = .dead then none else some s
  | _ => if (s.procs c.proc).phase = .ready then some s else none

/-- A process dies, and the host may reboot. -/
def State.crash (p : Nat) (env : Env) (s : State) : State :=
  let s := s.setProc p fun m => { m with phase := .dead }
  match env.reboot with
  | none => s
  | some boot => { s with boot, pastBoots := s.boot :: s.pastBoots, uptime := 0 }

/-- The controller: any number of processes with given parameters. -/
def gate (cfg : Nat → Config) : Machine Eff Eff.Ans Exc Env State Call Result where
  program c call := call.program c (cfg c.proc)
  accept c call s := call.accept c s
  exec c e env s := e.exec c env s
  crash p env s := s.crash p env

/-- The log of a run. -/
abbrev Log := List (Event Eff Eff.Ans Exc Call Result)

/-- The state of a run. -/
abbrev GateWorld := World Eff Eff.Ans Exc State Call Result

/-- A run that starts on a database, in a boot of the host. -/
def gateInit (db : Db) (boot : Option String := none) : GateWorld := World.init { db, boot }

end GateController

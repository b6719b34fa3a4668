import GateController.Delivery.Rows
import GateController.Effects.System

/-!
# The outbox worker

`OutboxWorker.run_once` takes the sendable rows in rounds: up to twenty rows,
beginning after the last one it has taken.  Each row is prepared, sent and
completed, and what fails on the way is noted and left for a later round.  The
position in the round is kept in memory, so a new worker begins at the first row.

The worker shares the tables with every other thread of the controller, and the
evidence files with those that stage a frame before they queue its event.
-/

namespace GateController

open Data Effects

/-- The parameters of a worker. -/
structure DeliveryConfig where
  controllerId : String := "primary"
  telemetryRetentionDays : Nat := 30

/-- What the worker and the threads around it do. -/
inductive DeliveryEff where
  | clock
  | store (op : DeliveryOp)
  /-- `pending_outbox_items`. -/
  | pendingOutboxItems (afterId : Option Nat)
  /-- The first `SELECT` of `bind_pending_outbox_controller`. -/
  | pendingPayloads
  /-- The first `SELECT` of `pending_evidence_digests`. -/
  | outboxDigests
  /-- The second `SELECT` of `pending_evidence_digests`. -/
  | claimDigests
  | lastItemId
  | setLastItemId (itemId : Nat)
  | lastRetentionAt
  | setLastRetentionAt (at_ : DateTime)
  /-- `EvidenceSpool.stage`, for a frame with this digest. -/
  | stage (digest : String)
  | load (digest : String)
  | delete (digest : String)
  /-- The names in the directory of the evidence. -/
  | spooled
  | send (payload : Fields) (evidence : Option String)

/-- What an operation answers. -/
@[reducible] def DeliveryEff.Ans : DeliveryEff → Type
  | .clock => DateTime
  | .store op => op.Ans
  | .pendingOutboxItems _ => List (Nat × Json)
  | .pendingPayloads => List (Nat × JsonText)
  | .outboxDigests => List String
  | .claimDigests => List String
  | .lastItemId => Option Nat
  | .setLastItemId _ => Unit
  | .lastRetentionAt => Option DateTime
  | .setLastRetentionAt _ => Unit
  | .stage _ => Unit
  | .load _ => String
  | .delete _ => Unit
  | .spooled => List String
  | .send _ _ => Unit

/-- A program of the delivery. -/
abbrev DeliveryProg (α : Type) := Prog DeliveryEff DeliveryEff.Ans Exc α

namespace OutboxWorker

/-- One operation. -/
def op (e : DeliveryEff) : DeliveryProg e.Ans := Prog.perform e

/-- `try: body except Exception: handler`. -/
def exceptException {α : Type} (body handler : DeliveryProg α) : DeliveryProg α := do
  match ← body.attempt with
  | .ok a => return a
  | .error x => if x.isException then handler else .raise x

/-! ## What is read of a payload -/

/-- `value.get(name, default)` of a value that should be an object. -/
def getOf (value : Json) (name : String) (default : Json) : Except Exc Json :=
  match value with
  | .obj fields => .ok ((Fields.get? fields name).getD default)
  | _ => .error .other

/-- The values that are logged before a payload is sent. -/
def loggedSend (payload : Fields) : Except Exc Unit := do
  let telemetry := (Fields.get? payload "telemetry").getD (.obj [])
  let _ ← getOf telemetry "trace_id" (.str "unavailable")
  let stamps ← getOf telemetry "stage_timestamps" (.obj [])
  let _ ← getOf stamps "cloud_send_started_at" (.str "unavailable")
  let delivery ← getOf telemetry "delivery" (.obj [])
  let _ ← getOf delivery "outbox_attempt" (.str "unavailable")
  return ()

/-- `payload.get("image_sha256")`. -/
def imageDigest (payload : Fields) : Option Json :=
  match Fields.get? payload "image_sha256" with
  | some .null => none
  | digest => digest

/-- `load` of a value that should be a digest. -/
def loadEvidence : Json → DeliveryProg String
  | .str digest => op (.load digest)
  | _ => .raise .other

/-- `pending_evidence_digests`. -/
def pendingEvidenceDigests : DeliveryProg (List String) := do
  let rows ← op .outboxDigests
  let claims ← op .claimDigests
  return rows ++ claims

/-! ## A round -/

/-- `_run_retention`. -/
def runRetention (cfg : DeliveryConfig) (now : DateTime) : DeliveryProg Unit := do
  let last ← op .lastRetentionAt
  if last.any fun last => decide ((now.utc.val : Int) - last.utc.val < 3600000000) then return ()
  else
    op (.setLastRetentionAt now)
    exceptException (do
        let cutoff ← Prog.ofExcept (DateTime.minus now (cfg.telemetryRetentionDays * 86400000000))
        let _ ← op (.store (.purgeDeliveredTelemetry cutoff))
        return ())
      (return ())

/-- Send a payload, with its evidence if it names any. -/
def sendItem (payload : Fields) : DeliveryProg Unit :=
  match imageDigest payload with
  | none => op (.send payload none)
  | some digest => do
      let evidence ← loadEvidence digest
      op (.send payload (some evidence))

/-- The first `try` of the loop: prepare the row and send it.  The answer is what
was sent, or nothing if the row may no longer be sent. -/
def attemptItem (itemId : Nat) : DeliveryProg (Option Fields) := do
  let attemptedAt ← op .clock
  match ← op (.store (.prepareOutboxAttempt itemId attemptedAt)) with
  | none => return none
  | some payload => do
      Prog.ofExcept (loggedSend payload)
      sendItem payload
      return some payload

/-- The second `try` of the loop. -/
def completeItem (itemId : Nat) (payload : Fields) : DeliveryProg Unit := do
  let acknowledgedAt ← op .clock
  op (.store (.completeOutboxItem itemId acknowledgedAt (some payload)))

/-- Delete the evidence of a row that was delivered, if nothing else needs it. -/
def releaseEvidence (payload : Fields) : DeliveryProg Unit := do
  match imageDigest payload with
  | some (.str digest) =>
      let pending ← pendingEvidenceDigests
      if digest ∈ pending then return ()
      else exceptException (op (.delete digest)) (return ())
  | _ => return ()

/-- What follows a send that returned.  The answer counts the row. -/
def acknowledge (itemId : Nat) (payload : Fields) : DeliveryProg Nat := do
  match ← (completeItem itemId payload).attempt with
  | .error x => if x.isException then return 0 else .raise x
  | .ok () => do
      releaseEvidence payload
      return 1

/-- One round of the loop. -/
def deliverItem (itemId : Nat) : DeliveryProg Nat := do
  op (.setLastItemId itemId)
  match ← (attemptItem itemId).attempt with
  | .error x =>
      if x.isException then do
        exceptException (op (.store (.markOutboxRetry itemId))) (return ())
        return 0
      else .raise x
  | .ok none => return 0
  | .ok (some payload) => acknowledge itemId payload

/-- The loop. -/
def deliverAll : List Nat → DeliveryProg Nat
  | [] => return 0
  | itemId :: rest => do
      let completed ← deliverItem itemId
      let more ← deliverAll rest
      return completed + more

/-- `run_once`. -/
def runOnce (cfg : DeliveryConfig) : DeliveryProg Nat := do
  let now ← op .clock
  runRetention cfg now
  let afterId ← op .lastItemId
  let items ← op (.pendingOutboxItems afterId)
  deliverAll (items.map Prod.fst)

/-! ## Construction -/

/-- The loop of `cleanup`. -/
def cleanup (pending : List String) : List String → DeliveryProg Unit
  | [] => return ()
  | digest :: rest => do
      if digest ∈ pending then cleanup pending rest
      else
        op (.delete digest)
        cleanup pending rest

/-- `__init__`. -/
def construct (cfg : DeliveryConfig) : DeliveryProg Unit :=
  exceptException (do
      let rows ← op .pendingPayloads
      let _ ← op (.store (.rebindRows cfg.controllerId rows))
      let pending ← pendingEvidenceDigests
      let spooled ← op .spooled
      cleanup pending spooled)
    (return ())

/-! ## Other threads -/

/-- Stage a frame, if there is one. -/
def stageFrame : Option String → DeliveryProg Unit
  | some digest => op (.stage digest)
  | none => return ()

/-- A thread stages a frame and makes a call of the store. -/
def submit (digest : Option String) (call : DeliveryOp) : DeliveryProg Unit := do
  stageFrame digest
  let _ ← op (.store call)
  return ()

end OutboxWorker

/-! ## The machine -/

/-- The calls that only the worker makes. -/
def DeliveryOp.isWorkers : DeliveryOp → Bool
  | .prepareOutboxAttempt _ _ => true
  | .markOutboxRetry _ => true
  | .completeOutboxItem _ _ _ => true
  | _ => false

/-- What can happen to the tables. -/
inductive DeliveryCall where
  | construct
  | runOnce
  | submit (digest : Option String) (op : DeliveryOp)

/-- What a call returns. -/
inductive DeliveryResult where
  | passed (completed : Nat)
  | done

/-- What the threads share. -/
structure DeliveryState where
  tables : Tables
  spool : List String := []
  lastItemId : Option Nat := none
  lastRetentionAt : Option DateTime := none

/-- What the outside decides at a step. -/
structure DeliveryEnv where
  clock : Except Exc DateTime
  weather : Weather
  /-- Whether a `SELECT` of its own fails. -/
  selectFault : Option Exc := none
  stage : Except Exc Unit := .ok ()
  load : String → Except Exc String := .ok
  delete : Except Exc Unit := .ok ()
  send : Fields → Option String → Except Exc Unit := fun _ _ => .ok ()

namespace OutboxWorker

/-- A `SELECT` that answers, or that fails. -/
def selected {α : Type} (env : DeliveryEnv) (answer : Except Exc α) : Except Exc α :=
  match env.selectFault with
  | some x => .error x
  | none => answer

/-- What an operation does. -/
def exec (env : DeliveryEnv) (s : DeliveryState) :
    (e : DeliveryEff) → Except Exc e.Ans × DeliveryState
  | .clock => (env.clock, s)
  | .store op => ((op.run env.weather s.tables).1, { s with tables := (op.run env.weather s.tables).2 })
  | .pendingOutboxItems afterId =>
      (selected env (Delivery.pendingOutboxItems afterId s.tables), s)
  | .pendingPayloads => (selected env (.ok (Delivery.pendingPayloads s.tables)), s)
  | .outboxDigests => (selected env (.ok (Delivery.outboxDigests s.tables)), s)
  | .claimDigests => (selected env (.ok (Delivery.claimDigests s.tables)), s)
  | .lastItemId => (.ok s.lastItemId, s)
  | .setLastItemId itemId => (.ok (), { s with lastItemId := some itemId })
  | .lastRetentionAt => (.ok s.lastRetentionAt, s)
  | .setLastRetentionAt at_ => (.ok (), { s with lastRetentionAt := some at_ })
  | .stage digest =>
      match env.stage with
      | .ok () => (.ok (), { s with spool := digest :: s.spool })
      | .error x => (.error x, s)
  | .load digest => (if digest ∈ s.spool then env.load digest else .error .other, s)
  | .delete digest =>
      match env.delete with
      | .ok () => (.ok (), { s with spool := s.spool.filter (· ≠ digest) })
      | .error x => (.error x, s)
  | .spooled => (.ok s.spool, s)
  | .send payload evidence => (env.send payload evidence, s)

/-- The program of a call. -/
def program (cfg : DeliveryConfig) : DeliveryCall → DeliveryProg DeliveryResult
  | .construct => do
      construct cfg
      return .done
  | .runOnce => do
      let completed ← runOnce cfg
      return .passed completed
  | .submit digest op => do
      submit digest op
      return .done

/-- A call begins.  A new worker begins at the first row. -/
def accept (s : DeliveryState) : DeliveryCall → Option DeliveryState
  | .construct => some { s with lastItemId := none, lastRetentionAt := none }
  | .runOnce => some s
  | .submit _ op => if op.isWorkers then none else some s

end OutboxWorker

/-- The threads around the outbox. -/
def delivery (cfg : DeliveryConfig) :
    Machine DeliveryEff DeliveryEff.Ans Exc DeliveryEnv DeliveryState DeliveryCall
      DeliveryResult where
  program _ call := OutboxWorker.program cfg call
  accept _ call s := OutboxWorker.accept s call
  exec _ e env s := some (OutboxWorker.exec env s e)
  crash _ _ s := { s with lastItemId := none, lastRetentionAt := none }

/-- The log of a run. -/
abbrev DeliveryLog := List (Event DeliveryEff DeliveryEff.Ans Exc DeliveryCall DeliveryResult)

/-- The state of a run. -/
abbrev DeliveryWorld := World DeliveryEff DeliveryEff.Ans Exc DeliveryState DeliveryCall DeliveryResult

end GateController

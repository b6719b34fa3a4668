import GateController.Delivery.Telemetry
import GateController.Data.StableSort
import GateController.Effects.Faults
import GateController.Store.Outbox

/-!
# The store operations of the delivery

The methods of `LocalStore` that read and write `event_telemetry`, or rewrite the
payload of an outbox row, statement by statement.  Any statement may fail, and
`faults` says which of them do.  What a method catches, it catches here: the
savepoint of `_set_outbox_delivery_state`, and the two handlers of
`prepare_outbox_attempt` that fall back on the payload without a trace.

A `SELECT` outside a transaction is an operation of its own.
`bind_pending_outbox_controller` selects before its transaction begins, so it
comes in two halves, and `pending_evidence_digests` selects twice.
-/

namespace GateController

open Data Effects LocalStore

/-- A row of `event_telemetry`. -/
structure TelemetryRow where
  eventId : Nat
  traceId : String
  payload : JsonText
  createdAt : String

/-- The tables, with the traces. -/
structure Tables where
  db : Db
  telemetry : Table TelemetryRow Nat (fun row => some row.eventId)

/-- What `_migrate` creates in an empty file. -/
def Tables.fresh : Tables := ⟨Db.fresh, .empty⟩

/-- Statements on the tables. -/
abbrev Statements (α : Type) := Stmt Tables Exc α

namespace Delivery

/-! ## Statements -/

/-- A `SELECT`. -/
def select {α : Type} (f : Tables → α) : Statements α := Stmt.statement .other fun t => (f t, t)

/-- An `INSERT`, an `UPDATE` or a `DELETE`. -/
def execute (f : Tables → Tables) : Statements Unit := Stmt.statement .other fun t => ((), f t)

/-- Raise an exception. -/
def raise {α : Type} (x : Exc) : Statements α := Stmt.ofExcept (.error x)

/-- The stored trace of an event. -/
def traceOf (t : Tables) (eventId : Nat) : Option JsonText :=
  (t.telemetry.byKey eventId).map fun p => p.2.payload

/-- `_write_telemetry_payload`. -/
def writeTrace (eventId : Nat) (telemetry : Fields) (t : Tables) : Tables :=
  { t with
    telemetry := t.telemetry.update (fun _ row => row.eventId == eventId)
      (fun row => { row with payload := .json (.obj telemetry) }) (fun _ => rfl) }

/-- `UPDATE outbox … WHERE id = ? AND …`. -/
def updateOutbox (itemId : Nat) (cond : OutboxRow → Bool) (f : OutboxRow → OutboxRow)
    (hf : ∀ row, some (f row).eventId = some row.eventId) (t : Tables) : Tables :=
  { t with db := { t.db with
      outbox := t.db.outbox.update (fun id row => id == itemId && cond row) f hf } }

/-- The row is not completed. -/
def pending (row : OutboxRow) : Bool := row.completedAt.isNone

/-- Put another payload into a row. -/
def withPayload (payload : Fields) (row : OutboxRow) : OutboxRow :=
  { row with payload := .json (.obj payload) }

/-- The object in a text column. -/
def loadsObject (text : JsonText) : Except Exc Fields := do
  match ← loads text with
  | .obj fields => return fields
  | _ => throw (.typeError "object does not support item assignment")

/-- The outbox row with an id, if it is not completed. -/
def pendingItem (t : Tables) (itemId : Nat) : Option OutboxRow :=
  (t.db.outbox.find? itemId).filter pending

/-! ## Attaching a trace -/

theorem promote_eventId (telemetry payload : Fields) : ∀ row : OutboxRow,
    some (OutboxRow.promote telemetry row payload).eventId = some row.eventId :=
  fun _ => rfl

/-- `_promote_outbox`. -/
def promote (eventId : Nat) (telemetry : Fields) : Statements Unit := do
  match ← select fun t => t.db.outbox.byKey eventId with
  | none => return ()
  | some (outboxId, row) => do
      let payload ← Stmt.ofExcept (loads row.payload)
      if row.completedAt.isSome then return ()
      else
        match payload with
        | .obj payload =>
            execute (updateOutbox outboxId (fun _ => true)
              (fun row => OutboxRow.promote telemetry row payload) (promote_eventId telemetry payload))
        | _ => raise (.typeError "object does not support item assignment")

/-- `INSERT INTO event_telemetry`. -/
def insertTrace (row : TelemetryRow) : Statements Unit := do
  let inserted ← Stmt.statement .other fun t =>
    match t.telemetry.insert row with
    | none => (false, t)
    | some (_, telemetry) => (true, { t with telemetry })
  if inserted then return () else raise .integrityError

/-- What is logged once the trace is attached. -/
def loggedEnqueue (payload : Fields) : Except Exc Unit := do
  let _ ← dictOf (Fields.get? payload "stage_timestamps")
  return ()

/-- The transaction of `attach_event_telemetry`.  It returns whether the trace is
new, and the trace as it is stored. -/
def attachTrace (now : DateTime) (eventId : Nat) (made : Fields) : Statements (Bool × Fields) :=
  Stmt.transaction .other do
    match ← select fun t => t.db.events.find? eventId with
    | none => raise (.keyError s!"unknown event {eventId}")
    | some _ => do
        let createdAt ← select fun t => (t.db.outbox.byKey eventId).map fun p => p.2.createdAt
        let payload ← Stmt.ofExcept (enrichOutboxDelivery createdAt made)
        let traceId ← Stmt.ofExcept (item payload "trace_id" >>= stringOf)
        match ← select fun t => t.telemetry.byKey eventId with
        | some (_, existing) => do
            let existingPayload ← Stmt.ofExcept (loadsObject existing.payload)
            let same ← Stmt.ofExcept (sameTrace existingPayload payload)
            if existing.traceId ≠ traceId ∨ same = false then
              raise (.valueError "event already has conflicting telemetry")
            else do
              promote eventId existingPayload
              return (false, existingPayload)
        | none =>
            match ← select fun t => t.telemetry.rows.find? fun p => p.2.traceId == traceId with
            | some _ => raise (.valueError "telemetry trace is already attached to another event")
            | none => do
                insertTrace ⟨eventId, traceId, .json (.obj payload), timestamp now⟩
                promote eventId payload
                return (true, payload)

/-- `attach_event_telemetry` of what `to_wire` returns. -/
def attachEventTelemetry (now : DateTime) (eventId : Nat) (wire : Fields) : Statements Bool := do
  let made ← Stmt.ofExcept (telemetryPayload wire)
  let (inserted, payload) ← attachTrace now eventId made
  let _ ← Stmt.ofExcept (loggedEnqueue payload)
  return inserted

/-! ## Attempts -/

/-- A row that may be sent. -/
def sendable (row : OutboxRow) : Bool :=
  pending row && (row.sendState == .ready || row.sendState == .telemetryReady)

/-- The rewrite of a row and its trace for the next attempt, up to the commit. -/
def rewriteForAttempt (itemId : Nat) (row : OutboxRow) (fallback : Fields)
    (attemptedAt : DateTime) : Statements Fields := do
  match ← select fun t => traceOf t row.eventId with
  | none => do
      Stmt.marker .other
      return fallback
  | some stored => do
      let telemetry ← Stmt.ofExcept (sendingTelemetry stored row.createdAt attemptedAt)
      execute (writeTrace row.eventId telemetry)
      let payload := traced fallback telemetry
      execute (updateOutbox itemId pending (withPayload payload) fun _ => rfl)
      Stmt.marker .other
      return payload

/-- `prepare_outbox_attempt`.  Once the fallback is known, every exception ends in
a rollback and the fallback. -/
def prepareOutboxAttempt (itemId : Nat) (attemptedAt : DateTime) : Statements (Option Fields) :=
  Stmt.restoring do
    Stmt.marker .other
    match ← select fun t => (t.db.outbox.find? itemId).filter sendable with
    | none => do
        Stmt.marker .other
        return none
    | some row => do
        let fallback ← Stmt.ofExcept (loads row.payload >>= v2OutboxPayload)
        match ← (Stmt.restoring (rewriteForAttempt itemId row fallback attemptedAt)).attempt with
        | .ok payload => return some payload
        | .error _ => return some fallback

/-- The rewrite of a trace when an attempt came to an end.  It returns the new
payload of the row if the row was not prepared. -/
def rewriteSettled (row : OutboxRow) (stored : JsonText) (state : String)
    (completedAt : Option DateTime) (prepared : Option Fields) (fallback : Fields) :
    Statements Fields := do
  let source :=
    match prepared.bind fun payload => Fields.get? payload "telemetry" with
    | none => stored
    | some .null => stored
    | some value => .json value
  let telemetry ← Stmt.ofExcept (settledTelemetry source state completedAt)
  execute (writeTrace row.eventId telemetry)
  return match prepared with
    | some payload => payload
    | none => traced fallback telemetry

/-- Whether the payload that was sent carries a trace. -/
def carriesTrace (payload : Fields) : Bool :=
  match Fields.get? payload "telemetry" with
  | none => false
  | some .null => false
  | some _ => true

/-- The payload that a row ends up with: what was prepared, and otherwise its own
with a trace, or without one if the trace cannot be rewritten. -/
def settledPayload (row : OutboxRow) (state : String) (completedAt : Option DateTime)
    (prepared : Option Fields) : Statements Fields := do
  let payload ← Stmt.ofExcept
    (match prepared with
      | none => loads row.payload
      | some payload => .ok (.obj payload))
  let fallback ← Stmt.ofExcept (v2OutboxPayload payload)
  match ← select fun t => traceOf t row.eventId with
  | none => return prepared.getD fallback
  | some stored =>
      if prepared.all carriesTrace then
        match ← Stmt.savepoint .other
            (rewriteSettled row stored state completedAt prepared fallback) with
        | .ok payload => return payload
        | .error _ => return prepared.getD fallback
      else return prepared.getD fallback

/-- `_set_outbox_delivery_state`. -/
def setOutboxDeliveryState (itemId : Nat) (state : String) (completedAt : Option DateTime)
    (prepared : Option Fields) : Statements Unit := Stmt.transaction .other do
  match ← select fun t => pendingItem t itemId with
  | none => return ()
  | some row => do
      let payload ← settledPayload row state completedAt prepared
      execute (updateOutbox itemId pending
        (fun row => { withPayload payload row with completedAt := completedAt.map timestamp })
        fun _ => rfl)

/-- `mark_outbox_retry`. -/
def markOutboxRetry (itemId : Nat) : Statements Unit :=
  setOutboxDeliveryState itemId "retry_pending" none none

/-- `complete_outbox_item`. -/
def completeOutboxItem (itemId : Nat) (completedAt : DateTime) (prepared : Option Fields) :
    Statements Unit :=
  setOutboxDeliveryState itemId "delivered" (some completedAt) prepared

/-! ## Purging -/

/-- The delivered rows with a trace from before the cutoff. -/
def deliveredBefore (cutoff : String) (t : Tables) : List (Nat × Nat × JsonText) :=
  t.telemetry.rows.filterMap fun p =>
    if p.2.createdAt < cutoff then
      match t.db.outbox.byKey p.2.eventId with
      | some (outboxId, row) =>
          if row.completedAt.isSome then some (p.2.eventId, outboxId, row.payload) else none
      | none => none
    else none

/-- The row is completed. -/
def completed (row : OutboxRow) : Bool := row.completedAt.isSome

/-- The loop of `purge_delivered_telemetry`. -/
def purgeRows : List (Nat × Nat × JsonText) → Statements Nat
  | [] => return 0
  | (eventId, outboxId, text) :: rest => do
      match loads text >>= v2OutboxPayload with
      | .error _ => purgeRows rest
      | .ok payload => do
          execute (updateOutbox outboxId completed (withPayload payload) fun _ => rfl)
          let removed ← Stmt.statement .other fun t =>
            (t.telemetry.count fun _ row => row.eventId == eventId,
              { t with telemetry := t.telemetry.delete fun _ row => row.eventId == eventId })
          return removed + (← purgeRows rest)

/-- `purge_delivered_telemetry`. -/
def purgeDeliveredTelemetry (cutoff : DateTime) : Statements Nat := Stmt.transaction .other do
  let rows ← select (deliveredBefore (timestamp cutoff))
  purgeRows rows

/-- A trace whose event has no outbox row. -/
def unqueuedBefore (cutoff : String) (t : Tables) (row : TelemetryRow) : Bool :=
  decide (row.createdAt < cutoff) && (t.db.outbox.byKey row.eventId).isNone

/-- `purge_unqueued_telemetry`. -/
def purgeUnqueuedTelemetry (cutoff : DateTime) : Statements Nat := Stmt.transaction .other do
  Stmt.statement .other fun t =>
    (t.telemetry.count fun _ row => unqueuedBefore (timestamp cutoff) t row,
      { t with telemetry := t.telemetry.delete fun _ row => unqueuedBefore (timestamp cutoff) t row })

/-! ## Binding the controller -/

/-- `bool(value)` of a value that may be missing. -/
def truthyValue : Option Json → Bool
  | none => false
  | some .null => false
  | some (.bool b) => b
  | some (.num q) => q != 0
  | some (.str text) => text != ""
  | some (.arr items) => !items.isEmpty
  | some (.obj fields) => !fields.isEmpty

/-- Whether there is a legacy path under the name. -/
def hasLegacyPath (payload : Fields) : Bool :=
  match Fields.get? payload "_local_image_path" with
  | none => false
  | some .null => false
  | some _ => true

/-- The payload with a controller and without a legacy path, if that is a change. -/
def boundPayload (controllerId : String) (payload : Fields) : Option Fields :=
  let rest := Fields.erase payload "_local_image_path"
  let marked :=
    if hasLegacyPath payload && (Fields.get? rest "image_sha256").isNone then
      Fields.set rest "image_status" (.str "legacy_evidence_unavailable")
    else rest
  if truthyValue (Fields.get? marked "controller_id") then
    if hasLegacyPath payload then some marked else none
  else some (Fields.set marked "controller_id" (.str controllerId))

/-- The `SELECT` of `bind_pending_outbox_controller`. -/
def pendingPayloads (t : Tables) : List (Nat × JsonText) :=
  (t.db.outbox.rows.filter fun p => pending p.2).map fun p => (p.1, p.2.payload)

/-- The object that a selected row is bound from. -/
def bindSource : JsonText → Except Exc Fields
  | .other _ => .ok []
  | .json (.obj payload) => .ok payload
  | .json _ => .error (.typeError "pop expected an object")

/-- The loop of `bind_pending_outbox_controller`. -/
def bindRows (controllerId : String) : List (Nat × JsonText) → Statements Unit
  | [] => return ()
  | (outboxId, text) :: rest => do
      let payload ← Stmt.ofExcept (bindSource text)
      match boundPayload controllerId payload with
      | none => bindRows controllerId rest
      | some bound => do
          execute (updateOutbox outboxId (fun _ => true) (withPayload bound) fun _ => rfl)
          bindRows controllerId rest

/-- The transaction of `bind_pending_outbox_controller`, for the rows that were
selected before it. -/
def rebindRows (controllerId : String) (rows : List (Nat × JsonText)) : Statements Unit :=
  Stmt.transaction .other (bindRows controllerId rows)

/-- `bind_pending_outbox_controller`, when nothing comes between its halves. -/
def bindPendingOutboxController (controllerId : String) : Statements Unit := do
  let rows ← select pendingPayloads
  rebindRows controllerId rows

/-! ## Reads -/

/-- `json.loads(text).get("image_sha256")`, if it is a string. -/
def evidenceDigest : JsonText → Option String
  | .json (.obj payload) =>
      match Fields.get? payload "image_sha256" with
      | some (.str digest) => some digest
      | _ => none
  | _ => none

/-- The first `SELECT` of `pending_evidence_digests`. -/
def outboxDigests (t : Tables) : List String :=
  t.db.outbox.rows.filterMap fun p => if pending p.2 then evidenceDigest p.2.payload else none

/-- The second `SELECT` of `pending_evidence_digests`. -/
def claimDigests (t : Tables) : List String :=
  t.db.claims.rows.filterMap fun p =>
    if p.2.state = .claimed then p.2.pendingOutboxPayload.bind evidenceDigest else none

/-- `pending_outbox_items`: by id, beginning after the last one that was taken. -/
def pendingOutboxItems (afterId : Option Nat) (t : Tables) : Except Exc (List (Nat × Json)) :=
  let rows : List (Nat × OutboxRow) := t.db.outbox.rows.filter fun p => sendable p.2
  let sorted : List (Nat × OutboxRow) := rows.insertionSort fun a b => a.1 ≤ b.1
  let ordered : List (Nat × OutboxRow) :=
    match afterId with
    | none => sorted
    | some after =>
        sorted.filter (fun p => decide (after < p.1)) ++ sorted.filter fun p => decide (p.1 ≤ after)
  (ordered.take 20).mapM fun p => do return (p.1, ← loads p.2.payload)

end Delivery

/-! ## The interface -/

open Delivery

/-- A call of the store, with the traces.  The calls that reach `event_telemetry` are
operations of the delivery. -/
inductive DeliveryOp : Type where
  | store (op : StoreOp) (other : op.attaches = false)
  | attachEventTelemetry (eventId : Nat) (wire : Fields)
  | prepareOutboxAttempt (itemId : Nat) (attemptedAt : DateTime)
  | markOutboxRetry (itemId : Nat)
  | completeOutboxItem (itemId : Nat) (completedAt : DateTime) (prepared : Option Fields)
  | purgeDeliveredTelemetry (cutoff : DateTime)
  | purgeUnqueuedTelemetry (cutoff : DateTime)
  | bindPendingOutboxController (controllerId : String)
  | rebindRows (controllerId : String) (rows : List (Nat × JsonText))

/-- What a call returns. -/
@[reducible] def DeliveryOp.Ans : DeliveryOp → Type
  | .store op _ => op.Ans
  | .attachEventTelemetry _ _ => Bool
  | .prepareOutboxAttempt _ _ => Option Fields
  | .markOutboxRetry _ => Unit
  | .completeOutboxItem _ _ _ => Unit
  | .purgeDeliveredTelemetry _ => Nat
  | .purgeUnqueuedTelemetry _ => Nat
  | .bindPendingOutboxController _ => Unit
  | .rebindRows _ _ => Unit

/-- What the surroundings decide about a call: the clock that stamps new rows, and
which statements fail. -/
structure Weather where
  now : DateTime
  fault : Option Exc := none
  faults : List Bool := []

/-- An operation on the tables of the events, as statements. -/
def Statements.ofStore (w : Weather) (op : StoreOp) : Statements op.Ans := fun faults t =>
  ((op.run w.now w.fault t.db).1, faults, { t with db := (op.run w.now w.fault t.db).2 })

/-- The statements of a call. -/
def DeliveryOp.statements (w : Weather) : (op : DeliveryOp) → Statements op.Ans
  | .store op _ => Statements.ofStore w op
  | .attachEventTelemetry eventId wire => Delivery.attachEventTelemetry w.now eventId wire
  | .prepareOutboxAttempt itemId attemptedAt => Delivery.prepareOutboxAttempt itemId attemptedAt
  | .markOutboxRetry itemId => Delivery.markOutboxRetry itemId
  | .completeOutboxItem itemId completedAt prepared =>
      Delivery.completeOutboxItem itemId completedAt prepared
  | .purgeDeliveredTelemetry cutoff => Delivery.purgeDeliveredTelemetry cutoff
  | .purgeUnqueuedTelemetry cutoff => Delivery.purgeUnqueuedTelemetry cutoff
  | .bindPendingOutboxController controllerId =>
      Delivery.bindPendingOutboxController controllerId
  | .rebindRows controllerId rows => Delivery.rebindRows controllerId rows

/-- A call: its answer, and the tables after it. -/
def DeliveryOp.run (w : Weather) (op : DeliveryOp) (t : Tables) : Except Exc op.Ans × Tables :=
  ((op.statements w w.faults t).1, (op.statements w w.faults t).2.2)

end GateController

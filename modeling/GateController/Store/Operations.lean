import GateController.Store.Pending

/-!
# The operations of the store

Each public method of `LocalStore` that the event and actuation path calls, as a
transaction.  `BEGIN IMMEDIATE … COMMIT` with a rollback on exceptions and
`with connection` are both `Txn.transaction`.  The clock that stamps a new
outbox row is the parameter `now`.

After each operation stands what it can do to the tables, case by case.  The
proofs about runs use these lemmas and do not open the operations again.
-/

namespace GateController

open Data

/-- The truth value of an optional text: neither `None` nor empty. -/
def truthy : Option String → Bool
  | none => false
  | some text => text != ""

namespace LocalStore

/-! ## Statements that several operations share -/

/-- The columns of an event. -/
def eventRow (event : GateEvent) : EventRow where
  receivedAt := timestamp event.receivedAt
  decisionAt := optionalTimestamp event.decisionAt
  relayActivatedAt := optionalTimestamp event.relayActivatedAt
  source := event.source
  reason := event.reason
  opened := event.opened
  idempotencyKey := event.idempotencyKey
  authorisedPlate := event.authorisedPlate
  observedPlate := event.observedPlate
  ocrConfidence := event.ocrConfidence

/-- `_insert_event`. -/
def insertEvent (event : GateEvent) : Txn Nat := fun db =>
  match db.events.insert (eventRow event) with
  | none => (.error .integrityError, db)
  | some (id, events) => (.ok id, { db with events })

/-- `_event_payload`: the row of an event as an object. -/
def eventPayload (db : Db) (eventId : Nat) : Option Fields :=
  (db.events.find? eventId).map fun row => [
    ("event_id", .num eventId),
    ("received_at", .str row.receivedAt),
    ("decision_at", .ofOption row.decisionAt),
    ("relay_activated_at", .ofOption row.relayActivatedAt),
    ("source", .str row.source),
    ("reason", .str row.reason),
    ("opened", .bool row.opened),
    ("idempotency_key", .ofOption row.idempotencyKey),
    ("authorised_plate", .ofOption row.authorisedPlate),
    ("observed_plate", .ofOption row.observedPlate),
    ("ocr_confidence", .num row.ocrConfidence),
    ("schema_version", .num 2)]

/-- The state a new outbox row is put in. -/
def sendStateOf (payload : Fields) : SendState :=
  match Fields.get? payload "_awaiting_telemetry" with
  | some (.bool true) => .awaitingTelemetry
  | _ => .ready

/-- The payload of a new outbox row: the event with the caller's fields put over
it. -/
def outboxPayload (db : Db) (eventId : Nat) (payload : Fields) : Fields :=
  let encoded := Fields.update ((eventPayload db eventId).getD [])
    (Fields.erase payload "_awaiting_telemetry")
  match Fields.get? encoded "event_id" with
  | none => Fields.set encoded "event_id" (.num eventId)
  | some .null => Fields.set encoded "event_id" (.num eventId)
  | some _ => encoded

/-- The new outbox row of an event. -/
def outboxRow (now : DateTime) (db : Db) (eventId : Nat) (payload : Fields) : OutboxRow where
  eventId := eventId
  payload := .json (.obj (outboxPayload db eventId payload))
  createdAt := timestamp now
  sendState := sendStateOf payload

/-- The table after `INSERT OR IGNORE INTO outbox`, if there is a payload. -/
def outboxWith (now : DateTime) (db : Db) (eventId : Nat) :
    Option Fields → Table OutboxRow Nat (fun row => some row.eventId)
  | none => db.outbox
  | some payload =>
      match db.outbox.insert (outboxRow now db eventId payload) with
      | none => db.outbox
      | some (_, outbox) => outbox

/-- `_ensure_outbox`.  The answer is the id of the row if it is new. -/
def ensureOutboxRow (now : DateTime) (eventId : Nat) (payload : Option Fields) :
    Txn (Option Nat) := fun db =>
  let inserted := payload.bind fun payload => db.outbox.insert (outboxRow now db eventId payload)
  (.ok (inserted.map Prod.fst), { db with outbox := outboxWith now db eventId payload })

/-- The table after `INSERT INTO command_ack_outbox … ON CONFLICT DO UPDATE`. -/
def acksWith (acks : Table AckRow String (fun row => some row.commandId)) (status : String)
    (detail : Option String) :
    Option CommandAck → Table AckRow String (fun row => some row.commandId)
  | none => acks
  | some (commandId, createdAt) =>
      match acks.insert ⟨commandId, status, detail, timestamp createdAt⟩ with
      | none =>
          acks.update (fun _ row => row.commandId == commandId)
            (fun row => { row with status, detail }) (fun _ => rfl)
      | some (_, acks) => acks

/-- `_ensure_command_ack`. -/
def ensureCommandAck (commandAck : Option CommandAck) (status : String)
    (detail : Option String) : Txn Unit :=
  Txn.modify fun db => { db with acks := acksWith db.acks status detail commandAck }

/-- `UPDATE actuation_claims`, with the number of rows it changed. -/
def updateClaims (sel : Nat → ClaimRow → Bool) (f : ClaimRow → ClaimRow)
    (hf : ∀ row, some (f row).idempotencyKey = some row.idempotencyKey) : Txn Nat := fun db =>
  (.ok (db.claims.count sel), { db with claims := db.claims.update sel f hf })

/-! ## The cooldown query -/

/-- The row of the latest activation attempt of any boot: `ORDER BY
activation_attempt_at DESC LIMIT 1` keeps the first of equals. -/
def latestAttempt (rows : List (Nat × ClaimRow)) : Option (String × String) :=
  rows.foldl (fun best p =>
    match p.2.activationAttemptAt, p.2.bootId, best with
    | some at_, some boot, none => some (at_, boot)
    | some at_, some boot, some b => if b.1 < at_ then some (at_, boot) else best
    | _, _, _ => best) none

/-- The query over `activation_monotonic`. -/
def monotonicAttempt (db : Db) (bootId : String) (cutoff : ℚ) : Bool :=
  db.claims.rows.any fun p =>
    p.2.bootId == some bootId && p.2.activationMonotonic.any (db.monotonic.le cutoff)

/-- Whether the latest attempt was made in another boot. -/
def otherBootLatest (db : Db) (bootId : String) : Bool :=
  (latestAttempt db.claims.rows).any fun b => b.2 != bootId

/-- The query over `events`. -/
def openedEvent (db : Db) (cutoff : String) : Bool :=
  db.events.rows.any fun p =>
    match p.2.relayActivatedAt with
    | some activatedAt => decide (cutoff ≤ activatedAt)
    | none => p.2.opened && decide (cutoff ≤ p.2.receivedAt)

/-- The query over `activation_attempt_at`. -/
def attemptedClaim (db : Db) (cutoff : String) : Bool :=
  db.claims.rows.any fun p => p.2.activationAttemptAt.any fun at_ => decide (cutoff ≤ at_)

/-- `_was_opened_since`. -/
def wasOpenedSince (db : Db) (cutoff : DateTime) (monotonicCutoff : Option ℚ)
    (bootId : Option String) : Bool :=
  (match monotonicCutoff, bootId with
    | some monotonic, some boot =>
        monotonicAttempt db boot monotonic || (otherBootLatest db boot && decide (monotonic < 0))
    | _, _ => false) ||
  openedEvent db (timestamp cutoff) || attemptedClaim db (timestamp cutoff)

/-! ## Operations -/

/-- The arguments of `claim_actuation`. -/
structure ClaimArgs where
  idempotencyKey : String
  claimedAt : DateTime
  cooldownCutoff : Option DateTime := none
  monotonicCutoff : Option ℚ := none
  bootId : Option String := none
  event : Option GateEvent := none
  outboxPayload : Option Fields := none
  commandAck : Option CommandAck := none

/-- The row that `claim_actuation` inserts. -/
def ClaimArgs.row (a : ClaimArgs) : ClaimRow where
  idempotencyKey := a.idempotencyKey
  claimedAt := timestamp a.claimedAt
  state := .claimed
  pendingEvent := a.event.map encodePendingEvent
  pendingOutboxPayload := encodeOptionalJson a.outboxPayload
  pendingCommandId := a.commandAck.map Prod.fst
  pendingCommandCreatedAt := a.commandAck.map fun ack => timestamp ack.2

/-- Whether the cooldown refuses the claim. -/
def ClaimArgs.refused (a : ClaimArgs) (db : Db) : Bool :=
  a.cooldownCutoff.any fun cutoff => wasOpenedSince db cutoff a.monotonicCutoff a.bootId

/-- The status that an existing row answers with. -/
def existingStatus : ClaimState → ClaimStatus
  | .claimed => .indeterminateClaim
  | .finalized => .duplicateEvent

/-- `claim_actuation`. -/
def claimActuation (a : ClaimArgs) : Txn ActuationClaim := Txn.transaction do
  match ← Txn.select fun db => db.claims.byKey a.idempotencyKey with
  | some (id, row) =>
      return ⟨a.idempotencyKey, existingStatus row.state, some (parseTimestamp row.claimedAt),
        some id⟩
  | none =>
      if ← Txn.select a.refused then
        return { idempotencyKey := a.idempotencyKey, status := .cooldown }
      else
        fun db =>
          match db.claims.insert a.row with
          | none => (.error .integrityError, db)
          | some (id, claims) =>
              (.ok ⟨a.idempotencyKey, .claimed, some (asUtc a.claimedAt), some id⟩,
                { db with claims })

/-- The arguments of `mark_actuation_attempt`. -/
structure MarkArgs where
  claim : ActuationClaim
  attemptedAt : DateTime
  event : GateEvent
  outboxPayload : Option Fields := none
  commandAck : Option CommandAck := none
  attemptedMonotonic : Option ℚ := none
  bootId : Option String := none

/-- What `mark_actuation_attempt` writes into the row of the claim. -/
def MarkArgs.mark (a : MarkArgs) (row : ClaimRow) : ClaimRow :=
  { row with
    activationAttemptAt := some (timestamp a.attemptedAt)
    pendingEvent := some (encodePendingEvent a.event)
    pendingOutboxPayload := encodeOptionalJson a.outboxPayload
    pendingCommandId := a.commandAck.map Prod.fst
    pendingCommandCreatedAt := a.commandAck.map fun ack => timestamp ack.2
    activationMonotonic := a.attemptedMonotonic
    bootId := a.bootId }

/-- The rows that may still be marked. -/
def unattempted (row : ClaimRow) : Bool :=
  row.state == .claimed && row.activationAttemptAt == none

/-- `mark_actuation_attempt`. -/
def markActuationAttempt (a : MarkArgs) : Txn Unit :=
  match a.claim.status, a.claim.claimId with
  | .claimed, some claimId => Txn.transaction do
      let rowcount ← updateClaims (fun id row => id == claimId && unattempted row) a.mark
        (fun _ => rfl)
      if rowcount ≠ 1 then
        Txn.raise (.runtimeError "actuation claim is no longer safe to execute")
  | _, _ => Txn.raise (.valueError "actuation attempt requires an active claim")

/-- The arguments of `finalize_actuation`. -/
structure FinalizeArgs where
  claim : ActuationClaim
  event : GateEvent
  terminalStatus : Option String := none
  terminalDetail : Option String := none
  outboxPayload : Option Fields := none
  commandAck : Option CommandAck := none
  retainActivationAttempt : Bool := true

/-- The status a claim is finalized with. -/
def FinalizeArgs.status (a : FinalizeArgs) : String :=
  match a.terminalStatus with
  | some text => if text != "" then text else if a.event.opened then "completed" else "failed"
  | none => if a.event.opened then "completed" else "failed"

/-- Whether the marker of the attempt stays. -/
def FinalizeArgs.keepAttempt (a : FinalizeArgs) : Bool :=
  a.retainActivationAttempt && a.status != "expired"

/-- What `finalize_actuation` writes into the row of the claim. -/
def FinalizeArgs.finalize (a : FinalizeArgs) (eventId : Nat) (row : ClaimRow) : ClaimRow :=
  { row with
    state := .finalized
    eventId := some eventId
    terminalStatus := some a.status
    terminalDetail := a.terminalDetail
    activationAttemptAt := if a.keepAttempt then row.activationAttemptAt else none
    activationMonotonic := if a.keepAttempt then row.activationMonotonic else none
    bootId := if a.keepAttempt then row.bootId else none
    pendingEvent := none
    pendingOutboxPayload := none
    pendingCommandId := none
    pendingCommandCreatedAt := none }

/-- `finalize_actuation`. -/
def finalizeActuation (now : DateTime) (a : FinalizeArgs) : Txn Nat :=
  if a.claim.status ≠ .claimed ∨ a.event.idempotencyKey ≠ some a.claim.idempotencyKey then
    Txn.raise (.valueError "event does not match active actuation claim")
  else Txn.transaction do
    match ← Txn.select fun db => a.claim.claimId.bind db.claims.find? with
    | some row =>
        if row.state ≠ .claimed then
          Txn.raise (.runtimeError "actuation claim is no longer active")
        else do
          let eventId ← insertEvent a.event
          let _ ← ensureOutboxRow now eventId a.outboxPayload
          ensureCommandAck a.commandAck a.status a.terminalDetail
          let _ ← updateClaims (fun id _ => some id == a.claim.claimId) (a.finalize eventId)
            (fun _ => rfl)
          return eventId
    | none => Txn.raise (.runtimeError "actuation claim is no longer active")

/-- `record_event_with_outbox`. -/
def recordEventWithOutbox (now : DateTime) (event : GateEvent) (payload : Option Fields) :
    Txn Nat := Txn.transaction do
  let eventId ← Txn.exceptIntegrityError (insertEvent event) do
    match event.idempotencyKey with
    | some key =>
        if key = "" then Txn.raise .integrityError
        else match ← Txn.select fun db => db.events.byKey key with
          | some (id, _) => return id
          | none => Txn.raise .integrityError
    | none => Txn.raise .integrityError
  let _ ← ensureOutboxRow now eventId payload
  return eventId

/-- The arguments of `record_terminal_outcome`. -/
structure TerminalArgs where
  event : GateEvent
  status : String
  detail : Option String
  outboxPayload : Option Fields := none
  commandAck : Option CommandAck := none

/-- The row that `record_terminal_outcome` inserts. -/
def TerminalArgs.row (a : TerminalArgs) (key : String) (eventId : Nat) : ClaimRow where
  idempotencyKey := key
  claimedAt := timestamp (a.event.decisionAt.getD a.event.receivedAt)
  state := .finalized
  eventId := some eventId
  terminalStatus := some a.status
  terminalDetail := a.detail

/-- `INSERT INTO actuation_claims` of a finalized row. -/
def insertClaim (row : ClaimRow) : Txn Unit := fun db =>
  match db.claims.insert row with
  | none => (.error .integrityError, db)
  | some (_, claims) => (.ok (), { db with claims })

/-- `record_terminal_outcome` of an event with a key. -/
def recordTerminalOutcomeOf (now : DateTime) (a : TerminalArgs) (key : String) :
    Txn (Option Nat) := Txn.transaction do
  match ← Txn.select fun db => db.claims.byKey key with
  | some (_, row) =>
      match row.eventId with
      | some eventId =>
          let _ ← ensureOutboxRow now eventId a.outboxPayload
      | none => pure ()
      ensureCommandAck a.commandAck a.status a.detail
      return row.eventId
  | none =>
      let eventId ← insertEvent a.event
      let _ ← ensureOutboxRow now eventId a.outboxPayload
      ensureCommandAck a.commandAck a.status a.detail
      insertClaim (a.row key eventId)
      return some eventId

/-- `record_terminal_outcome`. -/
def recordTerminalOutcome (now : DateTime) (a : TerminalArgs) : Txn (Option Nat) :=
  match a.event.idempotencyKey with
  | some key =>
      if key = "" then some <$> recordEventWithOutbox now a.event a.outboxPayload
      else recordTerminalOutcomeOf now a key
  | none => some <$> recordEventWithOutbox now a.event a.outboxPayload

/-- `ensure_outbox`. -/
def ensureOutbox (now : DateTime) (eventId : Nat) (payload : Option Fields) :
    Txn (Option Nat) := Txn.transaction (ensureOutboxRow now eventId payload)

/-- `queue_command_ack`. -/
def queueCommandAck (commandAck : CommandAck) (status : String) (detail : Option String) :
    Txn Unit := Txn.transaction (ensureCommandAck (some commandAck) status detail)

/-- `release_outbox_without_telemetry`. -/
def releaseOutboxWithoutTelemetry (eventId : Nat) : Txn Unit :=
  Txn.transaction <| Txn.modify fun db => { db with
    outbox := db.outbox.update
      (fun _ row => row.eventId == eventId && row.completedAt.isNone
        && row.sendState == .awaitingTelemetry)
      (fun row => { row with sendState := .ready }) (fun _ => rfl) }

/-- The columns of an outbox row that carries a trace. -/
def OutboxRow.promote (telemetry : Fields) (row : OutboxRow) (payload : Fields) : OutboxRow :=
  { row with
    payload := .json (.obj (Fields.set (Fields.set payload "schema_version" (.num 3))
      "telemetry" (.obj telemetry)))
    sendState := .telemetryReady }

/-- `_promote_outbox`. -/
def promoteOutbox (eventId : Nat) (telemetry : Fields) : Txn Unit := do
  match ← Txn.select fun db => db.outbox.byKey eventId with
  | none => return ()
  | some (_, row) =>
      match row.payload with
      | .other _ => Txn.raise (.valueError "Expecting value")
      | .json (.obj payload) =>
          if row.completedAt.isSome then return ()
          else Txn.modify fun db => { db with
            outbox := db.outbox.update (fun _ row => row.eventId == eventId)
              (fun row => OutboxRow.promote telemetry row payload) (fun _ => rfl) }
      | .json _ =>
          if row.completedAt.isSome then return ()
          else Txn.raise (.typeError "object does not support item assignment")

/-- `attach_event_telemetry`.  The table of the traces themselves is not part of
`Db`: a trace that conflicts with a stored one raises, as a storage fault does. -/
def attachEventTelemetry (eventId : Nat) (telemetry : Fields) : Txn Unit := Txn.transaction do
  match ← Txn.select fun db => db.events.find? eventId with
  | none => Txn.raise (.keyError s!"unknown event {eventId}")
  | some _ => promoteOutbox eventId telemetry

/-! ## Reads -/

/-- `terminal_outcome`. -/
def terminalOutcome (key : String) : Txn (Option TerminalOutcome) :=
  Txn.select fun db =>
    match db.claims.byKey key with
    | some (_, row) =>
        match row.state with
        | .claimed => none
        | .finalized =>
            some ⟨if truthy row.terminalStatus then row.terminalStatus.getD "" else "failed",
              row.terminalDetail, row.eventId⟩
    | none => none

/-- `actuation_claim_status`. -/
def actuationClaimStatus (key : String) : Txn (Option ClaimStatus) :=
  Txn.select fun db => (db.claims.byKey key).map fun p => existingStatus p.2.state

/-- `event_id`. -/
def eventId (key : String) : Txn (Option Nat) :=
  Txn.select fun db => (db.events.byKey key).map Prod.fst

/-! ## Recovery -/

/-- The exceptions that make recovery leave a row alone. -/
def undecodable : Exc → Bool
  | .keyError _ => true
  | .typeError _ => true
  | .valueError _ => true
  | _ => false

/-- The pending data of a claim. -/
def pendingData (eventText : JsonText) (row : ClaimRow) :
    Except Exc (GateEvent × Option Fields × Option CommandAck) := do
  let event ← decodePendingEvent eventText
  let payload ← decodeOptionalJson row.pendingOutboxPayload
  let commandAck :=
    match row.pendingCommandId, row.pendingCommandCreatedAt with
    | some commandId, some createdAt => some (commandId, parseTimestamp createdAt)
    | _, _ => none
  return (event, payload, commandAck)

/-- Why an interrupted call is reported as failed. -/
def recoveryReason (row : ClaimRow) : String :=
  if row.activationAttemptAt.isSome then "indeterminate_claim"
  else "interrupted_before_activation"

/-- The event that reports an interrupted call. -/
def recoveredEvent (reason : String) (event : GateEvent) : GateEvent :=
  { event with reason, opened := false, relayActivatedAt := none }

/-- What recovery writes into the row of the claim. -/
def recoverRow (reason : String) (eventId : Nat) (row : ClaimRow) : ClaimRow :=
  { row with
    state := .finalized
    eventId := some eventId
    terminalStatus := some "failed"
    terminalDetail := some reason
    pendingEvent := none
    pendingOutboxPayload := none
    pendingCommandId := none
    pendingCommandCreatedAt := none }

/-- The event of the recovered call, found if it is there already. -/
def insertRecovered (event recovered : GateEvent) : Txn Nat :=
  Txn.exceptIntegrityError (insertEvent recovered) do
    match event.idempotencyKey with
    | none => Txn.raise .integrityError
    | some key =>
        match ← Txn.select fun db => db.events.byKey key with
        | some (id, _) => return id
        | none => Txn.raise .integrityError

/-- One interrupted claim, as it was selected.  The answer counts it. -/
def recoverClaim (now : DateTime) (claimId : Nat) (row : ClaimRow) : Txn Nat :=
  match row.pendingEvent with
  | none => pure 0
  | some eventText =>
      match pendingData eventText row with
      | .error x => if undecodable x then pure 0 else Txn.raise x
      | .ok (event, payload, commandAck) => do
          let reason := recoveryReason row
          let eventId ← insertRecovered event (recoveredEvent reason event)
          let _ ← ensureOutboxRow now eventId payload
          ensureCommandAck commandAck "failed" (some reason)
          let _ ← updateClaims (fun id row => id == claimId && row.state == .claimed)
            (recoverRow reason eventId) (fun _ => rfl)
          return 1

/-- The loop over the selected claims. -/
def recoverClaims (now : DateTime) : List (Nat × ClaimRow) → Txn Nat
  | [] => pure 0
  | p :: rest => do
      let n ← recoverClaim now p.1 p.2
      let m ← recoverClaims now rest
      return n + m

/-- The claims that recovery selects. -/
def interrupted (db : Db) : List (Nat × ClaimRow) :=
  db.claims.rows.filter fun p => p.2.state == .claimed && p.2.pendingEvent.isSome

/-- No row is left waiting for a trace. -/
def releaseAll (db : Db) : Db :=
  { db with
    outbox := db.outbox.update
      (fun _ row => row.completedAt.isNone && row.sendState == .awaitingTelemetry)
      (fun row => { row with sendState := .ready }) (fun _ => rfl) }

/-- `recover_interrupted_actuations`. -/
def recoverInterruptedActuations (now : DateTime) : Txn Nat := Txn.transaction do
  let rows ← Txn.select interrupted
  let recovered ← recoverClaims now rows
  Txn.modify releaseAll
  return recovered

end LocalStore

/-! ## The interface -/

open LocalStore

/-- A call of the store. -/
inductive StoreOp : Type where
  | terminalOutcome (key : String)
  | actuationClaimStatus (key : String)
  | eventId (key : String)
  | claimActuation (a : ClaimArgs)
  | markActuationAttempt (a : MarkArgs)
  | finalizeActuation (a : FinalizeArgs)
  | recordTerminalOutcome (a : TerminalArgs)
  | recordEventWithOutbox (event : GateEvent) (payload : Option Fields)
  | recoverInterruptedActuations
  | ensureOutbox (eventId : Nat) (payload : Option Fields)
  | queueCommandAck (commandAck : CommandAck) (status : String) (detail : Option String)
  | releaseOutboxWithoutTelemetry (eventId : Nat)
  | attachEventTelemetry (eventId : Nat) (telemetry : Fields)

/-- What a call of the store returns. -/
@[reducible] def StoreOp.Ans : StoreOp → Type
  | .terminalOutcome _ => Option TerminalOutcome
  | .actuationClaimStatus _ => Option ClaimStatus
  | .eventId _ => Option Nat
  | .claimActuation _ => ActuationClaim
  | .markActuationAttempt _ => Unit
  | .finalizeActuation _ => Nat
  | .recordTerminalOutcome _ => Option Nat
  | .recordEventWithOutbox _ _ => Nat
  | .recoverInterruptedActuations => Nat
  | .ensureOutbox _ _ => Option Nat
  | .queueCommandAck _ _ _ => Unit
  | .releaseOutboxWithoutTelemetry _ => Unit
  | .attachEventTelemetry _ _ => Unit

/-- The transaction of a call, made when the wall clock shows `now`. -/
def StoreOp.txn (now : DateTime) : (op : StoreOp) → Txn op.Ans
  | .terminalOutcome key => LocalStore.terminalOutcome key
  | .actuationClaimStatus key => LocalStore.actuationClaimStatus key
  | .eventId key => LocalStore.eventId key
  | .claimActuation a => LocalStore.claimActuation a
  | .markActuationAttempt a => LocalStore.markActuationAttempt a
  | .finalizeActuation a => LocalStore.finalizeActuation now a
  | .recordTerminalOutcome a => LocalStore.recordTerminalOutcome now a
  | .recordEventWithOutbox event payload => LocalStore.recordEventWithOutbox now event payload
  | .recoverInterruptedActuations => LocalStore.recoverInterruptedActuations now
  | .ensureOutbox id payload => LocalStore.ensureOutbox now id payload
  | .queueCommandAck commandAck status detail => LocalStore.queueCommandAck commandAck status detail
  | .releaseOutboxWithoutTelemetry id => LocalStore.releaseOutboxWithoutTelemetry id
  | .attachEventTelemetry id telemetry => LocalStore.attachEventTelemetry id telemetry

/-- A call that commits, or that a fault of the storage rolls back. -/
def StoreOp.run (now : DateTime) (fault : Option Exc) (op : StoreOp) (db : Db) :
    Except Exc op.Ans × Db :=
  match fault with
  | some x => (.error x, db)
  | none => op.txn now db

end GateController

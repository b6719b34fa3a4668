import GateController.Data.Fields
import GateController.Data.Text
import GateController.Effects.Crash
import GateController.Store.Operations
import GateController.Store.Timestamps

/-!
# Bringing an older database up to date

`LocalStore._migrate` on the file of an older version.  A table may be missing, and
`actuation_claims` and `outbox` may lack columns.  Every statement that changes the structure
commits by itself.  The statements that change rows are one transaction, of which nothing is on
disk before it commits, so a crash within it is a crash before it.

The columns of a table that `_migrate` does not read stay cells under the names of the columns.
-/

namespace GateController

open Data Effects

/-! ## The file -/

/-- A value in a cell. -/
inductive SqlValue : Type where
  | null
  | integer (n : Int)
  | real (q : ℚ)
  | text (s : String)
  | blob (bytes : List UInt8)

/-- A table as cells, with the names of its columns. -/
structure RawTable where
  columns : List String
  rows : List (List SqlValue)

/-- `ALTER TABLE … ADD COLUMN`, without a default. -/
def RawTable.addColumn (t : RawTable) (name : String) : RawTable where
  columns := t.columns ++ [name]
  rows := t.rows.map (· ++ [.null])

/-- The value of a row under a name. -/
def RawTable.cell (t : RawTable) (row : List SqlValue) (name : String) : SqlValue :=
  ((t.columns.zip row).lookup name).getD .null

/-- A JSON object. -/
structure JsonObject where
  fields : Fields
  names : (fields.map Prod.fst).Nodup

/-- The payload of an older row: a JSON object, or a text that is no JSON. -/
inductive LegacyPayload : Type where
  | object (o : JsonObject)
  | text (s : String)

/-- A row of `outbox`.  The column `send_state` may not be there yet. -/
structure LegacyOutboxRow where
  eventId : Nat
  payload : LegacyPayload
  createdAt : String
  completedAt : Option String
  sendState : SendState

/-- The table `outbox`.  It may be without the index that keeps events from repeating. -/
structure LegacyOutbox where
  hasSendState : Bool
  table : Table LegacyOutboxRow Nat (fun _ => none)

/-- The file.  A table that is not there has no value. -/
structure Disk where
  events : Option (Table EventRow String EventRow.idempotencyKey)
  claims : Option RawTable
  outbox : Option LegacyOutbox
  migrations : Option (List String)
  acks : Option RawTable
  telemetry : Option RawTable
  indexes : List String
  log : Option RawTable

/-! ## The structure -/

/-- The tables that `_migrate` creates. -/
inductive TableName : Type where
  | events
  | actuationClaims
  | outbox
  | schemaMigrations
  | commandAckOutbox
  | eventTelemetry
deriving DecidableEq

/-- A statement that changes the structure. -/
inductive Ddl : Type where
  | createTable (table : TableName)
  | createIndex (name : String)
  /-- `ALTER TABLE actuation_claims ADD COLUMN`. -/
  | addClaimColumn (name : String)
  /-- `ALTER TABLE outbox ADD COLUMN send_state`. -/
  | addSendState
deriving DecidableEq

/-- The columns that the loop over `actuation_claims` adds. -/
def addedColumns : List String :=
  ["terminal_status", "terminal_detail", "activation_attempt_at", "activation_monotonic",
    "boot_id", "pending_event", "pending_outbox_payload", "pending_command_id",
    "pending_command_created_at"]

/-- The columns of a new `actuation_claims`. -/
def claimColumns : List String :=
  ["id", "idempotency_key", "claimed_at", "state", "event_id", "detail"] ++ addedColumns

namespace Disk

/-- `CREATE TABLE IF NOT EXISTS`. -/
def createTable (d : Disk) : TableName → Disk
  | .events => { d with events := some (d.events.getD .empty) }
  | .actuationClaims => { d with claims := some (d.claims.getD ⟨claimColumns, []⟩) }
  | .outbox => { d with outbox := some (d.outbox.getD ⟨true, .empty⟩) }
  | .schemaMigrations => { d with migrations := some (d.migrations.getD []) }
  | .commandAckOutbox =>
      { d with acks := some (d.acks.getD ⟨["command_id", "status", "detail", "created_at"], []⟩) }
  | .eventTelemetry =>
      { d with
        telemetry := some (d.telemetry.getD ⟨["event_id", "trace_id", "payload", "created_at"], []⟩) }

/-- Two rows of `outbox` are for one event, which a unique index does not allow. -/
def repeatsEvent (d : Disk) : Bool :=
  match d.outbox with
  | none => false
  | some outbox => !decide (outbox.table.rows.map fun p => p.2.eventId).Nodup

/-- `CREATE INDEX IF NOT EXISTS`.  One of the indexes is unique. -/
def createIndex (d : Disk) (name : String) : Except Exc Disk :=
  if name ∈ d.indexes then .ok d
  else if name = "outbox_one_per_event" ∧ d.repeatsEvent = true then .error .integrityError
  else .ok { d with indexes := d.indexes ++ [name] }

/-- `PRAGMA table_info(actuation_claims)`. -/
def claimColumns (d : Disk) : List String := (d.claims.map RawTable.columns).getD []

/-- `PRAGMA table_info(outbox)`. -/
def outboxColumns (d : Disk) : List String :=
  match d.outbox with
  | none => []
  | some outbox =>
      ["id", "event_id", "payload", "created_at", "completed_at"] ++
        if outbox.hasSendState then ["send_state"] else []

/-- `ALTER TABLE actuation_claims ADD COLUMN`, which raises if the column is there. -/
def addClaimColumn (d : Disk) (name : String) : Except Exc Disk :=
  match d.claims with
  | none => .error .other
  | some claims =>
      if name ∈ claims.columns then .error .other
      else .ok { d with claims := some (claims.addColumn name) }

/-- `ALTER TABLE outbox ADD COLUMN send_state`, with a default. -/
def addSendState (d : Disk) : Except Exc Disk :=
  match d.outbox with
  | none => .error .other
  | some outbox =>
      if outbox.hasSendState then .error .other
      else
        .ok { d with outbox := some ⟨true, outbox.table.update (fun _ _ => true)
          (fun row => { row with sendState := .ready }) fun _ => rfl⟩ }

/-- A statement that changes the structure. -/
def perform (d : Disk) : Ddl → Except Exc Disk
  | .createTable table => .ok (d.createTable table)
  | .createIndex name => d.createIndex name
  | .addClaimColumn name => d.addClaimColumn name
  | .addSendState => d.addSendState

end Disk

/-! ## The rows -/

/-- What the transaction reads and writes. -/
structure Contents where
  events : Table EventRow String EventRow.idempotencyKey
  outbox : Table LegacyOutboxRow Nat (fun _ => none)
  migrations : List String
  log : Option RawTable

/-- Statements of the transaction.  What they did is gone if one of them raises. -/
abbrev Transaction (α : Type) := StateT Contents (Except Exc) α

namespace JsonObject

/-- `{}`. -/
def empty : JsonObject := ⟨[], List.nodup_nil⟩

def get? (o : JsonObject) (name : String) : Option Json := Fields.get? o.fields name

/-- `pop`, without what is popped. -/
def erase (o : JsonObject) (name : String) : JsonObject :=
  ⟨Fields.erase o.fields name, Fields.nodup_erase o.names name⟩

def set (o : JsonObject) (name : String) (value : Json) : JsonObject :=
  ⟨Fields.set o.fields name value, Fields.nodup_set o.names name value⟩

def update (o other : JsonObject) : JsonObject :=
  ⟨Fields.update o.fields other.fields, Fields.nodup_update o.names other.fields⟩

end JsonObject

/-- `json.loads`, with an empty object for a text that is no JSON. -/
def LegacyPayload.loads : LegacyPayload → JsonObject
  | .object o => o
  | .text _ => .empty

namespace LocalStore

/-- The names of an event's fields do not repeat. -/
theorem nodup_eventPayload {db : Db} {eventId : Nat} {fields : Fields}
    (h : eventPayload db eventId = some fields) : (fields.map Prod.fst).Nodup := by
  obtain ⟨row, -, rfl⟩ := Option.map_eq_some_iff.1 h
  have hnames : ["event_id", "received_at", "decision_at", "relay_activated_at", "source",
      "reason", "opened", "idempotency_key", "authorised_plate", "observed_plate",
      "ocr_confidence", "schema_version"].Nodup := by decide
  exact hnames

/-- `_event_payload(…) or {}`. -/
def eventObject (events : Table EventRow String EventRow.idempotencyKey) (eventId : Nat) :
    JsonObject :=
  match h : eventPayload { Db.fresh with events } eventId with
  | none => .empty
  | some fields => ⟨fields, nodup_eventPayload h⟩

/-! ### The legacy log -/

/-- `_legacy_log_exists`. -/
def legacyLog (log : Option RawTable) : Option RawTable :=
  log.filter fun log => decide ("timestamp" ∈ log.columns ∧ "gate_opened" ∈ log.columns)

/-- `_timestamp(_parse_timestamp(value))`.  A text that cannot be read is the earliest time, and
so is a value that is no text.  Bytes have a `replace` that raises. -/
def legacyTimestamp (fromisoformat : String → Option Wall) : SqlValue → Except Exc String
  | .text text =>
      match fromisoformat (replaceZ text) with
      | none => .ok (timestamp datetimeMin)
      | some value =>
          match wallTimestamp value with
          | none => .error (.overflowError "date value out of range")
          | some text => .ok text
  | .blob _ => .error (.typeError "a bytes-like object is required, not 'str'")
  | _ => .ok (timestamp datetimeMin)

/-- `_legacy_true`. -/
def legacyTrue : SqlValue → Bool
  | .integer n => n != 0
  | .real q => q != 0
  | .text text =>
      ["1", "true", "yes", "y", "on"].contains (Text.lower (Text.strip text))
  | _ => false

/-- The event of a row of the log. -/
def legacyEvent (fromisoformat : String → Option Wall) (log : RawTable) (row : List SqlValue) :
    Except Exc EventRow :=
  (legacyTimestamp fromisoformat (log.cell row "timestamp")).map fun receivedAt =>
    { receivedAt
      decisionAt := none
      relayActivatedAt := none
      source := "legacy"
      reason := "legacy_log_import"
      opened := legacyTrue (log.cell row "gate_opened")
      idempotencyKey := none
      authorisedPlate := none
      observedPlate := none
      ocrConfidence := 0 }

/-- The loop of `_import_legacy_log`. -/
def importRows (fromisoformat : String → Option Wall) (log : RawTable) :
    List (List SqlValue) → Transaction Unit
  | [] => return ()
  | row :: rest => do
      let event ← (legacyEvent fromisoformat log row : Except Exc EventRow)
      let contents ← get
      match contents.events.insert event with
      | none => throw .integrityError
      | some (_, events) => set { contents with events }
      importRows fromisoformat log rest

/-- `_import_legacy_log`. -/
def importLegacyLog (fromisoformat : String → Option Wall) (log : RawTable) : Transaction Unit :=
  importRows fromisoformat log log.rows

/-! ### The payloads -/

/-- `UPDATE outbox … WHERE id = ?`. -/
def putRow (id : Nat) (row : LegacyOutboxRow) : Transaction Unit :=
  modify fun contents => { contents with
    outbox := contents.outbox.update (fun i _ => i == id) (fun _ => row) fun _ => rfl }

/-- A loop over the rows of the outbox, which changes some of them. -/
def rewriteRows (change : Contents → LegacyOutboxRow → Option LegacyOutboxRow) :
    List (Nat × LegacyOutboxRow) → Transaction Unit
  | [] => return ()
  | (id, row) :: rest => do
      match change (← get) row with
      | none => pure ()
      | some row => putRow id row
      rewriteRows change rest

/-- The loop of `outbox_payload_v1`. -/
def enrichedRow (contents : Contents) (row : LegacyOutboxRow) : Option LegacyOutboxRow :=
  if row.completedAt.isSome then none
  else
    let payload := row.payload.loads
    some { row with payload := .object ((eventObject contents.events row.eventId).update payload) }

/-- The loop of `outbox_evidence_v2`. -/
def evidenceRow (contents : Contents) (row : LegacyOutboxRow) : Option LegacyOutboxRow :=
  let legacyPath := row.payload.loads.get? "_local_image_path"
  let payload := row.payload.loads.erase "_local_image_path"
  let payload :=
    match legacyPath with
    | none => payload
    | some .null => payload
    | some _ =>
        if (payload.get? "image_sha256").isNone then
          payload.set "image_status" (.str "legacy_evidence_unavailable")
        else payload
  some { row with payload := .object ((eventObject contents.events row.eventId).update payload) }

/-- The telemetry of a payload of version 3. -/
def v3Telemetry (payload : JsonObject) : Option Fields :=
  match payload.get? "schema_version", payload.get? "telemetry" with
  | some (.num version), some (.obj telemetry) => if version = 3 then some telemetry else none
  | _, _ => none

/-- `_is_image_free_v3_telemetry_payload`. -/
def isImageFreeV3TelemetryPayload (payload : JsonObject) : Bool :=
  (v3Telemetry payload).isSome && (payload.get? "image_sha256").isNone &&
    (payload.get? "image_status").isNone

/-- The text under a name, if there is one. -/
def textOf : Option Json → Option String
  | some (.str text) => some text
  | _ => none

/-- `_is_incompatible_v3_followup`. -/
def isIncompatibleV3Followup (payload : JsonObject) (sendState : SendState) : Bool :=
  match v3Telemetry payload with
  | none => false
  | some telemetry =>
      if textOf (payload.get? "image_status") = some "delivered_before_telemetry" then true
      else if !isImageFreeV3TelemetryPayload payload then false
      else
        match Fields.get? telemetry "delivery" with
        | some (.obj delivery) =>
            (sendState == .ready || sendState == .localOnly) &&
              textOf (Fields.get? delivery "state") == some "pending"
        | _ => false

/-- The loop of `outbox_incompatible_followup_v3`, with the condition of its `SELECT`. -/
def followupRow (_ : Contents) (row : LegacyOutboxRow) : Option LegacyOutboxRow :=
  if row.completedAt.isSome || row.sendState == .awaitingTelemetry then none
  else
    match row.payload with
    | .text _ => none
    | .object payload =>
        if isIncompatibleV3Followup payload row.sendState then
          some { row with sendState := .localOnly }
        else if row.sendState == .localOnly && isImageFreeV3TelemetryPayload payload then
          some { row with sendState := .ready }
        else none

/-! ### The transaction -/

/-- `SELECT 1 FROM schema_migrations WHERE name = ?`. -/
def applied (name : String) : Transaction Bool := do
  return decide (name ∈ (← get).migrations)

/-- `INSERT INTO schema_migrations`. -/
def record (name : String) : Transaction Unit := do
  let contents ← get
  if name ∈ contents.migrations then throw .integrityError
  else set { contents with migrations := contents.migrations ++ [name] }

/-- `INSERT OR IGNORE INTO schema_migrations`. -/
def recordOnce (name : String) : Transaction Unit :=
  modify fun contents =>
    if name ∈ contents.migrations then contents
    else { contents with migrations := contents.migrations ++ [name] }

/-- A migration of the outbox, unless it is recorded. -/
def migrateOutbox (name : String)
    (change : Contents → LegacyOutboxRow → Option LegacyOutboxRow) : Transaction Unit := do
  let done ← applied name
  if !done then
    rewriteRows change (← get).outbox.rows
    record name

/-- The import of the legacy log, unless it is recorded. -/
def importOutstanding (fromisoformat : String → Option Wall) : Transaction Unit := do
  let done ← applied "legacy_log_import"
  if !done then
    match legacyLog (← get).log with
    | none => pure ()
    | some log => importLegacyLog fromisoformat log

/-- The statements of `_migrate` that change rows. -/
def migrateRows (fromisoformat : String → Option Wall) : Transaction Unit := do
  importOutstanding fromisoformat
  recordOnce "legacy_log_import"
  migrateOutbox "outbox_payload_v1" enrichedRow
  migrateOutbox "outbox_evidence_v2" evidenceRow
  migrateOutbox "outbox_incompatible_followup_v3" followupRow

end LocalStore

/-- What the transaction reads, if the tables are there. -/
def Disk.contents (d : Disk) : Option Contents :=
  match d.events, d.outbox, d.migrations with
  | some events, some outbox, some migrations => some ⟨events, outbox.table, migrations, d.log⟩
  | _, _, _ => none

/-- The file after the transaction. -/
def Disk.withContents (d : Disk) (contents : Contents) : Disk :=
  { d with
    events := some contents.events
    outbox := d.outbox.map fun outbox => { outbox with table := contents.outbox }
    migrations := some contents.migrations }

/-! ## The program -/

/-- What `_migrate` does to the file, one commit at a time. -/
inductive MigrationEff : Type where
  | ddl (statement : Ddl)
  | claimColumns
  | outboxColumns
  /-- The transaction, up to its commit. -/
  | rows
  | close

@[reducible] def MigrationEff.Ans : MigrationEff → Type
  | .ddl _ => Unit
  | .claimColumns => List String
  | .outboxColumns => List String
  | .rows => Unit
  | .close => Unit

abbrev MigrationProg (α : Type) := Prog MigrationEff MigrationEff.Ans Exc α

namespace LocalStore

/-- The script. -/
def script : List Ddl :=
  [.createTable .events, .createTable .actuationClaims, .createTable .outbox,
    .createTable .schemaMigrations, .createTable .commandAckOutbox, .createTable .eventTelemetry,
    .createIndex "events_relay_cooldown", .createIndex "events_received_cooldown",
    .createIndex "outbox_one_per_event", .createIndex "event_telemetry_created_at"]

/-- One operation, as a program. -/
def migrationOp (e : MigrationEff) : MigrationProg e.Ans := Prog.perform e

/-- `executescript`. -/
def executescript : List Ddl → MigrationProg Unit
  | [] => return ()
  | statement :: rest => do
      migrationOp (.ddl statement)
      executescript rest

/-- The loop over the columns of `actuation_claims`. -/
def addMissing (columns : List String) : List String → MigrationProg Unit
  | [] => return ()
  | name :: rest => do
      if name ∉ columns then
        migrationOp (.ddl (.addClaimColumn name))
      addMissing columns rest

/-- `_migrate`. -/
def migrate : MigrationProg Unit :=
  Prog.finally_ (do
    executescript script
    let columns ← migrationOp .claimColumns
    addMissing columns addedColumns
    let outboxColumns ← migrationOp .outboxColumns
    if "send_state" ∉ outboxColumns then
      migrationOp (.ddl .addSendState)
    migrationOp (.ddl (.createIndex "outbox_pending_send"))
    migrationOp .rows) (migrationOp .close)

/-- One operation on the file. -/
def execMigration (fromisoformat : String → Option Wall) :
    (e : MigrationEff) → Disk → Except Exc e.Ans × Disk
  | .ddl statement, d =>
      match d.perform statement with
      | .ok d' => (.ok (), d')
      | .error x => (.error x, d)
  | .claimColumns, d => (.ok d.claimColumns, d)
  | .outboxColumns, d => (.ok d.outboxColumns, d)
  | .rows, d =>
      match d.contents with
      | none => (.error .other, d)
      | some contents =>
          match migrateRows fromisoformat contents with
          | .ok (_, contents) => (.ok (), d.withContents contents)
          | .error x => (.error x, d)
  | .close, d => (.ok (), d)

/-- The construction of a store.  It may do a number of operations before it crashes. -/
def constructFor (fromisoformat : String → Option Wall) (operations : Nat) (d : Disk) :
    Option (Except Exc Unit) × Disk :=
  runFor (execMigration fromisoformat) operations migrate d

/-- The construction of a store, without a crash. -/
def construct (fromisoformat : String → Option Wall) (d : Disk) : Except Exc Unit × Disk :=
  runAlone (execMigration fromisoformat) migrate d

end LocalStore

end GateController

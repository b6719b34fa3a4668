import GateController.Data.Numeral
import GateController.Data.Table
import GateController.Models
import Mathlib.Algebra.Order.Ring.Rat

/-!
# The database

The tables of `LocalStore._migrate` that the event and actuation path uses.
Times are stored as text, and SQLite compares text byte by byte, which on UTF-8
is the order of Lean's `String`.  JSON columns hold a `JsonText`.

`activation_monotonic` is declared `REAL` by `CREATE TABLE` and `TEXT` by the
`ALTER TABLE` loop that brings an older table up to date.  A number bound into a
`TEXT` column is stored as text, and a bound number compared with the column is
turned into text first.  Nothing but one comparison reads the column, so a row
keeps the number that was bound and `MonotonicColumn.le` compares as the column
does.  `numeral` is SQLite's conversion of a number to text.

A transaction is a `Txn`.  Its statements change the state one by one, also on
the way to an exception, and `transaction` is what undoes them.
-/

namespace GateController

open Data

/-- A row of `events`. -/
structure EventRow where
  receivedAt : String
  decisionAt : Option String
  relayActivatedAt : Option String
  source : String
  reason : String
  opened : Bool
  idempotencyKey : Option String
  authorisedPlate : Option String
  observedPlate : Option String
  ocrConfidence : ℚ

/-- The `state` column of a claim. -/
inductive ClaimState where
  | claimed
  | finalized
deriving DecidableEq

/-- A row of `actuation_claims`. -/
structure ClaimRow where
  idempotencyKey : String
  claimedAt : String
  state : ClaimState
  eventId : Option Nat := none
  terminalStatus : Option String := none
  terminalDetail : Option String := none
  activationAttemptAt : Option String := none
  activationMonotonic : Option ℚ := none
  bootId : Option String := none
  pendingEvent : Option JsonText := none
  pendingOutboxPayload : Option JsonText := none
  pendingCommandId : Option String := none
  pendingCommandCreatedAt : Option String := none

/-- The `send_state` column of an outbox row. -/
inductive SendState where
  | ready
  | awaitingTelemetry
  | telemetryReady
  | localOnly
deriving DecidableEq

/-- A row of `outbox`. -/
structure OutboxRow where
  eventId : Nat
  payload : JsonText
  createdAt : String
  completedAt : Option String := none
  sendState : SendState

/-- A row of `command_ack_outbox`. -/
structure AckRow where
  commandId : String
  status : String
  detail : Option String
  createdAt : String

/-- How the column `activation_monotonic` was declared. -/
inductive MonotonicColumn where
  | real
  | text (numeral : ℚ → Numeral)

/-- `activation_monotonic >= cutoff`, for a value that is not `NULL`. -/
def MonotonicColumn.le : MonotonicColumn → ℚ → ℚ → Bool
  | .real, cutoff, value => decide (cutoff ≤ value)
  | .text numeral, cutoff, value => decide ((numeral cutoff).text ≤ (numeral value).text)

/-- The tables. -/
structure Db where
  events : Table EventRow String EventRow.idempotencyKey
  claims : Table ClaimRow String (fun row => some row.idempotencyKey)
  outbox : Table OutboxRow Nat (fun row => some row.eventId)
  acks : Table AckRow String (fun row => some row.commandId)
  monotonic : MonotonicColumn

/-- What `_migrate` creates in an empty file. -/
def Db.fresh : Db := ⟨.empty, .empty, .empty, .empty, .real⟩

/-- What `_migrate` makes of an empty file whose `actuation_claims` table was
created before it had the column `activation_monotonic`. -/
def Db.migrated (numeral : ℚ → Numeral) : Db := { Db.fresh with monotonic := .text numeral }

/-! ## Transactions -/

/-- Statements run on one connection. -/
def Txn (α : Type) : Type := Db → Except Exc α × Db

namespace Txn

variable {α β : Type}

instance : Monad Txn where
  pure a := fun db => (.ok a, db)
  bind m f := fun db =>
    match m db with
    | (.ok a, db') => f a db'
    | (.error x, db') => (.error x, db')

/-- Raise an exception.  What was written so far stays until it is rolled back. -/
def raise (x : Exc) : Txn α := fun db => (.error x, db)

/-- A `SELECT`. -/
def select (f : Db → α) : Txn α := fun db => (.ok (f db), db)

/-- An `UPDATE`. -/
def modify (f : Db → Db) : Txn Unit := fun db => (.ok (), f db)

/-- `except sqlite3.IntegrityError`. -/
def exceptIntegrityError (m handler : Txn α) : Txn α := fun db =>
  match m db with
  | (.error .integrityError, db') => handler db'
  | r => r

/-- Commit on return, roll back on an exception. -/
def transaction (m : Txn α) : Txn α := fun db =>
  match m db with
  | (.ok a, db') => (.ok a, db')
  | (.error x, _) => (.error x, db)

@[simp] theorem pure_run (a : α) (db : Db) : (pure a : Txn α) db = (.ok a, db) := rfl

theorem bind_run (m : Txn α) (f : α → Txn β) (db : Db) :
    (m >>= f) db =
      match m db with
      | (.ok a, db') => f a db'
      | (.error x, db') => (.error x, db') := rfl

/-- The steps of a block that returned. -/
theorem bind_eq_ok {m : Txn α} {f : α → Txn β} {db db' : Db} {b : β} :
    (m >>= f) db = (.ok b, db') ↔ ∃ a db₁, m db = (.ok a, db₁) ∧ f a db₁ = (.ok b, db') := by
  rw [bind_run]
  rcases h : m db with ⟨_ | a, db₁⟩
  · simp
  · simp

theorem map_eq_ok {m : Txn α} {f : α → β} {db db' : Db} {b : β} :
    (f <$> m) db = (.ok b, db') ↔ ∃ a, m db = (.ok a, db') ∧ f a = b := by
  have h : (f <$> m) db = (m >>= fun a => pure (f a)) db := rfl
  rw [h, bind_eq_ok]
  constructor
  · rintro ⟨a, db₁, hm, hp⟩
    cases hp
    exact ⟨a, hm, rfl⟩
  · rintro ⟨a, hm, rfl⟩
    exact ⟨a, db', hm, rfl⟩

@[simp] theorem raise_run (x : Exc) (db : Db) : (raise x : Txn α) db = (.error x, db) := rfl

@[simp] theorem select_run (f : Db → α) (db : Db) : select f db = (.ok (f db), db) := rfl

@[simp] theorem modify_run (f : Db → Db) (db : Db) : modify f db = (.ok (), f db) := rfl

/-- A transaction that returned is the block that returned. -/
@[simp] theorem transaction_eq_ok {m : Txn α} {db db' : Db} {a : α} :
    transaction m db = (.ok a, db') ↔ m db = (.ok a, db') := by
  unfold transaction
  rcases m db with ⟨_ | _, _⟩ <;> simp

/-- A call that leaves no trace when it raises. -/
def Atomic (m : Txn α) : Prop := ∀ db x db', m db = (.error x, db') → db' = db

theorem Atomic.transaction (m : Txn α) : Atomic (transaction m) := by
  intro db x db' h
  unfold Txn.transaction at h
  rcases hm : m db with ⟨_ | _, _⟩ <;> rw [hm] at h <;> simp_all

theorem Atomic.raise (x : Exc) : Atomic (raise x : Txn α) :=
  fun _ _ _ h => (Prod.mk.inj h).2.symm

theorem Atomic.select (f : Db → α) : Atomic (select f) :=
  fun _ _ _ h => (Prod.mk.inj h).2.symm

theorem Atomic.map {m : Txn α} (hm : Atomic m) (f : α → β) : Atomic (f <$> m) := by
  intro db x db' h
  have h' : (m >>= fun a => pure (f a)) db = (.error x, db') := h
  rw [bind_run] at h'
  rcases hrun : m db with ⟨y | a, db₁⟩ <;> rw [hrun] at h'
  · cases h'
    exact hm db x db' hrun
  · cases h'

end Txn

end GateController

import GateController.Store.Operations

/-!
# The column `activation_monotonic`

On a fresh database the column holds numbers, on a migrated one it holds text.
A text is found by its first digits, whatever their number: `"100.0"` is before
`"90.0"`.  `DigitsHarmless` says for which readings and which cutoff the query
over the text answers as over the numbers.  Every other statement of the store is
blind to how the column was declared (`Txn.Blind`), so that where the digits are
harmless a call of the store does the same to both databases.
-/

namespace GateController

open Data

/-- The same rows, with the column declared in another way. -/
def Db.withColumn (db : Db) (col : MonotonicColumn) : Db := { db with monotonic := col }

/-! ## The query -/

namespace LocalStore

/-- The readings that are recorded for a boot. -/
def attemptsOf (db : Db) (bootId : String) : List ℚ :=
  db.claims.rows.filterMap fun p =>
    if p.2.bootId = some bootId then p.2.activationMonotonic else none

/-- A reading that a text column hides from the query.  It is at or after the
cutoff, and its digits come before those of the cutoff. -/
def HiddenReading (numeral : ℚ → Numeral) (cutoff value : ℚ) : Prop :=
  cutoff ≤ value ∧ ¬ (numeral cutoff).Precedes (numeral value)

/-- A reading that a text column makes up for the query.  It is before the cutoff,
and its digits do not come before those of the cutoff. -/
def PhantomReading (numeral : ℚ → Numeral) (cutoff value : ℚ) : Prop :=
  value < cutoff ∧ (numeral cutoff).Precedes (numeral value)

/-- The digits of the readings and of the cutoff do no harm. -/
structure DigitsHarmless (numeral : ℚ → Numeral) (readings : List ℚ) (cutoff : ℚ) : Prop where
  /-- Of the readings at or after the cutoff one is not hidden, or a phantom stands in. -/
  late : (∃ value ∈ readings, cutoff ≤ value) →
    (∃ value ∈ readings, cutoff ≤ value ∧ ¬ HiddenReading numeral cutoff value) ∨
      ∃ value ∈ readings, PhantomReading numeral cutoff value
  /-- Where no reading is at or after the cutoff there is no phantom. -/
  early : (∀ value ∈ readings, value < cutoff) →
    ∀ value ∈ readings, ¬ PhantomReading numeral cutoff value

/-- Numbers are always in order. -/
def MonotonicHarmless : MonotonicColumn → List ℚ → ℚ → Prop
  | .real, _, _ => True
  | .text numeral, readings, cutoff => DigitsHarmless numeral readings cutoff

theorem mem_attemptsOf {db : Db} {bootId : String} {value : ℚ} :
    value ∈ attemptsOf db bootId ↔ ∃ i row, db.claims.find? i = some row ∧
      row.bootId = some bootId ∧ row.activationMonotonic = some value := by
  simp only [attemptsOf, List.mem_filterMap, Prod.exists, Table.find?_eq_some_iff]
  constructor
  · rintro ⟨i, row, hmem, hvalue⟩
    split at hvalue
    · next hboot => exact ⟨i, row, hmem, hboot, hvalue⟩
    · cases hvalue
  · rintro ⟨i, row, hmem, hboot, hvalue⟩
    exact ⟨i, row, hmem, by rw [if_pos hboot, hvalue]⟩

/-- Some row of the boot has a reading at or after the cutoff. -/
def AttemptedSince (db : Db) (bootId : String) (cutoff : ℚ) : Prop :=
  ∃ i row value, db.claims.find? i = some row ∧ row.bootId = some bootId ∧
    row.activationMonotonic = some value ∧ cutoff ≤ value

theorem attemptedSince_iff {db : Db} {bootId : String} {cutoff : ℚ} :
    AttemptedSince db bootId cutoff ↔ ∃ value ∈ attemptsOf db bootId, cutoff ≤ value := by
  simp only [AttemptedSince, mem_attemptsOf]
  constructor
  · rintro ⟨i, row, value, hrow, hboot, hvalue, hle⟩
    exact ⟨value, ⟨i, row, hrow, hboot, hvalue⟩, hle⟩
  · rintro ⟨value, ⟨i, row, hrow, hboot, hvalue⟩, hle⟩
    exact ⟨i, row, value, hrow, hboot, hvalue, hle⟩

/-- The query, by the readings. -/
theorem monotonicAttempt_iff {db : Db} {bootId : String} {cutoff : ℚ} :
    monotonicAttempt db bootId cutoff = true ↔
      ∃ value ∈ attemptsOf db bootId, db.monotonic.le cutoff value = true := by
  simp only [monotonicAttempt, List.any_eq_true, Bool.and_eq_true, beq_iff_eq, Option.any_eq_true,
    attemptsOf, List.mem_filterMap]
  constructor
  · rintro ⟨p, hmem, hboot, value, hvalue, hle⟩
    exact ⟨value, ⟨p, hmem, by rw [if_pos hboot, hvalue]⟩, hle⟩
  · rintro ⟨value, ⟨p, hmem, hvalue⟩, hle⟩
    split at hvalue
    · next hboot => exact ⟨p, hmem, hboot, value, hvalue, hle⟩
    · cases hvalue

/-- A column of numbers is queried by the numbers. -/
theorem monotonicAttempt_real {db : Db} (h : db.monotonic = .real) (bootId : String)
    (cutoff : ℚ) :
    monotonicAttempt db bootId cutoff = true ↔ AttemptedSince db bootId cutoff := by
  simp [monotonicAttempt_iff, attemptedSince_iff, h, MonotonicColumn.le]

/-- A column of text is queried by the digits. -/
theorem monotonicAttempt_text {db : Db} {numeral : ℚ → Numeral} (h : db.monotonic = .text numeral)
    (bootId : String) (cutoff : ℚ) :
    monotonicAttempt db bootId cutoff = true ↔
      ∃ value ∈ attemptsOf db bootId, (numeral cutoff).Precedes (numeral value) := by
  simp [monotonicAttempt_iff, h, MonotonicColumn.le, Numeral.text_le_iff]

/-- The digits are harmless exactly if they find a reading where the numbers do. -/
theorem digitsHarmless_iff {numeral : ℚ → Numeral} {readings : List ℚ} {cutoff : ℚ} :
    DigitsHarmless numeral readings cutoff ↔
      ((∃ value ∈ readings, (numeral cutoff).Precedes (numeral value)) ↔
        ∃ value ∈ readings, cutoff ≤ value) := by
  constructor
  · intro h
    constructor
    · rintro ⟨value, hmem, hdigits⟩
      by_contra hnone
      have hbefore : ∀ value ∈ readings, value < cutoff := fun value hmem =>
        not_le.1 fun hle => hnone ⟨value, hmem, hle⟩
      exact h.early hbefore value hmem ⟨hbefore value hmem, hdigits⟩
    · intro hlate
      rcases h.late hlate with ⟨value, hmem, hle, hshown⟩ | ⟨value, hmem, hphantom⟩
      · exact ⟨value, hmem, not_not.1 fun hdigits => hshown ⟨hle, hdigits⟩⟩
      · exact ⟨value, hmem, hphantom.2⟩
  · intro h
    refine ⟨fun hlate => ?_, fun hbefore value hmem hphantom => ?_⟩
    · obtain ⟨value, hmem, hdigits⟩ := h.2 hlate
      rcases le_or_gt cutoff value with hle | hlt
      · exact .inl ⟨value, hmem, hle, fun hhidden => hhidden.2 hdigits⟩
      · exact .inr ⟨value, hmem, hlt, hdigits⟩
    · obtain ⟨other, hother, hle⟩ := h.1 ⟨value, hmem, hphantom.2⟩
      exact not_le.2 (hbefore other hother) hle

/-- The query answers as the numbers do exactly if the column is harmless. -/
theorem monotonicAttempt_numeric_iff (db : Db) (bootId : String) (cutoff : ℚ) :
    (monotonicAttempt db bootId cutoff = true ↔ AttemptedSince db bootId cutoff) ↔
      MonotonicHarmless db.monotonic (attemptsOf db bootId) cutoff := by
  cases hcol : db.monotonic with
  | real => exact iff_of_true (monotonicAttempt_real hcol bootId cutoff) trivial
  | text numeral =>
      rw [monotonicAttempt_text hcol, attemptedSince_iff]
      exact digitsHarmless_iff.symm

/-- What the monotonic part of the cooldown compares: the readings of the boot and
the cutoff. -/
def comparison (db : Db) (a : ClaimArgs) : Option (List ℚ × ℚ) :=
  match a.monotonicCutoff, a.bootId with
  | some cutoff, some bootId => some (attemptsOf db bootId, cutoff)
  | _, _ => none

end LocalStore

/-! ## Statements that do not read the column -/

namespace Txn

variable {α β : Type}

/-- The block does the same to both databases. -/
def Blind (m : Txn α) : Prop :=
  ∀ db col, m (db.withColumn col) = ((m db).1, (m db).2.withColumn col)

theorem Blind.pure (a : α) : Blind (pure a : Txn α) := fun _ _ => rfl

theorem Blind.raise (x : Exc) : Blind (raise x : Txn α) := fun _ _ => rfl

theorem Blind.select {f : Db → α} (hf : ∀ db col, f (db.withColumn col) = f db) :
    Blind (select f) := fun db col => by
  simp only [select_run, hf]

theorem Blind.modify {f : Db → Db} (hf : ∀ db col, f (db.withColumn col) = (f db).withColumn col) :
    Blind (modify f) := fun db col => by
  simp only [modify_run, hf]

theorem Blind.bind {m : Txn α} {f : α → Txn β} (hm : Blind m) (hf : ∀ a, Blind (f a)) :
    Blind (m >>= f) := fun db col => by
  rw [bind_run, bind_run, hm db col]
  rcases m db with ⟨_ | a, db₁⟩
  · rfl
  · exact hf a db₁ col

theorem Blind.map {m : Txn α} (hm : Blind m) (f : α → β) : Blind (f <$> m) :=
  Blind.bind hm fun a => Blind.pure (f a)

theorem Blind.exceptIntegrityError {m handler : Txn α} (hm : Blind m) (hh : Blind handler) :
    Blind (exceptIntegrityError m handler) := fun db col => by
  unfold Txn.exceptIntegrityError
  rw [hm db col]
  rcases m db with ⟨x | a, db₁⟩
  · cases x with
    | integrityError => exact hh db₁ col
    | _ => rfl
  · rfl

theorem Blind.transaction {m : Txn α} (hm : Blind m) : Blind (transaction m) := fun db col => by
  unfold Txn.transaction
  rw [hm db col]
  rcases m db with ⟨x | a, db₁⟩ <;> rfl

end Txn

namespace LocalStore

open Txn

theorem insertEvent_blind (event : GateEvent) : Blind (insertEvent event) := fun db col => by
  simp only [insertEvent, Db.withColumn]
  cases db.events.insert (eventRow event) <;> rfl

theorem ensureOutboxRow_blind (now : DateTime) (eventId : Nat) (payload : Option Fields) :
    Blind (ensureOutboxRow now eventId payload) := fun db col => by
  cases payload <;> rfl

theorem ensureCommandAck_blind (ack : Option CommandAck) (status : String)
    (detail : Option String) : Blind (ensureCommandAck ack status detail) :=
  .modify fun _ _ => rfl

theorem insertClaim_blind (row : ClaimRow) : Blind (insertClaim row) := fun db col => by
  simp only [insertClaim, Db.withColumn]
  cases db.claims.insert row <;> rfl

theorem recordEventWithOutbox_blind (now : DateTime) (event : GateEvent)
    (payload : Option Fields) : Blind (recordEventWithOutbox now event payload) := by
  refine .transaction (.bind (.exceptIntegrityError (insertEvent_blind event) ?_) fun id => ?_)
  · cases event.idempotencyKey with
    | none => exact .raise _
    | some key =>
        dsimp only
        split
        · exact .raise _
        · refine .bind (.select fun _ _ => rfl) fun found => ?_
          cases found with
          | none => exact .raise _
          | some p => exact .pure _
  · exact .bind (ensureOutboxRow_blind now id payload) fun _ => .pure _

theorem recordTerminalOutcome_blind (now : DateTime) (a : TerminalArgs) :
    Blind (recordTerminalOutcome now a) := by
  have hplain := (recordEventWithOutbox_blind now a.event a.outboxPayload).map some
  unfold recordTerminalOutcome
  cases a.event.idempotencyKey with
  | none => exact hplain
  | some key =>
      dsimp only
      split
      · exact hplain
      · refine .transaction (.bind (.select fun _ _ => rfl) fun found => ?_)
        cases found with
        | none =>
            refine .bind (insertEvent_blind a.event) fun id => ?_
            refine .bind (ensureOutboxRow_blind now id a.outboxPayload) fun _ => ?_
            refine .bind (ensureCommandAck_blind _ _ _) fun _ => ?_
            exact .bind (insertClaim_blind _) fun _ => .pure _
        | some p =>
            have hack : ∀ answer : Option Nat, Blind (do
                ensureCommandAck a.commandAck a.status a.detail
                return answer) := fun _ => .bind (ensureCommandAck_blind _ _ _) fun _ => .pure _
            dsimp only
            cases p.2.eventId with
            | none => exact hack none
            | some id => exact .bind (ensureOutboxRow_blind now id a.outboxPayload) fun _ => hack _

theorem markActuationAttempt_blind (a : MarkArgs) : Blind (markActuationAttempt a) := by
  unfold markActuationAttempt
  split
  · refine .transaction (.bind (fun _ _ => rfl) fun n => ?_)
    split
    · exact .raise _
    · exact .pure _
  · exact .raise _

theorem finalizeActuation_blind (now : DateTime) (a : FinalizeArgs) :
    Blind (finalizeActuation now a) := by
  unfold finalizeActuation
  split
  · exact .raise _
  · refine .transaction (.bind (.select fun _ _ => rfl) fun found => ?_)
    cases found with
    | none => exact .raise _
    | some row =>
        dsimp only
        split
        · exact .raise _
        · refine .bind (insertEvent_blind a.event) fun id => ?_
          refine .bind (ensureOutboxRow_blind now id a.outboxPayload) fun _ => ?_
          refine .bind (ensureCommandAck_blind _ _ _) fun _ => ?_
          exact .bind (fun _ _ => rfl) fun _ => .pure _

theorem recoverClaim_blind (now : DateTime) (id : Nat) (row : ClaimRow) :
    Blind (recoverClaim now id row) := by
  unfold recoverClaim
  cases row.pendingEvent with
  | none => exact .pure _
  | some text =>
      dsimp only
      cases pendingData text row with
      | error x =>
          dsimp only
          split
          · exact .pure _
          · exact .raise _
      | ok p =>
          obtain ⟨event, payload, ack⟩ := p
          refine .bind (.exceptIntegrityError (insertEvent_blind _) ?_) fun eventId => ?_
          · cases event.idempotencyKey with
            | none => exact .raise _
            | some key =>
                refine .bind (.select fun _ _ => rfl) fun found => ?_
                cases found with
                | none => exact .raise _
                | some p => exact .pure _
          · refine .bind (ensureOutboxRow_blind now eventId payload) fun _ => ?_
            refine .bind (ensureCommandAck_blind _ _ _) fun _ => ?_
            exact .bind (fun _ _ => rfl) fun _ => .pure _

theorem recoverInterruptedActuations_blind (now : DateTime) :
    Blind (recoverInterruptedActuations now) := by
  have hloop : ∀ rows, Blind (recoverClaims now rows) := by
    intro rows
    induction rows with
    | nil => exact .pure 0
    | cons p rest ih =>
        exact .bind (recoverClaim_blind now p.1 p.2) fun n => .bind ih fun m => .pure _
  refine .transaction (.bind (.select fun _ _ => rfl) fun rows => ?_)
  exact .bind (hloop rows) fun n => .bind (.modify fun _ _ => rfl) fun _ => .pure _

theorem attachEventTelemetry_blind (id : Nat) (telemetry : Fields) :
    Blind (attachEventTelemetry id telemetry) := by
  refine .transaction (.bind (.select fun _ _ => rfl) fun found => ?_)
  cases found with
  | none => exact .raise _
  | some e =>
      refine .bind (.select fun _ _ => rfl) fun row => ?_
      cases row with
      | none => exact .pure _
      | some p =>
          dsimp only
          split
          · exact .raise _
          · split
            · exact .pure _
            · exact .modify fun _ _ => rfl
          · split
            · exact .pure _
            · exact .raise _

/-- `claim_actuation` reads the column only for the cooldown. -/
theorem claimActuation_column {a : ClaimArgs} {db : Db} {col : MonotonicColumn}
    (h : a.refused (db.withColumn col) = a.refused db) :
    claimActuation a (db.withColumn col) =
      ((claimActuation a db).1, (claimActuation a db).2.withColumn col) := by
  have hclaims : (db.withColumn col).claims = db.claims := rfl
  cases hkey : db.claims.byKey a.idempotencyKey with
  | some p => simp [claimActuation, transaction, bind_run, hclaims, hkey]
  | none =>
      cases hcool : a.refused db with
      | true => simp [claimActuation, transaction, bind_run, hclaims, hkey, h, hcool]
      | false =>
          cases hins : db.claims.insert a.row with
          | none => simp [claimActuation, transaction, bind_run, hclaims, hkey, h, hcool, hins]
          | some q =>
              simp [claimActuation, transaction, bind_run, hclaims, hkey, h, hcool, hins]
              rfl

/-- Where the column is harmless, the cooldown refuses the same claims as on a
database whose column holds numbers. -/
theorem refused_withColumn {a : ClaimArgs} {db : Db} {col : MonotonicColumn}
    (hreal : db.monotonic = .real)
    (h : ∀ r ∈ comparison db a, MonotonicHarmless col r.1 r.2) :
    a.refused (db.withColumn col) = a.refused db := by
  have hquery : ∀ cutoff bootId, a.monotonicCutoff = some cutoff → a.bootId = some bootId →
      monotonicAttempt (db.withColumn col) bootId cutoff = monotonicAttempt db bootId cutoff := by
    intro cutoff bootId hc hb
    rw [Bool.eq_iff_iff]
    have hharmless : MonotonicHarmless col (attemptsOf db bootId) cutoff :=
      h (attemptsOf db bootId, cutoff) (by simp [comparison, hc, hb])
    have hleft := (monotonicAttempt_numeric_iff (db.withColumn col) bootId cutoff).2 hharmless
    exact hleft.trans (monotonicAttempt_real hreal bootId cutoff).symm
  simp only [ClaimArgs.refused, wasOpenedSince]
  cases hc : a.monotonicCutoff with
  | none => rfl
  | some cutoff =>
      cases hb : a.bootId with
      | none => rfl
      | some bootId =>
          simp only [hquery cutoff bootId hc hb]
          rfl

end LocalStore

/-- What a call of the store compares with the column. -/
def StoreOp.comparison (db : Db) : StoreOp → Option (List ℚ × ℚ)
  | .claimActuation a => LocalStore.comparison db a
  | _ => none

/-- Where the column is harmless, a call does the same to both databases. -/
theorem StoreOp.run_withColumn (now : DateTime) (fault : Option Exc) {op : StoreOp} {db : Db}
    {col : MonotonicColumn} (hreal : db.monotonic = .real)
    (h : ∀ r ∈ op.comparison db, LocalStore.MonotonicHarmless col r.1 r.2) :
    op.run now fault (db.withColumn col) =
      ((op.run now fault db).1, (op.run now fault db).2.withColumn col) := by
  cases fault with
  | some x => rfl
  | none =>
      cases op with
      | terminalOutcome key => rfl
      | actuationClaimStatus key => rfl
      | eventId key => rfl
      | claimActuation a =>
          exact LocalStore.claimActuation_column (LocalStore.refused_withColumn hreal h)
      | markActuationAttempt a => exact LocalStore.markActuationAttempt_blind a db col
      | finalizeActuation a => exact LocalStore.finalizeActuation_blind now a db col
      | recordTerminalOutcome a => exact LocalStore.recordTerminalOutcome_blind now a db col
      | recordEventWithOutbox event payload =>
          exact LocalStore.recordEventWithOutbox_blind now event payload db col
      | recoverInterruptedActuations => exact LocalStore.recoverInterruptedActuations_blind now db col
      | ensureOutbox id payload =>
          exact (LocalStore.ensureOutboxRow_blind now id payload).transaction db col
      | queueCommandAck ack status detail =>
          exact (LocalStore.ensureCommandAck_blind (some ack) status detail).transaction db col
      | releaseOutboxWithoutTelemetry id => rfl
      | attachEventTelemetry id telemetry =>
          exact LocalStore.attachEventTelemetry_blind id telemetry db col

end GateController

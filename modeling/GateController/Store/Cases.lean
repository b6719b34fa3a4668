import GateController.Store.Operations

/-!
# What the operations do

One lemma per operation that says what a call returned and what it left in the
tables, guards included.  Every operation that raises leaves the tables alone.
-/

namespace GateController

open Data

namespace LocalStore

variable {db db' : Db} {now : DateTime}

/-! ## Shared statements -/

theorem insertEvent_eq_ok {event : GateEvent} {id : Nat} :
    insertEvent event db = (.ok id, db') ↔
      ∃ events, db.events.insert (eventRow event) = some (id, events) ∧
        db' = { db with events } := by
  unfold insertEvent
  cases h : db.events.insert (eventRow event) with
  | none => simp
  | some p =>
      obtain ⟨j, events⟩ := p
      simp only [Prod.mk.injEq, Except.ok.injEq, Option.some.injEq]
      constructor
      · rintro ⟨rfl, rfl⟩
        exact ⟨events, ⟨rfl, rfl⟩, rfl⟩
      · rintro ⟨_, ⟨rfl, rfl⟩, rfl⟩
        exact ⟨rfl, rfl⟩

/-- An insert that falls back on the row that is there already. -/
theorem exceptIntegrityError_insertEvent {event : GateEvent} {handler : Txn Nat} {id : Nat} :
    Txn.exceptIntegrityError (insertEvent event) handler db = (.ok id, db') ↔
      (∃ events, db.events.insert (eventRow event) = some (id, events) ∧
        db' = { db with events }) ∨
      db.events.insert (eventRow event) = none ∧ handler db = (.ok id, db') := by
  rw [← insertEvent_eq_ok]
  unfold Txn.exceptIntegrityError insertEvent
  cases h : db.events.insert (eventRow event) with
  | none => simp
  | some p => simp

@[simp] theorem ensureOutboxRow_run {eventId : Nat} {payload : Option Fields} :
    ensureOutboxRow now eventId payload db =
      (.ok ((payload.bind fun p => db.outbox.insert (outboxRow now db eventId p)).map Prod.fst),
        { db with outbox := outboxWith now db eventId payload }) := rfl

@[simp] theorem ensureCommandAck_run {ack : Option CommandAck} {status : String}
    {detail : Option String} :
    ensureCommandAck ack status detail db =
      (.ok (), { db with acks := acksWith db.acks status detail ack }) := rfl

@[simp] theorem updateClaims_run {sel : Nat → ClaimRow → Bool} {f : ClaimRow → ClaimRow}
    {hf : ∀ row, some (f row).idempotencyKey = some row.idempotencyKey} :
    updateClaims sel f hf db =
      (.ok (db.claims.count sel), { db with claims := db.claims.update sel f hf }) := rfl

/-- The claims that a selection by id changes. -/
theorem find?_update_id {t : Table ClaimRow String (fun row => some row.idempotencyKey)}
    {sel : Nat → ClaimRow → Bool} {f : ClaimRow → ClaimRow}
    {hf : ∀ row, some (f row).idempotencyKey = some row.idempotencyKey} {id : Nat} {row : ClaimRow}
    (hrow : t.find? id = some row) (hsel : sel id row) (hne : ∀ i r, i ≠ id → sel i r = false)
    (i : Nat) :
    (t.update sel f hf).find? i = if i = id then some (f row) else t.find? i := by
  rw [Table.find?_update]
  by_cases hi : i = id
  · subst hi
    simp [hrow, hsel]
  · rw [if_neg hi]
    cases h : t.find? i with
    | none => rfl
    | some r => simp [hne i r hi]

/-! ## Claiming, marking, finalizing -/

/-- A claim finds the key in use, is refused, or inserts its row. -/
theorem claimActuation_cases (a : ClaimArgs) (db : Db) :
    (∃ id row, db.claims.byKey a.idempotencyKey = some (id, row) ∧
      claimActuation a db = (.ok ⟨a.idempotencyKey, existingStatus row.state,
        some (parseTimestamp row.claimedAt), some id⟩, db)) ∨
    (db.claims.byKey a.idempotencyKey = none ∧ a.refused db = true ∧
      claimActuation a db =
        (.ok { idempotencyKey := a.idempotencyKey, status := .cooldown }, db)) ∨
    (∃ id claims, a.refused db = false ∧ db.claims.insert a.row = some (id, claims) ∧
      claimActuation a db =
        (.ok ⟨a.idempotencyKey, .claimed, some (asUtc a.claimedAt), some id⟩,
          { db with claims })) := by
  cases hkey : db.claims.byKey a.idempotencyKey with
  | some p =>
      obtain ⟨id, row⟩ := p
      refine .inl ⟨id, row, rfl, ?_⟩
      simp [claimActuation, Txn.transaction, Txn.bind_run, hkey]
  | none =>
      cases hcool : a.refused db with
      | true =>
          refine .inr (.inl ⟨rfl, rfl, ?_⟩)
          simp [claimActuation, Txn.transaction, Txn.bind_run, hkey, hcool]
      | false =>
          cases hins : db.claims.insert a.row with
          | none =>
              obtain ⟨k, hk, hb⟩ := Table.insert_eq_none_iff.1 hins
              cases hk
              exact absurd hkey hb
          | some p =>
              obtain ⟨id, claims⟩ := p
              refine .inr (.inr ⟨id, claims, rfl, rfl, ?_⟩)
              simp [claimActuation, Txn.transaction, Txn.bind_run, hkey, hcool, hins]

/-- Marking changes the one row of the claim, which nobody has marked before. -/
theorem markActuationAttempt_ok {a : MarkArgs} {u : Unit}
    (h : markActuationAttempt a db = (.ok u, db')) :
    ∃ id row claims, a.claim.status = .claimed ∧ a.claim.claimId = some id ∧
      db.claims.find? id = some row ∧ row.state = .claimed ∧ row.activationAttemptAt = none ∧
      db' = { db with claims } ∧
      ∀ i, claims.find? i = if i = id then some (a.mark row) else db.claims.find? i := by
  unfold markActuationAttempt at h
  cases hstatus : a.claim.status with
  | claimed =>
      cases hid : a.claim.claimId with
      | none => simp [hstatus, hid] at h
      | some id =>
          simp only [hstatus, hid] at h
          rw [Txn.transaction_eq_ok, Txn.bind_eq_ok] at h
          obtain ⟨n, db₁, hupd, h⟩ := h
          cases hupd
          by_cases hcount : db.claims.count (fun i row => i == id && unattempted row) = 1
          · obtain ⟨row, hrow, hun⟩ := Table.count_eq_one_iff.1 hcount
            simp only [hcount, ne_eq, not_true_eq_false, if_false, Txn.pure_run, Prod.mk.injEq]
              at h
            have hun' := hun
            simp only [unattempted, Bool.and_eq_true, beq_iff_eq] at hun'
            refine ⟨id, row, _, rfl, rfl, hrow, hun'.1, hun'.2, h.2.symm, ?_⟩
            exact find?_update_id hrow (by simp [hun]) (fun i r hi => by simp [hi])
          · simp [hcount] at h
  | cooldown => simp [hstatus] at h
  | indeterminateClaim => simp [hstatus] at h
  | duplicateEvent => simp [hstatus] at h

/-- Finalizing inserts the event and closes the one row of the claim. -/
theorem finalizeActuation_ok {a : FinalizeArgs} {eventId : Nat}
    (h : finalizeActuation now a db = (.ok eventId, db')) :
    ∃ id row events claims, a.claim.status = .claimed ∧
      a.event.idempotencyKey = some a.claim.idempotencyKey ∧ a.claim.claimId = some id ∧
      db.claims.find? id = some row ∧ row.state = .claimed ∧
      db.events.insert (eventRow a.event) = some (eventId, events) ∧
      db' = { db with
        events, claims
        outbox := outboxWith now { db with events } eventId a.outboxPayload
        acks := acksWith db.acks a.status a.terminalDetail a.commandAck } ∧
      ∀ i, claims.find? i =
        if i = id then some (a.finalize eventId row) else db.claims.find? i := by
  unfold finalizeActuation at h
  split at h
  · simp at h
  · next hguard =>
    simp only [not_or, not_not] at hguard
    rw [Txn.transaction_eq_ok, Txn.bind_eq_ok] at h
    obtain ⟨row?, db₁, hsel, h⟩ := h
    simp only [Txn.select_run, Prod.mk.injEq, Except.ok.injEq] at hsel
    obtain ⟨rfl, rfl⟩ := hsel
    cases hfound : a.claim.claimId.bind db.claims.find? with
    | none => simp [hfound] at h
    | some row =>
        obtain ⟨id, hid, hrow⟩ := Option.bind_eq_some_iff.1 hfound
        simp only [hfound] at h
        by_cases hstate : row.state = .claimed
        · simp only [hstate, ne_eq, not_true_eq_false, if_false, Txn.bind_eq_ok] at h
          obtain ⟨eid, db₂, hins, h⟩ := h
          obtain ⟨events, hins', rfl⟩ := insertEvent_eq_ok.1 hins
          simp only [ensureOutboxRow_run, ensureCommandAck_run, Txn.pure_run, Prod.mk.injEq, Except.ok.injEq] at h
          obtain ⟨_, _, ⟨-, rfl⟩, _, _, ⟨-, rfl⟩, _, _, ⟨-, rfl⟩, rfl, rfl⟩ := h
          refine ⟨id, row, events, _, hguard.1, hguard.2, hid, hrow, hstate, hins', rfl, ?_⟩
          exact find?_update_id hrow (by simp [hid]) (fun i r hi => by simp [hid, hi])
        · simp [hstate] at h

/-! ## Recording -/

/-- An event is recorded under its key, or found there. -/
theorem recordEventWithOutbox_ok {event : GateEvent} {payload : Option Fields} {eventId : Nat}
    (h : recordEventWithOutbox now event payload db = (.ok eventId, db')) :
    (∃ events, db.events.insert (eventRow event) = some (eventId, events) ∧
      db' = { db with
        events
        outbox := outboxWith now { db with events } eventId payload }) ∨
    (∃ key row, event.idempotencyKey = some key ∧ db.events.byKey key = some (eventId, row) ∧
      db' = { db with outbox := outboxWith now db eventId payload }) := by
  unfold recordEventWithOutbox at h
  rw [Txn.transaction_eq_ok, Txn.bind_eq_ok] at h
  obtain ⟨eid, db₁, hins, h⟩ := h
  simp only [Txn.bind_run, ensureOutboxRow_run, Txn.pure_run, Prod.mk.injEq, Except.ok.injEq] at h
  obtain ⟨rfl, rfl⟩ := h
  rcases exceptIntegrityError_insertEvent.1 hins with ⟨events, hnew, rfl⟩ | ⟨-, hfound⟩
  · exact .inl ⟨events, hnew, rfl⟩
  · right
    cases hkey : event.idempotencyKey with
    | none => simp [hkey] at hfound
    | some key =>
        simp only [hkey] at hfound
        split at hfound
        · simp at hfound
        · cases hrow : db.events.byKey key with
          | none => simp [Txn.bind_run, hrow] at hfound
          | some p =>
              simp only [Txn.bind_run, Txn.select_run, hrow, Txn.pure_run, Prod.mk.injEq,
                Except.ok.injEq] at hfound
              obtain ⟨rfl, rfl⟩ := hfound
              exact ⟨key, p.2, rfl, hrow, rfl⟩

/-- A terminal outcome finds the claim of its key or makes a finalized one. -/
theorem recordTerminalOutcomeOf_ok {a : TerminalArgs} {key : String} {answer : Option Nat}
    (h : recordTerminalOutcomeOf now a key db = (.ok answer, db')) :
    (∃ id row outbox, db.claims.byKey key = some (id, row) ∧ answer = row.eventId ∧
      outbox = (match row.eventId with
        | some eventId => outboxWith now db eventId a.outboxPayload
        | none => db.outbox) ∧
      db' = { db with outbox, acks := acksWith db.acks a.status a.detail a.commandAck }) ∨
    (∃ eventId events id claims, answer = some eventId ∧
      db.events.insert (eventRow a.event) = some (eventId, events) ∧
      db.claims.insert (a.row key eventId) = some (id, claims) ∧
      db' = { db with
        events, claims
        outbox := outboxWith now { db with events } eventId a.outboxPayload
        acks := acksWith db.acks a.status a.detail a.commandAck }) := by
  unfold recordTerminalOutcomeOf at h
  rw [Txn.transaction_eq_ok, Txn.bind_eq_ok] at h
  obtain ⟨existing, db₁, hsel, h⟩ := h
  simp only [Txn.select_run, Prod.mk.injEq, Except.ok.injEq] at hsel
  obtain ⟨rfl, rfl⟩ := hsel
  cases hrow : db.claims.byKey key with
  | some p =>
      obtain ⟨id, row⟩ := p
      refine .inl ⟨id, row, _, rfl, ?_, rfl, ?_⟩ <;>
        cases heid : row.eventId <;> simp [Txn.bind_run, hrow, heid] at h <;> simp [h]
  | none =>
      right
      simp only [hrow, Txn.bind_eq_ok] at h
      obtain ⟨eid, db₂, hins, h⟩ := h
      obtain ⟨events, hins', rfl⟩ := insertEvent_eq_ok.1 hins
      simp only [ensureOutboxRow_run, ensureCommandAck_run, insertClaim, Txn.pure_run,
        Prod.mk.injEq, Except.ok.injEq] at h
      obtain ⟨_, _, ⟨-, rfl⟩, _, _, ⟨-, rfl⟩, _, _, hclaim, rfl, rfl⟩ := h
      cases hnew : db.claims.insert (a.row key eid) with
      | none => simp [hnew] at hclaim
      | some p =>
          obtain ⟨id, claims⟩ := p
          simp only [hnew, Prod.mk.injEq] at hclaim
          exact ⟨eid, events, id, claims, rfl, hins', hnew, hclaim.2.symm⟩

/-- Without a key, a terminal outcome is an event like any other. -/
theorem recordTerminalOutcome_ok {a : TerminalArgs} {answer : Option Nat}
    (h : recordTerminalOutcome now a db = (.ok answer, db')) :
    (∃ eventId, answer = some eventId ∧
      recordEventWithOutbox now a.event a.outboxPayload db = (.ok eventId, db')) ∨
    (∃ key, a.event.idempotencyKey = some key ∧
      recordTerminalOutcomeOf now a key db = (.ok answer, db')) := by
  have hevent : (some <$> recordEventWithOutbox now a.event a.outboxPayload) db =
      (.ok answer, db') → ∃ eventId, answer = some eventId ∧
        recordEventWithOutbox now a.event a.outboxPayload db = (.ok eventId, db') := by
    intro h
    obtain ⟨eventId, hrun, rfl⟩ := Txn.map_eq_ok.1 h
    exact ⟨eventId, rfl, hrun⟩
  unfold recordTerminalOutcome at h
  cases hkey : a.event.idempotencyKey with
  | none =>
      simp only [hkey] at h
      exact .inl (hevent h)
  | some key =>
      simp only [hkey] at h
      by_cases hempty : key = ""
      · rw [if_pos hempty] at h
        exact .inl (hevent h)
      · rw [if_neg hempty] at h
        exact .inr ⟨key, rfl, h⟩

/-! ## Telemetry -/

/-- Attaching a trace changes outbox rows in place, without their event ids. -/
theorem attachEventTelemetry_ok {eventId : Nat} {telemetry : Fields} {u : Unit}
    (h : attachEventTelemetry eventId telemetry db = (.ok u, db')) :
    ∃ sel f hf, db' = { db with outbox := db.outbox.update sel f hf } ∧
      ∀ row : OutboxRow, (f row).eventId = row.eventId := by
  have hsame : ∃ sel f hf, db = { db with outbox := db.outbox.update sel f hf } ∧
      ∀ row : OutboxRow, (f row).eventId = row.eventId := by
    refine ⟨fun _ _ => false, id, fun _ => rfl, ?_, fun _ => rfl⟩
    simp [Table.update]
  unfold attachEventTelemetry at h
  rw [Txn.transaction_eq_ok, Txn.bind_eq_ok] at h
  obtain ⟨event?, db₁, hsel, h⟩ := h
  cases hsel
  cases hev : db.events.find? eventId with
  | none => simp [hev] at h
  | some event =>
      simp only [hev, promoteOutbox, Txn.bind_eq_ok, Txn.select_run, Prod.mk.injEq,
        Except.ok.injEq] at h
      obtain ⟨row?, _, ⟨rfl, rfl⟩, h⟩ := h
      cases hrow : db.outbox.byKey eventId with
      | none =>
          simp only [hrow, Txn.pure_run, Prod.mk.injEq] at h
          rw [← h.2]
          exact hsame
      | some p =>
          obtain ⟨id, row⟩ := p
          cases hpay : row.payload with
          | other text => simp [hrow, hpay] at h
          | json value =>
              cases hdone : row.completedAt with
              | some at_ =>
                  cases value <;> simp [hrow, hpay, hdone] at h <;> exact h ▸ hsame
              | none =>
                  cases value <;> simp [hrow, hpay, hdone] at h
                  exact ⟨_, _, _, h.symm, fun _ => rfl⟩

end LocalStore

end GateController

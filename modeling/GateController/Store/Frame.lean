import GateController.Store.Invariant

/-!
# What calls of the store leave alone

Events are never changed or deleted.  Claims are never deleted, and only three
calls change one: marking and finalizing the one they are for, and recovery those
that were left behind.
-/

namespace GateController

open Data LocalStore

variable {db db' : Db} {now : DateTime} {fault : Option Exc} {op : StoreOp}

/-- The calls that change a claim in place. -/
def StoreOp.rewrites : StoreOp → Bool
  | .markActuationAttempt _ => true
  | .finalizeActuation _ => true
  | .recoverInterruptedActuations => true
  | _ => false

theorem recordEventWithOutbox_extends {event : GateEvent} {payload : Option Fields} {eventId : Nat}
    (h : recordEventWithOutbox now event payload db = (.ok eventId, db')) :
    db.events.Extends db'.events ∧ db'.claims = db.claims := by
  rcases recordEventWithOutbox_ok h with ⟨events, hins, rfl⟩ | ⟨key, row, -, -, rfl⟩
  · exact ⟨.of_insert hins, rfl⟩
  · exact ⟨.refl _, rfl⟩

theorem recordTerminalOutcome_extends {a : TerminalArgs} {answer : Option Nat}
    (h : recordTerminalOutcome now a db = (.ok answer, db')) :
    db.events.Extends db'.events ∧ db.claims.Extends db'.claims := by
  rcases recordTerminalOutcome_ok h with ⟨_, -, hrun⟩ | ⟨key, hkey, hrun⟩
  · obtain ⟨hev, hcl⟩ := recordEventWithOutbox_extends hrun
    exact ⟨hev, by rw [hcl]; exact .refl _⟩
  · rcases recordTerminalOutcomeOf_ok hrun with
      ⟨id, row, outbox, -, -, -, rfl⟩ | ⟨eventId, events, id, claims, -, hins, hnew, rfl⟩
    · exact ⟨.refl _, .refl _⟩
    · exact ⟨.of_insert hins, .of_insert hnew⟩

theorem StoreOp.run_events {r : Except Exc op.Ans} (h : op.run now fault db = (r, db')) :
    db.events.Extends db'.events := by
  cases r with
  | error x =>
      rw [op.run_error h]
      exact .refl _
  | ok answer =>
      cases fault with
      | some x => cases h
      | none =>
          replace h : op.txn now db = (.ok answer, db') := h
          cases op with
          | claimActuation a =>
              rcases claimActuation_cases a db with ⟨id, row, -, heq⟩ | ⟨-, -, heq⟩ |
                ⟨id, claims, -, -, heq⟩ <;>
                cases (show LocalStore.claimActuation a db = _ from h).symm.trans heq <;> exact .refl _
          | markActuationAttempt a =>
              obtain ⟨_, _, _, _, _, _, _, _, rfl, _⟩ := markActuationAttempt_ok h
              exact .refl _
          | finalizeActuation a =>
              obtain ⟨_, _, _, _, _, _, _, _, _, hins, rfl, _⟩ := finalizeActuation_ok h
              exact .of_insert hins
          | recordTerminalOutcome a => exact (recordTerminalOutcome_extends h).1
          | recordEventWithOutbox event payload => exact (recordEventWithOutbox_extends h).1
          | recoverInterruptedActuations =>
              obtain ⟨n, db₁, hrun, hrec⟩ := recover_recovers now db
              cases (show LocalStore.recoverInterruptedActuations now db = _ from h).symm.trans hrun
              exact hrec.events
          | attachEventTelemetry id telemetry =>
              obtain ⟨sel, f, hf, rfl, -⟩ := attachEventTelemetry_ok h
              exact .refl _
          | _ =>
              cases h
              exact .refl _

theorem StoreOp.run_claims {r : Except Exc op.Ans} (h : op.run now fault db = (r, db'))
    (hop : op.rewrites = false) : db.claims.Extends db'.claims := by
  cases r with
  | error x =>
      rw [op.run_error h]
      exact .refl _
  | ok answer =>
      cases fault with
      | some x => cases h
      | none =>
          replace h : op.txn now db = (.ok answer, db') := h
          cases op with
          | claimActuation a =>
              rcases claimActuation_cases a db with ⟨id, row, -, heq⟩ | ⟨-, -, heq⟩ |
                ⟨id, claims, -, hins, heq⟩ <;>
                cases (show LocalStore.claimActuation a db = _ from h).symm.trans heq
              · exact .refl _
              · exact .refl _
              · exact .of_insert hins
          | markActuationAttempt a => cases hop
          | finalizeActuation a => cases hop
          | recoverInterruptedActuations => cases hop
          | recordTerminalOutcome a => exact (recordTerminalOutcome_extends h).2
          | recordEventWithOutbox event payload =>
              rw [(recordEventWithOutbox_extends h).2]
              exact .refl _
          | attachEventTelemetry id telemetry =>
              obtain ⟨sel, f, hf, rfl, -⟩ := attachEventTelemetry_ok h
              exact .refl _
          | _ =>
              cases h
              exact .refl _

/-- A finalized claim is never changed again. -/
theorem StoreOp.run_finalized {r : Except Exc op.Ans} (h : op.run now fault db = (r, db')) {i : Nat}
    {row : ClaimRow} (hrow : db.claims.find? i = some row) (hstate : row.state = .finalized) :
    db'.claims.find? i = some row := by
  cases hop : op.rewrites with
  | false => exact StoreOp.run_claims h hop i row hrow
  | true =>
  have hother : ∀ {id : Nat} {row' new : ClaimRow}, db.claims.find? id = some row' →
      row'.state = .claimed → (if i = id then some new else db.claims.find? i) = some row := by
    intro id row' new hrow' hclaimed
    rw [if_neg, hrow]
    rintro rfl
    cases hrow.symm.trans hrow'
    rw [hstate] at hclaimed
    cases hclaimed
  cases r with
  | error x =>
      rw [op.run_error h]
      exact hrow
  | ok answer =>
      cases fault with
      | some x => cases h
      | none =>
          replace h : op.txn now db = (.ok answer, db') := h
          cases op with
          | markActuationAttempt a =>
              obtain ⟨_, _, _, -, -, hrow', hclaimed, -, rfl, hfind⟩ := markActuationAttempt_ok h
              exact (hfind i).trans (hother hrow' hclaimed)
          | finalizeActuation a =>
              obtain ⟨_, _, _, _, -, -, -, hrow', hclaimed, -, rfl, hfind⟩ := finalizeActuation_ok h
              exact (hfind i).trans (hother hrow' hclaimed)
          | recoverInterruptedActuations =>
              obtain ⟨n, db₁, hrun, hrec⟩ := recover_recovers now db
              cases (show LocalStore.recoverInterruptedActuations now db = _ from h).symm.trans hrun
              rcases hrec.row i row hrow with ⟨-, hfind⟩ | ⟨hclaimed, -⟩
              · exact hfind
              · rw [hstate] at hclaimed
                cases hclaimed
          | _ => cases hop

/-- A claim of this status is the one that inserted the row. -/
theorem claim_inserted {a : ClaimArgs} {claim : ActuationClaim}
    (h : (StoreOp.claimActuation a).run now fault db = (.ok claim, db'))
    (hstatus : claim.status = .claimed) :
    ∃ id claims, a.refused db = false ∧ db.claims.insert a.row = some (id, claims) ∧
      db' = { db with claims } ∧ claim.claimId = some id := by
  cases fault with
  | some x => cases h
  | none =>
      rcases claimActuation_cases a db with ⟨id, row, -, heq⟩ | ⟨-, -, heq⟩ |
        ⟨id, claims, hrefused, hins, heq⟩ <;>
        cases (show LocalStore.claimActuation a db = _ from h).symm.trans heq
      · cases hs : row.state <;> simp [existingStatus, hs] at hstatus
      · cases hstatus
      · exact ⟨id, claims, hrefused, hins, rfl, rfl⟩

/-- The payload that a call was given, for the outbox or for recovery. -/
def StoreOp.carried : StoreOp → Option Fields
  | .claimActuation a => a.outboxPayload
  | .markActuationAttempt a => a.outboxPayload
  | .finalizeActuation a => a.outboxPayload
  | .recordTerminalOutcome a => a.outboxPayload
  | .recordEventWithOutbox _ payload => payload
  | .ensureOutbox _ payload => payload
  | _ => none

/-- What a claim keeps for recovery was there before, or the call was given it and has left the
claim open. -/
theorem StoreOp.run_pendingPayload {r : Except Exc op.Ans} (h : op.run now fault db = (r, db'))
    {i : Nat} {row : ClaimRow} (hrow : db'.claims.find? i = some row) :
    db.claims.find? i = some row ∨ row.pendingOutboxPayload = none ∨
      row.state = .claimed ∧ row.pendingOutboxPayload = encodeOptionalJson op.carried := by
  have hset : ∀ {id : Nat} {new : ClaimRow}
      {claims : Table ClaimRow String (fun row => some row.idempotencyKey)},
      (∀ i, claims.find? i = if i = id then some new else db.claims.find? i) →
      claims.find? i = some row → db.claims.find? i = some row ∨ row = new := by
    intro id new claims hset hfind
    rw [hset] at hfind
    split at hfind
    · exact .inr (Option.some.inj hfind).symm
    · exact .inl hfind
  cases r with
  | error x =>
      rw [op.run_error h] at hrow
      exact .inl hrow
  | ok answer =>
      cases fault with
      | some x => cases h
      | none =>
          replace h : op.txn now db = (.ok answer, db') := h
          cases op with
          | claimActuation a =>
              rcases claimActuation_cases a db with ⟨id, old, -, heq⟩ | ⟨-, -, heq⟩ |
                ⟨id, claims, -, hins, heq⟩ <;>
                cases (show LocalStore.claimActuation a db = _ from h).symm.trans heq
              · exact .inl hrow
              · exact .inl hrow
              · rcases hset (Table.find?_insert hins) hrow with hold | rfl
                · exact .inl hold
                · exact .inr (.inr ⟨rfl, rfl⟩)
          | markActuationAttempt a =>
              obtain ⟨_, _, _, -, -, -, hclaimed, -, rfl, hfind⟩ := markActuationAttempt_ok h
              rcases hset hfind hrow with hold | rfl
              · exact .inl hold
              · exact .inr (.inr ⟨hclaimed, rfl⟩)
          | finalizeActuation a =>
              obtain ⟨_, _, _, _, -, -, -, -, -, -, rfl, hfind⟩ := finalizeActuation_ok h
              rcases hset hfind hrow with hold | rfl
              · exact .inl hold
              · exact .inr (.inl rfl)
          | recordTerminalOutcome a =>
              rcases recordTerminalOutcome_ok h with ⟨_, -, hrun⟩ | ⟨key, hkey, hrun⟩
              · rw [(recordEventWithOutbox_extends hrun).2] at hrow
                exact .inl hrow
              · rcases recordTerminalOutcomeOf_ok hrun with
                  ⟨id, old, outbox, -, -, -, rfl⟩ | ⟨eventId, events, id, claims, -, -, hnew, rfl⟩
                · exact .inl hrow
                · rcases hset (Table.find?_insert hnew) hrow with hold | rfl
                  · exact .inl hold
                  · exact .inr (.inl rfl)
          | recordEventWithOutbox event payload =>
              rw [(recordEventWithOutbox_extends h).2] at hrow
              exact .inl hrow
          | recoverInterruptedActuations =>
              obtain ⟨n, db₁, hrun, hrec⟩ := recover_recovers now db
              cases (show LocalStore.recoverInterruptedActuations now db = _ from h).symm.trans hrun
              cases hold : db.claims.find? i with
              | none =>
                  rw [hrec.absent i hold] at hrow
                  cases hrow
              | some old =>
                  rcases hrec.row i old hold with ⟨-, hfind⟩ | ⟨-, _, _, _, _, _, -, hfind, -⟩
                  · cases hrow.symm.trans hfind
                    exact .inl rfl
                  · cases hrow.symm.trans hfind
                    exact .inr (.inl rfl)
          | attachEventTelemetry id telemetry =>
              obtain ⟨sel, f, hf, rfl, -⟩ := attachEventTelemetry_ok h
              exact .inl hrow
          | _ =>
              cases h
              exact .inl hrow

end GateController

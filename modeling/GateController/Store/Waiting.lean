import GateController.Store.Outbox

/-!
# Rows that wait for a trace

A row waits for its trace if it was queued so, until a trace is attached to it or
it is released.  A call that queues a row answers with the event of the row, or
was given it.
-/

namespace GateController

open Data LocalStore

/-- The row of the event waits for a trace. -/
def Db.Waits (db : Db) (eventId : Nat) : Prop :=
  ∃ id row, db.outbox.find? id = some row ∧ row.eventId = eventId ∧ row.completedAt = none ∧
    row.sendState = .awaitingTelemetry

/-- The payload queues a row that waits. -/
def awaits (payload : Option Fields) : Bool :=
  payload.any fun p => sendStateOf p == .awaitingTelemetry

/-- The event whose row the call may have queued so. -/
def StoreOp.queues : (op : StoreOp) → op.Ans → Option Nat
  | .finalizeActuation a, id => if awaits a.outboxPayload then some id else none
  | .recordTerminalOutcome a, id => if awaits a.outboxPayload then id else none
  | .recordEventWithOutbox _ payload, id => if awaits payload then some id else none
  | .ensureOutbox id payload, _ => if awaits payload then some id else none
  | _, _ => none

variable {db db' : Db} {now : DateTime} {fault : Option Exc} {op : StoreOp} {eventId e : Nat}

theorem waits_of_outbox (h : db'.outbox = db.outbox) (hw : db'.Waits e) : db.Waits e := by
  obtain ⟨id, row, hrow, hrest⟩ := hw
  exact ⟨id, row, h ▸ hrow, hrest⟩

/-- Only a row that is new can begin to wait. -/
theorem waits_outboxWith {d : Db} {payload : Option Fields}
    (h : db'.outbox = outboxWith now d eventId payload) (hw : db'.Waits e) :
    d.Waits e ∨ awaits payload = true ∧ eventId = e := by
  obtain ⟨id, row, hrow, he, hpending, hstate⟩ := hw
  rw [h] at hrow
  obtain ⟨hkept, hnew⟩ := @outboxWith_find? d now eventId payload
  cases hold : d.outbox.find? id with
  | some old =>
      cases (hkept id old hold).symm.trans hrow
      exact .inl ⟨id, row, hold, he, hpending, hstate⟩
  | none =>
      obtain ⟨p, rfl, rfl⟩ := hnew id row hold hrow
      refine .inr ⟨?_, he⟩
      change sendStateOf p = .awaitingTelemetry at hstate
      simp [awaits, hstate]

theorem waits_recordEventWithOutbox {event : GateEvent} {payload : Option Fields}
    (h : recordEventWithOutbox now event payload db = (.ok eventId, db')) (hw : db'.Waits e) :
    db.Waits e ∨ awaits payload = true ∧ eventId = e := by
  rcases recordEventWithOutbox_ok h with ⟨events, -, rfl⟩ | ⟨_, _, -, -, rfl⟩
  · exact waits_outboxWith (d := { db with events }) rfl hw
  · exact waits_outboxWith (d := db) rfl hw

theorem waits_recordTerminalOutcome {a : TerminalArgs} {answer : Option Nat}
    (h : recordTerminalOutcome now a db = (.ok answer, db')) (hw : db'.Waits e) :
    db.Waits e ∨ awaits a.outboxPayload = true ∧ answer = some e := by
  rcases recordTerminalOutcome_ok h with ⟨eventId, rfl, hrun⟩ | ⟨key, -, hrun⟩
  · exact (waits_recordEventWithOutbox hrun hw).imp_right fun h => ⟨h.1, congrArg some h.2⟩
  · rcases recordTerminalOutcomeOf_ok hrun with
      ⟨id, row, outbox, -, rfl, hout, rfl⟩ | ⟨eventId, events, id, claims, rfl, -, -, rfl⟩
    · cases hid : row.eventId with
      | none =>
          rw [hid] at hout
          exact .inl (waits_of_outbox hout hw)
      | some eventId =>
          rw [hid] at hout
          exact (waits_outboxWith (d := db) hout hw).imp_right fun h => ⟨h.1, congrArg some h.2⟩
    · exact (waits_outboxWith (d := { db with events }) rfl hw).imp_right
        fun h => ⟨h.1, congrArg some h.2⟩

/-- A trace is put into the row of its event, unless there is no such row or it is
completed. -/
theorem attachEventTelemetry_cases {telemetry : Fields} {u : Unit}
    (h : attachEventTelemetry eventId telemetry db = (.ok u, db')) :
    (db' = db ∧ ∀ id row, db.outbox.byKey eventId = some (id, row) → row.completedAt ≠ none) ∨
      ∃ payload, db' = { db with
        outbox := db.outbox.update (fun _ row => row.eventId == eventId)
          (fun row => OutboxRow.promote telemetry row payload) (fun _ => rfl) } := by
  unfold attachEventTelemetry at h
  rw [Txn.transaction_eq_ok, Txn.bind_eq_ok] at h
  obtain ⟨event?, db₁, hsel, h⟩ := h
  cases hsel
  cases hev : db.events.find? eventId with
  | none => simp [hev] at h
  | some event =>
      simp only [hev, promoteOutbox, Txn.bind_eq_ok, Txn.select_run, Prod.mk.injEq,
        Except.ok.injEq] at h
      obtain ⟨row?, _, ⟨rfl, rfl⟩, h⟩ := h
      cases hrow : db.outbox.byKey eventId with
      | none =>
          simp only [hrow, Txn.pure_run, Prod.mk.injEq] at h
          exact .inl ⟨h.2.symm, fun id row hsome => by cases hsome⟩
      | some p =>
          obtain ⟨id, row⟩ := p
          cases hpay : row.payload with
          | other text => simp [hrow, hpay] at h
          | json value =>
              cases hdone : row.completedAt with
              | some at_ =>
                  refine .inl ⟨?_, fun id' row' hsome => ?_⟩
                  · cases value <;> simp [hrow, hpay, hdone] at h <;> exact h.symm
                  · cases hsome
                    simp [hdone]
              | none =>
                  cases value <;> simp [hrow, hpay, hdone] at h
                  exact .inr ⟨_, h.symm⟩

/-- A row that still waits after a trace was attached is none of its event, and is as
it was. -/
theorem awaiting_attachEventTelemetry {telemetry : Fields} {u : Unit} {id : Nat} {row : OutboxRow}
    (h : attachEventTelemetry eventId telemetry db = (.ok u, db'))
    (hrow : db'.outbox.find? id = some row) (hstate : row.sendState = .awaitingTelemetry) :
    db.outbox.find? id = some row ∧ (row.completedAt = none → row.eventId ≠ eventId) := by
  rcases attachEventTelemetry_cases h with ⟨rfl, hdone⟩ | ⟨payload, rfl⟩
  · refine ⟨hrow, fun hpending he => hdone id row ?_ hpending⟩
    exact Table.byKey_eq_some_iff.2 ⟨hrow, congrArg some he⟩
  · obtain ⟨old, hold, hupd⟩ := Option.map_eq_some_iff.1 ((Table.find?_update id).symm.trans hrow)
    split at hupd
    · subst hupd
      cases hstate
    · next hne =>
      subst hupd
      exact ⟨hold, fun _ he => hne (beq_iff_eq.2 he)⟩

theorem waits_attachEventTelemetry {telemetry : Fields} {u : Unit}
    (h : attachEventTelemetry eventId telemetry db = (.ok u, db')) (hw : db'.Waits e) :
    db.Waits e ∧ e ≠ eventId := by
  obtain ⟨id, row, hrow, he, hpending, hstate⟩ := hw
  obtain ⟨hold, hne⟩ := awaiting_attachEventTelemetry h hrow hstate
  exact ⟨⟨id, row, hold, he, hpending, hstate⟩, he ▸ hne hpending⟩

theorem waits_releaseOutboxWithoutTelemetry {r : Except Exc Unit}
    (h : releaseOutboxWithoutTelemetry eventId db = (r, db')) (hw : db'.Waits e) :
    db.Waits e ∧ e ≠ eventId := by
  cases h
  obtain ⟨id, row, hrow, he, hpending, hstate⟩ := hw
  rw [Table.find?_update] at hrow
  obtain ⟨old, hold, hupd⟩ := Option.map_eq_some_iff.1 hrow
  split at hupd
  · subst hupd
    cases hstate
  · next hne =>
    subst hupd
    refine ⟨⟨id, old, hold, he, hpending, hstate⟩, ?_⟩
    rintro rfl
    simp [he, hpending, hstate] at hne

/-- After a recovery no row waits. -/
theorem waits_recoverInterruptedActuations {n : Nat}
    (h : recoverInterruptedActuations now db = (.ok n, db')) : ¬ db'.Waits e := by
  obtain ⟨n', d, hrun, -, hnone⟩ := recover_outbox now db
  cases h.symm.trans hrun
  rintro ⟨id, row, hrow, -, hpending, hstate⟩
  exact hnone id row hrow hpending hstate

/-- Which rows wait after a call. -/
theorem StoreOp.run_waits {r : Except Exc op.Ans} (h : op.run now fault db = (r, db'))
    (hw : db'.Waits e) : db.Waits e ∨ ∃ answer, r = .ok answer ∧ op.queues answer = some e := by
  cases r with
  | error x =>
      rw [op.run_error h] at hw
      exact .inl hw
  | ok answer =>
      cases fault with
      | some x => cases h
      | none =>
          replace h : op.txn now db = (.ok answer, db') := h
          cases op with
          | claimActuation a =>
              rcases claimActuation_cases a db with ⟨id, row, -, heq⟩ | ⟨-, -, heq⟩ |
                ⟨id, claims, -, -, heq⟩ <;>
                cases (show LocalStore.claimActuation a db = _ from h).symm.trans heq <;>
                exact .inl hw
          | markActuationAttempt a =>
              obtain ⟨_, _, _, -, -, -, -, -, rfl, -⟩ := markActuationAttempt_ok h
              exact .inl hw
          | finalizeActuation a =>
              obtain ⟨_, _, events, _, -, -, -, -, -, -, rfl, -⟩ := finalizeActuation_ok h
              refine (waits_outboxWith (d := { db with events }) rfl hw).imp_right fun hq => ?_
              exact ⟨answer, rfl, by rw [queues, if_pos hq.1, hq.2]⟩
          | recordTerminalOutcome a =>
              refine (waits_recordTerminalOutcome h hw).imp_right fun hq => ?_
              exact ⟨answer, rfl, by rw [queues, if_pos hq.1, hq.2]⟩
          | recordEventWithOutbox event payload =>
              refine (waits_recordEventWithOutbox h hw).imp_right fun hq => ?_
              exact ⟨answer, rfl, by rw [queues, if_pos hq.1, hq.2]⟩
          | ensureOutbox id payload =>
              cases h
              refine (waits_outboxWith (d := db) rfl hw).imp_right fun hq => ?_
              exact ⟨_, rfl, by rw [queues, if_pos hq.1, hq.2]⟩
          | recoverInterruptedActuations =>
              exact absurd hw (waits_recoverInterruptedActuations h)
          | attachEventTelemetry id telemetry =>
              exact .inl (waits_attachEventTelemetry h hw).1
          | releaseOutboxWithoutTelemetry id =>
              exact .inl (waits_releaseOutboxWithoutTelemetry h hw).1
          | _ =>
              cases h
              exact .inl hw

theorem sendStateOf_ne_localOnly (payload : Fields) : sendStateOf payload ≠ .localOnly := by
  unfold sendStateOf
  split <;> nofun

/-- A row that was put into the outbox to be sent: it is not completed while it waits. -/
structure OutboxRow.Settled (row : OutboxRow) : Prop where
  open_waits : row.sendState = .awaitingTelemetry → row.completedAt = none
  shared : row.sendState ≠ .localOnly

/-- All rows are settled. -/
def Db.Settled (db : Db) : Prop :=
  ∀ id row, db.outbox.find? id = some row → row.Settled

theorem attachEventTelemetry_settled {telemetry : Fields} {u : Unit}
    (h : attachEventTelemetry eventId telemetry db = (.ok u, db')) (hdb : db.Settled) :
    db'.Settled := by
  rcases attachEventTelemetry_cases h with ⟨rfl, -⟩ | ⟨payload, rfl⟩
  · exact hdb
  · intro id row hrow
    obtain ⟨old, hold, hupd⟩ := Option.map_eq_some_iff.1 ((Table.find?_update id).symm.trans hrow)
    split at hupd
    · subst hupd
      exact ⟨nofun, nofun⟩
    · subst hupd
      exact hdb id old hold

theorem StoreOp.run_settled {r : Except Exc op.Ans} (h : op.run now fault db = (r, db'))
    (hdb : db.Settled) : db'.Settled := by
  cases hop : op.attaches with
  | false =>
      have hstep := op.run_outbox h hop
      intro id row hrow
      cases hold : db.outbox.find? id with
      | none =>
          obtain ⟨payload, hnew⟩ := hstep.new id row hold hrow
          refine ⟨fun _ => hnew.pending, ?_⟩
          rcases hnew.state with hstate | hstate
          · exact hstate ▸ sendStateOf_ne_localOnly payload
          · rw [hstate]
            nofun
      | some old =>
          rcases hstep.row id old hold with hsame | ⟨-, -, hready⟩
          · cases hrow.symm.trans hsame
            exact hdb id row hold
          · cases hrow.symm.trans hready
            exact ⟨nofun, nofun⟩
  | true =>
      cases op with
      | attachEventTelemetry eventId telemetry =>
          cases r with
          | error x =>
              rw [StoreOp.run_error h]
              exact hdb
          | ok u =>
              cases fault with
              | some x => cases h
              | none => exact attachEventTelemetry_settled h hdb
      | _ => cases hop

/-- No row waits at all. -/
theorem Db.Settled.quiet (h : db.Settled) (hnone : ∀ e, ¬ db.Waits e) (id : Nat) (row : OutboxRow)
    (hrow : db.outbox.find? id = some row) : row.sendState ≠ .awaitingTelemetry :=
  fun hstate => hnone row.eventId
    ⟨id, row, hrow, rfl, (h id row hrow).open_waits hstate, hstate⟩

end GateController

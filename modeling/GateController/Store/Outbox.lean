import GateController.Store.Invariant

/-!
# What calls of the store do to the outbox

Calls other than `attach_event_telemetry` leave every row where it is and change
at most its state, from waiting for a trace to ready.  A new row carries the
payload of its event, with the fields put over it that the call was given, or
that recovery found in the claim.
-/

namespace GateController

open Data LocalStore

/-- The calls that may put a trace into a row. -/
def StoreOp.attaches : StoreOp → Bool
  | .attachEventTelemetry _ _ => true
  | _ => false

/-- The fields that a call puts over the event. -/
def StoreOp.Supplies (op : StoreOp) (db : Db) (eventId : Nat) (payload : Fields) : Prop :=
  match op with
  | .finalizeActuation a => a.outboxPayload = some payload
  | .recordTerminalOutcome a => a.outboxPayload = some payload
  | .recordEventWithOutbox _ p => p = some payload
  | .ensureOutbox id p => id = eventId ∧ p = some payload
  | .recoverInterruptedActuations => ∃ i row event ack, db.claims.find? i = some row ∧
      pendingOf row = some (event, some payload, ack)
  | _ => False

/-- A new row of the outbox. -/
structure NewRow (op : StoreOp) (db db' : Db) (payload : Fields) (row : OutboxRow) : Prop where
  supplied : op.Supplies db row.eventId payload
  text : row.payload = .json (.obj (outboxPayload db' row.eventId payload))
  pending : row.completedAt = none
  state : row.sendState = sendStateOf payload ∨ row.sendState = .ready

/-- What a call does to the outbox. -/
structure OutboxStep (op : StoreOp) (db db' : Db) : Prop where
  row : ∀ id row, db.outbox.find? id = some row → db'.outbox.find? id = some row ∨
    row.completedAt = none ∧ row.sendState = .awaitingTelemetry ∧
      db'.outbox.find? id = some { row with sendState := .ready }
  new : ∀ id row, db.outbox.find? id = none → db'.outbox.find? id = some row →
    ∃ payload, NewRow op db db' payload row

variable {db db' : Db} {now : DateTime} {fault : Option Exc} {op : StoreOp}

theorem OutboxStep.of_same (h : db'.outbox = db.outbox) : OutboxStep op db db' where
  row id row hrow := .inl (h ▸ hrow)
  new id row hnone hrow := by
    rw [h, hnone] at hrow
    cases hrow

/-- The payload of an event does not change while events are only added. -/
theorem outboxPayload_mono {eventId : Nat} {payload : Fields} {e : EventRow}
    (hext : db.events.Extends db'.events) (he : db.events.find? eventId = some e) :
    outboxPayload db' eventId payload = outboxPayload db eventId payload := by
  simp only [outboxPayload, eventPayload, he, hext eventId e he]

/-- The rows after `INSERT OR IGNORE`. -/
theorem outboxWith_find? {eventId : Nat} {payload : Option Fields} :
    db.outbox.Extends (outboxWith now db eventId payload) ∧
    ∀ id row, db.outbox.find? id = none →
      (outboxWith now db eventId payload).find? id = some row →
      ∃ p, payload = some p ∧ row = outboxRow now db eventId p := by
  have hsame : db.outbox.Extends db.outbox ∧ ∀ id row, db.outbox.find? id = none →
      db.outbox.find? id = some row → ∃ p, payload = some p ∧ row = outboxRow now db eventId p := by
    refine ⟨.refl _, fun id row hnone hrow => ?_⟩
    rw [hnone] at hrow
    cases hrow
  cases payload with
  | none => exact hsame
  | some p =>
      simp only [outboxWith]
      split
      · exact hsame
      · next id' outbox hins =>
        refine ⟨.of_insert hins, fun id row hnone hrow => ⟨p, rfl, ?_⟩⟩
        rw [Table.find?_insert hins] at hrow
        split at hrow
        · exact (Option.some.inj hrow).symm
        · rw [hnone] at hrow
          cases hrow

/-- A call that may insert one row. -/
theorem OutboxStep.of_insert {d : Db} {eventId : Nat} {payload : Option Fields}
    (hd : d.outbox = db.outbox) (hevents : d.events = db'.events)
    (hout : db'.outbox = outboxWith now d eventId payload)
    (hsup : ∀ p, payload = some p → op.Supplies db eventId p) : OutboxStep op db db' := by
  obtain ⟨hkept, hnew⟩ := @outboxWith_find? d now eventId payload
  refine ⟨fun id row hrow => .inl ?_, fun id row hnone hrow => ?_⟩
  · rw [hout]
    exact hkept id row (hd ▸ hrow)
  · obtain ⟨p, hp, rfl⟩ := hnew id row (hd ▸ hnone) (hout ▸ hrow)
    refine ⟨p, hsup p hp, ?_, rfl, .inl rfl⟩
    simp only [outboxRow, outboxPayload, eventPayload, hevents]

theorem recordEventWithOutbox_outbox {event : GateEvent} {payload : Option Fields} {eventId : Nat}
    (h : recordEventWithOutbox now event payload db = (.ok eventId, db'))
    (hsup : ∀ p, payload = some p → op.Supplies db eventId p) : OutboxStep op db db' := by
  rcases recordEventWithOutbox_ok h with ⟨events, -, rfl⟩ | ⟨_, _, -, -, rfl⟩
  · exact .of_insert (d := { db with events }) rfl rfl rfl hsup
  · exact .of_insert (d := db) rfl rfl rfl hsup

theorem recordTerminalOutcome_outbox {a : TerminalArgs} {answer : Option Nat}
    (h : recordTerminalOutcome now a db = (.ok answer, db'))  :
    OutboxStep (.recordTerminalOutcome a) db db' := by
  rcases recordTerminalOutcome_ok h with ⟨_, -, hrun⟩ | ⟨key, -, hrun⟩
  · exact recordEventWithOutbox_outbox hrun fun p hp => hp
  · rcases recordTerminalOutcomeOf_ok hrun with
      ⟨id, row, outbox, -, -, hout, rfl⟩ | ⟨eventId, events, id, claims, -, -, -, rfl⟩
    · cases hid : row.eventId with
      | none =>
          rw [hid] at hout
          exact .of_same hout
      | some eventId =>
          rw [hid] at hout
          exact .of_insert (d := db) rfl rfl hout fun p hp => hp
    · exact .of_insert (d := { db with events }) rfl rfl rfl fun p hp => hp

/-! ## Recovery -/

/-- The outbox in the middle of a recovery. -/
structure Regrowing (db db' : Db) : Prop where
  events : db.events.Extends db'.events
  kept : db.outbox.Extends db'.outbox
  new : ∀ id row, db.outbox.find? id = none → db'.outbox.find? id = some row →
    (∃ e, db'.events.find? row.eventId = some e) ∧
    ∃ payload, NewRow .recoverInterruptedActuations db db' payload row

theorem Regrowing.step {db₀ : Db} {id : Nat} {row : ClaimRow} (h : Regrowing db₀ db)
    (hrow : db₀.claims.find? id = some row) (hs : RecoverStep now id row db db') :
    Regrowing db₀ db' := by
  have hext := hs.events
  rcases hs with ⟨-, rfl⟩ | ⟨event, payload, ack, eventId, events, hpending, hevent, rfl⟩
  · exact h
  · obtain ⟨e, he⟩ : ∃ e, events.find? eventId = some e := by
      rcases hevent with hins | ⟨rfl, key, e, -, he⟩
      · exact ⟨_, (Table.find?_insert hins eventId).trans (if_pos rfl)⟩
      · exact ⟨e, (Table.byKey_eq_some_iff.1 he).1⟩
    obtain ⟨hkept, hnew⟩ := @outboxWith_find? { db with events } now eventId payload
    refine ⟨h.events.trans hext, h.kept.trans hkept, fun i r hnone hr => ?_⟩
    cases hold : db.outbox.find? i with
    | some r' =>
        cases (hkept i r' hold).symm.trans hr
        obtain ⟨⟨e', he'⟩, p, hp⟩ := h.new i r hnone hold
        refine ⟨⟨e', hext _ _ he'⟩, p, hp.supplied, ?_, hp.pending, hp.state⟩
        rw [hp.text, ← outboxPayload_mono hext he']
    | none =>
        obtain ⟨p, hp, rfl⟩ := hnew i r hold hr
        exact ⟨⟨e, he⟩, p, ⟨id, row, event, ack, hrow, hp ▸ hpending⟩, rfl, rfl, .inl rfl⟩

/-- A row after every waiting row was released. -/
theorem releaseAll_find? (id : Nat) :
    (releaseAll db).outbox.find? id = (db.outbox.find? id).map fun row =>
      if row.completedAt.isNone && row.sendState == .awaitingTelemetry
      then { row with sendState := .ready } else row :=
  Table.find?_update id

theorem recover_outbox (now : DateTime) (db : Db) :
    ∃ n db', recoverInterruptedActuations now db = (.ok n, db') ∧
      OutboxStep .recoverInterruptedActuations db db' ∧
      ∀ id row, db'.outbox.find? id = some row → row.completedAt = none →
        row.sendState ≠ .awaitingTelemetry := by
  obtain ⟨n, d, hrun, hgrow, -⟩ := recover_rule now (Regrowing db)
    (fun i row _ => db.claims.find? i = some row) (fun _ _ _ => True)
    (fun id row db₁ db₂ hG hrow hs => ⟨hG.step hrow hs, trivial⟩)
    (fun _ _ _ _ _ _ _ _ _ _ h => h) (fun _ _ _ _ _ _ _ _ _ _ _ => trivial)
    db ⟨.refl _, .refl _, fun id row hnone hrow => by rw [hnone] at hrow; cases hrow⟩
    (fun i row hrow _ _ => hrow)
  refine ⟨n, _, hrun, ⟨fun id row hrow => ?_, fun id row hnone hrow => ?_⟩, fun id row hrow hp => ?_⟩
  · rw [releaseAll_find?, hgrow.kept id row hrow, Option.map_some]
    split
    · next hwait =>
      simp only [Bool.and_eq_true, beq_iff_eq, Option.isNone_iff_eq_none] at hwait
      exact .inr ⟨hwait.1, hwait.2, rfl⟩
    · exact .inl rfl
  · rw [releaseAll_find?] at hrow
    obtain ⟨row', hrow', heq⟩ := Option.map_eq_some_iff.1 hrow
    obtain ⟨-, payload, hp⟩ := hgrow.new id row' hnone hrow'
    split at heq
    · subst heq
      exact ⟨payload, hp.supplied, hp.text, hp.pending, .inr rfl⟩
    · subst heq
      exact ⟨payload, hp.supplied, hp.text, hp.pending, hp.state⟩
  · rw [releaseAll_find?] at hrow
    obtain ⟨row', hrow', heq⟩ := Option.map_eq_some_iff.1 hrow
    split at heq
    · subst heq
      exact SendState.noConfusion
    · next hwait =>
      subst heq
      simpa [hp] using hwait

/-! ## Every call -/

theorem StoreOp.run_outbox {r : Except Exc op.Ans} (h : op.run now fault db = (r, db'))
    (hop : op.attaches = false) : OutboxStep op db db' := by
  cases r with
  | error x =>
      rw [op.run_error h]
      exact .of_same rfl
  | ok answer =>
      cases fault with
      | some x => cases h
      | none =>
          replace h : op.txn now db = (.ok answer, db') := h
          cases op with
          | claimActuation a =>
              rcases claimActuation_cases a db with ⟨id, row, -, heq⟩ | ⟨-, -, heq⟩ |
                ⟨id, claims, -, -, heq⟩ <;>
                cases (show LocalStore.claimActuation a db = _ from h).symm.trans heq <;>
                exact .of_same rfl
          | markActuationAttempt a =>
              obtain ⟨_, _, _, -, -, -, -, -, rfl, -⟩ := markActuationAttempt_ok h
              exact .of_same rfl
          | finalizeActuation a =>
              obtain ⟨_, _, events, _, -, -, -, -, -, -, rfl, -⟩ := finalizeActuation_ok h
              exact .of_insert (d := { db with events }) rfl rfl rfl fun p hp => hp
          | recordTerminalOutcome a => exact recordTerminalOutcome_outbox h
          | recordEventWithOutbox event payload =>
              exact recordEventWithOutbox_outbox h fun p hp => hp
          | recoverInterruptedActuations =>
              obtain ⟨n, d, hrun, hstep, -⟩ := recover_outbox now db
              cases (show LocalStore.recoverInterruptedActuations now db = _ from h).symm.trans hrun
              exact hstep
          | ensureOutbox id payload =>
              cases h
              exact .of_insert (d := db) rfl rfl rfl fun p hp => ⟨rfl, hp⟩
          | releaseOutboxWithoutTelemetry eventId =>
              cases h
              refine ⟨fun id row hrow => ?_, fun id row hnone hrow => ?_⟩
              · rw [Table.find?_update, hrow, Option.map_some]
                split
                · next hwait =>
                  simp only [Bool.and_eq_true, beq_iff_eq, Option.isNone_iff_eq_none] at hwait
                  exact .inr ⟨hwait.1.2, hwait.2, rfl⟩
                · exact .inl rfl
              · rw [Table.find?_update, hnone] at hrow
                cases hrow
          | attachEventTelemetry id telemetry => cases hop
          | _ =>
              cases h
              exact .of_same rfl

end GateController

import GateController.Store.Recovery

/-!
# The referential invariant of the store

`RowSound` says what a claim's columns have to do with each other and with the
events, `StoreInv` that every claim is sound and that every outbox row has an
event.  Each operation keeps it, given that a claim that is passed in belongs to
a row with its key and that an event that is passed with it carries that key.

`Reachable` are the databases that calls of the store lead to, together with the
claims that `claim_actuation` has handed out.
-/

namespace GateController

open Data LocalStore

/-! ## The invariant -/

/-- What a call keeps in its claim for recovery, encoded. -/
def PendingSound (row : ClaimRow) : Prop :=
  row.pendingEvent = none ∨ ∃ event payload commandAck,
    event.idempotencyKey = some row.idempotencyKey ∧
    row.pendingEvent = some (encodePendingEvent event) ∧
    row.pendingOutboxPayload = encodeOptionalJson payload ∧
    row.pendingCommandId = Option.map Prod.fst (commandAck : Option CommandAck) ∧
    row.pendingCommandCreatedAt = commandAck.map fun ack => timestamp ack.2

/-- The columns of a claim agree with each other and with the events. -/
structure RowSound (events : Table EventRow String EventRow.idempotencyKey) (row : ClaimRow) :
    Prop where
  finalized : row.state = .finalized →
    (∃ eventId e, row.eventId = some eventId ∧ events.find? eventId = some e ∧
      e.idempotencyKey = some row.idempotencyKey) ∧
    row.terminalStatus ≠ none ∧ row.pendingEvent = none ∧ row.pendingOutboxPayload = none ∧
    row.pendingCommandId = none ∧ row.pendingCommandCreatedAt = none
  claimed : row.state = .claimed → row.eventId = none ∧ row.terminalStatus = none
  pending : row.state = .claimed → PendingSound row
  marker : row.activationMonotonic ≠ none ∨ row.bootId ≠ none → row.activationAttemptAt ≠ none

/-- Every claim is sound and every outbox row has an event. -/
structure StoreInv (db : Db) : Prop where
  claims : ∀ i row, db.claims.find? i = some row → RowSound db.events row
  outbox : ∀ i o, db.outbox.find? i = some o → ∃ e, db.events.find? o.eventId = some e

/-- A claim that was handed out names a row with its key. -/
def ClaimOf (db : Db) (claim : ActuationClaim) : Prop :=
  claim.status = .claimed → ∃ i row, claim.claimId = some i ∧ db.claims.find? i = some row ∧
    row.idempotencyKey = claim.idempotencyKey

/-- Claims stay, with their keys. -/
def ClaimsKept (db db' : Db) : Prop :=
  ∀ i row, db.claims.find? i = some row →
    ∃ row', db'.claims.find? i = some row' ∧ row'.idempotencyKey = row.idempotencyKey

/-- What the callers of the store see to. -/
def StoreOp.WellFormed (db : Db) : StoreOp → Prop
  | .claimActuation a =>
      ∀ event, a.event = some event → event.idempotencyKey = some a.idempotencyKey
  | .markActuationAttempt a =>
      ClaimOf db a.claim ∧ a.event.idempotencyKey = some a.claim.idempotencyKey
  | .finalizeActuation a => ClaimOf db a.claim
  | .ensureOutbox id _ => ∃ e, db.events.find? id = some e
  | _ => True

variable {db db' : Db} {now : DateTime}

theorem RowSound.mono {events events' : Table EventRow String EventRow.idempotencyKey}
    {row : ClaimRow} (h : RowSound events row) (hext : events.Extends events') :
    RowSound events' row where
  finalized hstate := by
    obtain ⟨⟨eventId, e, hid, he, hk⟩, hrest⟩ := h.finalized hstate
    exact ⟨⟨eventId, e, hid, hext _ _ he, hk⟩, hrest⟩
  claimed := h.claimed
  pending := h.pending
  marker := h.marker

theorem ClaimsKept.refl (db : Db) : ClaimsKept db db := fun _ row h => ⟨row, h, rfl⟩

theorem ClaimsKept.of_insert {row : ClaimRow} {id : Nat}
    (h : db.claims.insert row = some (id, db'.claims)) : ClaimsKept db db' :=
  fun i r hr => ⟨r, Table.Extends.of_insert h i r hr, rfl⟩

theorem ClaimsKept.of_set {id : Nat} {row row' : ClaimRow} (hrow : db.claims.find? id = some row)
    (hkey : row'.idempotencyKey = row.idempotencyKey)
    (h : ∀ i, db'.claims.find? i = if i = id then some row' else db.claims.find? i) :
    ClaimsKept db db' := by
  intro i r hr
  by_cases hi : i = id
  · subst hi
    rw [hrow] at hr
    cases hr
    exact ⟨row', (h i).trans (if_pos rfl), hkey⟩
  · exact ⟨r, (h i).trans ((if_neg hi).trans hr), rfl⟩

theorem ClaimOf.mono {claim : ActuationClaim} (h : ClaimOf db claim) (hkept : ClaimsKept db db') :
    ClaimOf db' claim := by
  intro hstatus
  obtain ⟨i, row, hid, hrow, hkey⟩ := h hstatus
  obtain ⟨row', hrow', hkey'⟩ := hkept i row hrow
  exact ⟨i, row', hid, hrow', hkey'.trans hkey⟩

/-! ## The parts of an operation -/

/-- A new outbox row refers to the event it was made for. -/
theorem outbox_outboxWith {eventId : Nat} {payload : Option Fields} {e : EventRow}
    (h : ∀ i o, db.outbox.find? i = some o → ∃ e, db.events.find? o.eventId = some e)
    (he : db.events.find? eventId = some e) (i : Nat) (o : OutboxRow)
    (ho : (outboxWith now db eventId payload).find? i = some o) :
    ∃ e, db.events.find? o.eventId = some e := by
  unfold outboxWith at ho
  split at ho
  · exact h i o ho
  · next p =>
    split at ho
    · exact h i o ho
    · next id outbox hins =>
      rw [Table.find?_insert hins] at ho
      split at ho
      · cases ho
        exact ⟨e, he⟩
      · exact h i o ho

/-- The claims stay sound when one row is set to a sound one. -/
theorem claims_set {claims : Table ClaimRow String (fun row => some row.idempotencyKey)}
    {events : Table EventRow String EventRow.idempotencyKey} {id : Nat} {row : ClaimRow}
    (h : StoreInv db) (hext : db.events.Extends events) (hrow : RowSound events row)
    (hfind : ∀ i, claims.find? i = if i = id then some row else db.claims.find? i) (i : Nat)
    (r : ClaimRow) (hr : claims.find? i = some r) : RowSound events r := by
  rw [hfind] at hr
  split at hr
  · cases hr
    exact hrow
  · exact (h.claims i r hr).mono hext

theorem StoreInv.outbox_mono {events : Table EventRow String EventRow.idempotencyKey}
    (h : StoreInv db) (hext : db.events.Extends events) (i : Nat) (o : OutboxRow)
    (ho : db.outbox.find? i = some o) : ∃ e, events.find? o.eventId = some e := by
  obtain ⟨e, he⟩ := h.outbox i o ho
  exact ⟨e, hext _ _ he⟩

/-- Changing outbox rows in place keeps their events. -/
theorem StoreInv.outbox_update {sel : Nat → OutboxRow → Bool} {f : OutboxRow → OutboxRow}
    {hf : ∀ row, some (f row).eventId = some row.eventId} (h : StoreInv db) :
    StoreInv { db with outbox := db.outbox.update sel f hf } where
  claims := h.claims
  outbox i o ho := by
    rw [Table.find?_update] at ho
    obtain ⟨o', ho', rfl⟩ := Option.map_eq_some_iff.1 ho
    have hkey : (if sel i o' then f o' else o').eventId = o'.eventId := by
      split
      · exact Option.some.inj (hf o')
      · rfl
    rw [hkey]
    exact h.outbox i o' ho'

/-! ## Each operation keeps the invariant -/

theorem claimActuation_inv {a : ClaimArgs} {r : Except Exc ActuationClaim} (h : StoreInv db)
    (hkey : ∀ event, a.event = some event → event.idempotencyKey = some a.idempotencyKey)
    (hrun : claimActuation a db = (r, db')) :
    StoreInv db' ∧ ClaimsKept db db' ∧ ∀ claim, r = .ok claim → ClaimOf db' claim := by
  rcases claimActuation_cases a db with
    ⟨id, row, hrow, heq⟩ | ⟨-, -, heq⟩ | ⟨id, claims, -, hins, heq⟩ <;>
    rw [hrun] at heq <;> obtain ⟨rfl, rfl⟩ := Prod.mk.inj heq
  · refine ⟨h, .refl _, fun claim hclaim hstatus => ?_⟩
    cases hclaim
    cases hs : row.state <;> simp [existingStatus, hs] at hstatus
  · refine ⟨h, .refl _, fun claim hclaim hstatus => ?_⟩
    cases hclaim
    cases hstatus
  · have hfind := Table.find?_insert hins
    refine ⟨⟨claims_set h (Table.Extends.refl _) ?_ hfind, h.outbox⟩, .of_insert hins, ?_⟩
    · refine ⟨fun hs => (by cases hs), fun _ => ⟨rfl, rfl⟩, fun _ => ?_, fun hm => ?_⟩
      · cases hevent : a.event with
        | none => exact .inl (by simp [ClaimArgs.row, hevent])
        | some event =>
            refine .inr ⟨event, a.outboxPayload, a.commandAck, hkey event hevent, ?_, rfl, rfl, rfl⟩
            simp [ClaimArgs.row, hevent]
      · rcases hm with hm | hm <;> exact absurd rfl hm
    · intro claim hclaim _
      cases hclaim
      exact ⟨id, a.row, rfl, (hfind id).trans (if_pos rfl), rfl⟩

theorem markActuationAttempt_inv {a : MarkArgs} {u : Unit} (h : StoreInv db)
    (hclaim : ClaimOf db a.claim)
    (hkey : a.event.idempotencyKey = some a.claim.idempotencyKey)
    (hrun : markActuationAttempt a db = (.ok u, db')) : StoreInv db' ∧ ClaimsKept db db' := by
  obtain ⟨id, row, claims, hstatus, hid, hrow, hstate, -, rfl, hfind⟩ :=
    markActuationAttempt_ok hrun
  obtain ⟨_, _, hid', hrow', hkey'⟩ := hclaim hstatus
  rw [hid] at hid'
  cases hid'
  rw [hrow] at hrow'
  cases hrow'
  refine ⟨⟨claims_set h (Table.Extends.refl _) ?_ hfind, h.outbox⟩, .of_set hrow (by rfl) hfind⟩
  have hold := h.claims id row hrow
  refine ⟨fun hs => ?_, fun _ => hold.claimed hstate, fun _ => ?_, fun _ => by simp [MarkArgs.mark]⟩
  · rw [show (a.mark row).state = row.state from rfl, hstate] at hs
    cases hs
  · refine .inr ⟨a.event, a.outboxPayload, a.commandAck, ?_, rfl, rfl, rfl, rfl⟩
    rw [hkey]
    exact congrArg some hkey'.symm

theorem finalizeActuation_inv {a : FinalizeArgs} {eventId : Nat} (h : StoreInv db)
    (hclaim : ClaimOf db a.claim) (hrun : finalizeActuation now a db = (.ok eventId, db')) :
    StoreInv db' ∧ ClaimsKept db db' := by
  obtain ⟨id, row, events, claims, hstatus, hkey, hid, hrow, hstate, hins, rfl, hfind⟩ :=
    finalizeActuation_ok hrun
  obtain ⟨_, _, hid', hrow', hkey'⟩ := hclaim hstatus
  rw [hid] at hid'
  cases hid'
  rw [hrow] at hrow'
  cases hrow'
  have hext := Table.Extends.of_insert hins
  have hevent := (Table.find?_insert hins eventId).trans (if_pos rfl)
  refine ⟨⟨claims_set h hext ?_ hfind, outbox_outboxWith (h.outbox_mono hext) hevent⟩,
    .of_set hrow (by rfl) hfind⟩
  have hold := h.claims id row hrow
  refine ⟨fun _ => ⟨⟨eventId, _, rfl, hevent, ?_⟩, ?_, rfl, rfl, rfl, rfl⟩, fun hs => (by cases hs),
    fun hs => (by cases hs), fun hm => ?_⟩
  · exact hkey.trans (congrArg some hkey'.symm)
  · simp [FinalizeArgs.finalize]
  · simp only [FinalizeArgs.finalize] at hm ⊢
    split at hm
    · next hkeep =>
      rw [if_pos hkeep]
      exact hold.marker hm
    · simp at hm

theorem recordEventWithOutbox_inv {event : GateEvent} {payload : Option Fields} {eventId : Nat}
    (h : StoreInv db) (hrun : recordEventWithOutbox now event payload db = (.ok eventId, db')) :
    StoreInv db' ∧ ClaimsKept db db' := by
  rcases recordEventWithOutbox_ok hrun with ⟨events, hins, rfl⟩ | ⟨key, row, -, hrow, rfl⟩
  · have hext := Table.Extends.of_insert hins
    have hevent := (Table.find?_insert hins eventId).trans (if_pos rfl)
    exact ⟨⟨fun i r hr => (h.claims i r hr).mono hext,
      outbox_outboxWith (h.outbox_mono hext) hevent⟩, .refl _⟩
  · have hevent := (Table.byKey_eq_some_iff.1 hrow).1
    exact ⟨⟨h.claims, outbox_outboxWith h.outbox hevent⟩, .refl _⟩

theorem recordTerminalOutcomeOf_inv {a : TerminalArgs} {key : String} {answer : Option Nat}
    (h : StoreInv db) (hkey : a.event.idempotencyKey = some key)
    (hrun : recordTerminalOutcomeOf now a key db = (.ok answer, db')) :
    StoreInv db' ∧ ClaimsKept db db' := by
  rcases recordTerminalOutcomeOf_ok hrun with
    ⟨id, row, outbox, hrow, -, hout, rfl⟩ | ⟨eventId, events, id, claims, -, hins, hnew, rfl⟩
  · refine ⟨⟨h.claims, ?_⟩, .refl _⟩
    obtain ⟨hfind, -⟩ := Table.byKey_eq_some_iff.1 hrow
    have hold := h.claims id row hfind
    cases hev : row.eventId with
    | none =>
        simp only [hev] at hout
        rw [hout]
        exact h.outbox
    | some eventId =>
        simp only [hev] at hout
        rw [hout]
        cases hstate : row.state with
        | claimed => rw [(hold.claimed hstate).1] at hev; cases hev
        | finalized =>
            obtain ⟨⟨_, e, hid, he, -⟩, -⟩ := hold.finalized hstate
            rw [hev] at hid
            cases hid
            exact outbox_outboxWith h.outbox he
  · have hext := Table.Extends.of_insert hins
    have hevent := (Table.find?_insert hins eventId).trans (if_pos rfl)
    refine ⟨⟨claims_set h hext ?_ (Table.find?_insert hnew),
      outbox_outboxWith (h.outbox_mono hext) hevent⟩, .of_insert hnew⟩
    refine ⟨fun _ => ⟨⟨eventId, _, rfl, hevent, hkey⟩, ?_, rfl, rfl, rfl, rfl⟩,
      fun hs => (by cases hs), fun hs => (by cases hs), fun hm => ?_⟩
    · simp [TerminalArgs.row]
    · simp [TerminalArgs.row] at hm

/-- What recovery reads of a claim is what its call had written. -/
theorem pendingOf_of_encoded {row : ClaimRow} {event : GateEvent} {payload : Option Fields}
    {commandAck : Option CommandAck} (hevent : row.pendingEvent = some (encodePendingEvent event))
    (hpayload : row.pendingOutboxPayload = encodeOptionalJson payload)
    (hid : row.pendingCommandId = commandAck.map Prod.fst)
    (hat : row.pendingCommandCreatedAt = commandAck.map fun ack => timestamp ack.2) :
    pendingOf row = some ({ event with
      opened := false
      relayActivatedAt := none
      receivedAt := asUtc event.receivedAt
      decisionAt := event.decisionAt.map asUtc }, payload,
      commandAck.map fun ack => (ack.1, asUtc ack.2)) := by
  simp only [pendingOf, hevent, Option.bind_some, pendingData, decodePendingEvent_encode, hpayload,
    decodeOptionalJson_encode, hid, hat]
  cases commandAck with
  | none => rfl
  | some ack => simp [Except.toOption, Bind.bind, Except.bind, Pure.pure, Except.pure, asUtc]

/-- The event that recovery inserts for a sound claim carries the claim's key. -/
theorem PendingSound.key {row : ClaimRow} (h : PendingSound row) {event : GateEvent}
    {payload : Option Fields} {commandAck : Option CommandAck}
    (hp : pendingOf row = some (event, payload, commandAck)) :
    event.idempotencyKey = some row.idempotencyKey := by
  rcases h with hnone | ⟨e, p, ack, hkey, hevent, hpayload, hid, hat⟩
  · simp [pendingOf, hnone] at hp
  · rw [pendingOf_of_encoded hevent hpayload hid hat] at hp
    cases hp
    exact hkey

/-- One round of recovery keeps the invariant. -/
theorem LocalStore.RecoverStep.inv {id : Nat} {row : ClaimRow} (hs : RecoverStep now id row db db')
    (h : StoreInv db) (hrow : db.claims.find? id = some row) (hstate : row.state = .claimed) :
    StoreInv db' := by
  have hext := hs.events
  have hclaims := hs.claims hrow hstate
  have hsound := h.claims id row hrow
  refine ⟨fun i r hr => ?_, ?_⟩
  · by_cases hi : i = id
    · subst hi
      rcases hclaims.2 with ⟨-, hfind⟩ | ⟨event, payload, ack, eventId, e, hp, hfind, he, hk⟩
      · rw [hr] at hfind
        cases hfind
        exact hsound.mono hext
      · rw [hr] at hfind
        cases hfind
        refine ⟨fun _ => ⟨⟨eventId, e, rfl, he, hk.trans ((hsound.pending hstate).key hp)⟩, ?_, rfl,
          rfl, rfl, rfl⟩, fun hs => (by cases hs), fun hs => (by cases hs), hsound.marker⟩
        simp [recoverRow]
    · rw [hclaims.1 i hi] at hr
      exact (h.claims i r hr).mono hext
  · rcases hs with ⟨-, rfl⟩ | ⟨event, payload, ack, eventId, events, hp, hevent, rfl⟩
    · exact h.outbox
    · have hfound : ∃ e, events.find? eventId = some e := by
        rcases hevent with hins | ⟨rfl, key, e, -, he⟩
        · exact ⟨_, (Table.find?_insert hins eventId).trans (if_pos rfl)⟩
        · exact ⟨e, (Table.byKey_eq_some_iff.1 he).1⟩
      obtain ⟨e, he⟩ := hfound
      exact outbox_outboxWith (h.outbox_mono hext) he

theorem recover_inv {r : Except Exc Nat} (h : StoreInv db)
    (hrun : recoverInterruptedActuations now db = (r, db')) : StoreInv db' := by
  obtain ⟨n, db₁, hrun₁, hG, -⟩ := recover_rule now StoreInv
    (fun i row db => db.claims.find? i = some row ∧ row.state = .claimed) (fun _ _ _ => True)
    (fun id row db₁ db₂ hG hp hs => ⟨hs.inv hG hp.1 hp.2, trivial⟩)
    (fun id row db₁ db₂ i r _ hp hs hi hr =>
      ⟨((hs.claims hp.1 hp.2).1 i hi).trans hr.1, hr.2⟩)
    (fun _ _ _ _ _ _ _ _ _ _ _ => trivial) db h (fun i row hrow hstate _ => ⟨hrow, hstate⟩)
  rw [hrun] at hrun₁
  obtain ⟨rfl, rfl⟩ := Prod.mk.inj hrun₁
  exact hG.outbox_update

theorem LocalStore.Recovers.kept (h : Recovers db db') : ClaimsKept db db' := by
  intro i row hrow
  rcases h.row i row hrow with ⟨-, hfind⟩ | ⟨-, _, _, _, _, _, -, hfind, -⟩
  · exact ⟨row, hfind, rfl⟩
  · exact ⟨_, hfind, rfl⟩

/-! ## Calls of the store -/

theorem StoreOp.atomic_txn (now : DateTime) (op : StoreOp) : Txn.Atomic (op.txn now) := by
  cases op with
  | terminalOutcome key => exact .select _
  | actuationClaimStatus key => exact .select _
  | eventId key => exact .select _
  | claimActuation a => exact .transaction _
  | markActuationAttempt a =>
      simp only [txn, LocalStore.markActuationAttempt]
      split
      · exact .transaction _
      · exact .raise _
  | finalizeActuation a =>
      simp only [txn, LocalStore.finalizeActuation]
      split
      · exact .raise _
      · exact .transaction _
  | recordTerminalOutcome a =>
      have hevent : Txn.Atomic
          (some <$> LocalStore.recordEventWithOutbox now a.event a.outboxPayload) :=
        Txn.Atomic.map (.transaction _) some
      simp only [txn, LocalStore.recordTerminalOutcome]
      split
      · split
        · exact hevent
        · exact .transaction _
      · exact hevent
  | recordEventWithOutbox event payload => exact .transaction _
  | recoverInterruptedActuations => exact .transaction _
  | ensureOutbox id payload => exact Txn.Atomic.transaction (ensureOutboxRow now id payload)
  | queueCommandAck ack status detail =>
      exact Txn.Atomic.transaction (ensureCommandAck (some ack) status detail)
  | releaseOutboxWithoutTelemetry id => exact Txn.Atomic.transaction (Txn.modify _)
  | attachEventTelemetry id telemetry => exact .transaction _

/-- A call that raises leaves the tables exactly as they were. -/
theorem StoreOp.run_error {fault : Option Exc} {op : StoreOp} {x : Exc}
    (h : op.run now fault db = (.error x, db')) : db' = db := by
  cases fault with
  | some y => exact (Prod.mk.inj h).2.symm
  | none => exact op.atomic_txn now db x db' h

/-- Every call keeps the invariant and the claims. -/
theorem StoreOp.run_inv {fault : Option Exc} {op : StoreOp} {r : Except Exc op.Ans}
    (h : StoreInv db) (hop : op.WellFormed db) (hrun : op.run now fault db = (r, db')) :
    StoreInv db' ∧ ClaimsKept db db' := by
  cases r with
  | error x =>
      rw [op.run_error hrun]
      exact ⟨h, .refl db⟩
  | ok answer =>
      cases fault with
      | some x => cases hrun
      | none =>
          replace hrun : op.txn now db = (.ok answer, db') := hrun
          cases op with
          | terminalOutcome key =>
              cases hrun
              exact ⟨h, .refl _⟩
          | actuationClaimStatus key =>
              cases hrun
              exact ⟨h, .refl _⟩
          | eventId key =>
              cases hrun
              exact ⟨h, .refl _⟩
          | claimActuation a =>
              have := claimActuation_inv h hop hrun
              exact ⟨this.1, this.2.1⟩
          | markActuationAttempt a => exact markActuationAttempt_inv h hop.1 hop.2 hrun
          | finalizeActuation a => exact finalizeActuation_inv h hop hrun
          | recordTerminalOutcome a =>
              rcases recordTerminalOutcome_ok hrun with ⟨_, -, hrun⟩ | ⟨key, hkey, hrun⟩
              · exact recordEventWithOutbox_inv h hrun
              · exact recordTerminalOutcomeOf_inv h hkey hrun
          | recordEventWithOutbox event payload => exact recordEventWithOutbox_inv h hrun
          | recoverInterruptedActuations =>
              refine ⟨recover_inv h hrun, ?_⟩
              obtain ⟨n, db₁, hrun₁, hrec⟩ := recover_recovers now db
              replace hrun : LocalStore.recoverInterruptedActuations now db = (.ok answer, db') := hrun
              rw [hrun] at hrun₁
              cases hrun₁
              exact hrec.kept
          | ensureOutbox id payload =>
              obtain ⟨e, he⟩ := hop
              cases hrun
              exact ⟨⟨h.claims, outbox_outboxWith h.outbox he⟩, .refl _⟩
          | queueCommandAck ack status detail =>
              cases hrun
              exact ⟨⟨h.claims, h.outbox⟩, .refl _⟩
          | releaseOutboxWithoutTelemetry id =>
              cases hrun
              exact ⟨h.outbox_update, .refl _⟩
          | attachEventTelemetry id telemetry =>
              obtain ⟨sel, f, hf, rfl, -⟩ := attachEventTelemetry_ok hrun
              exact ⟨h.outbox_update, .refl _⟩

/-! ## Reachable databases -/

/-- What the callers have in hand: claims that `claim_actuation` returned, events
with the key of the claim they come with, and ids of events. -/
def StoreOp.Admissible (db : Db) (issued : List ActuationClaim) : StoreOp → Prop
  | .claimActuation a =>
      ∀ event, a.event = some event → event.idempotencyKey = some a.idempotencyKey
  | .markActuationAttempt a =>
      a.claim ∈ issued ∧ a.event.idempotencyKey = some a.claim.idempotencyKey
  | .finalizeActuation a => a.claim ∈ issued
  | .ensureOutbox id _ => ∃ e, db.events.find? id = some e
  | _ => True

/-- The claims that a call hands out. -/
def StoreOp.issues : (op : StoreOp) → Except Exc op.Ans → List ActuationClaim
  | .claimActuation _, .ok claim => [claim]
  | _, _ => []

/-- The databases that calls of the store lead to, with the claims handed out. -/
inductive Reachable : Db → List ActuationClaim → Prop where
  | fresh : Reachable Db.fresh []
  | call {db issued} (op : StoreOp) (now : DateTime) (fault : Option Exc) :
      Reachable db issued → op.Admissible db issued →
      Reachable (op.run now fault db).2 (op.issues (op.run now fault db).1 ++ issued)

theorem StoreInv.fresh : StoreInv Db.fresh where
  claims i row h := by cases h
  outbox i o h := by cases h

/-- A claim that a call hands out names a row with its key. -/
theorem StoreOp.claimOf_issues {fault : Option Exc} {op : StoreOp} {r : Except Exc op.Ans}
    (h : StoreInv db) (hop : op.WellFormed db) (hrun : op.run now fault db = (r, db'))
    {claim : ActuationClaim} (hc : claim ∈ op.issues r) : ClaimOf db' claim := by
  cases op with
  | claimActuation a =>
      cases r with
      | error x => cases hc
      | ok c =>
          cases List.mem_singleton.1 hc
          cases fault with
          | some x => cases hrun
          | none => exact (claimActuation_inv h hop hrun).2.2 claim rfl
  | _ => cases hc

/-- The invariant of reachable databases, with that of the claims handed out. -/
theorem Reachable.inv {issued : List ActuationClaim} (h : Reachable db issued) :
    StoreInv db ∧ ∀ claim ∈ issued, ClaimOf db claim := by
  induction h with
  | fresh => exact ⟨.fresh, by simp⟩
  | @call db issued op now fault _ hop ih =>
      have hwf : op.WellFormed db := by
        cases op with
        | markActuationAttempt a => exact ⟨ih.2 _ hop.1, hop.2⟩
        | finalizeActuation a => exact ih.2 _ hop
        | _ => exact hop
      obtain ⟨hinv, hkept⟩ := StoreOp.run_inv ih.1 hwf (Prod.mk.eta.symm)
      refine ⟨hinv, fun claim hc => ?_⟩
      rcases List.mem_append.1 hc with hc | hc
      · exact StoreOp.claimOf_issues ih.1 hwf (Prod.mk.eta.symm) hc
      · exact (ih.2 claim hc).mono hkept

/-- What the tables promise to whoever reads them. -/
structure Consistent (db : Db) : Prop where
  finalized : ∀ i row, db.claims.find? i = some row → row.state = .finalized →
    (∃ eventId e, row.eventId = some eventId ∧ db.events.find? eventId = some e ∧
      e.idempotencyKey = some row.idempotencyKey) ∧
    row.terminalStatus ≠ none ∧ row.pendingEvent = none ∧ row.pendingOutboxPayload = none ∧
    row.pendingCommandId = none ∧ row.pendingCommandCreatedAt = none
  claimed : ∀ i row, db.claims.find? i = some row → row.state = .claimed →
    row.eventId = none ∧ row.terminalStatus = none
  claimKeys : ∀ i j ri rj, db.claims.find? i = some ri → db.claims.find? j = some rj →
    ri.idempotencyKey = rj.idempotencyKey → i = j
  eventKeys : ∀ i j ei ej key, db.events.find? i = some ei → db.events.find? j = some ej →
    ei.idempotencyKey = some key → ej.idempotencyKey = some key → i = j
  outboxEvents : ∀ i j oi oj, db.outbox.find? i = some oi → db.outbox.find? j = some oj →
    oi.eventId = oj.eventId → i = j
  outboxRefers : ∀ i o, db.outbox.find? i = some o → ∃ e, db.events.find? o.eventId = some e
  marker : ∀ i row, db.claims.find? i = some row →
    row.activationMonotonic ≠ none ∨ row.bootId ≠ none → row.activationAttemptAt ≠ none

theorem StoreInv.consistent (h : StoreInv db) : Consistent db where
  finalized i row hrow := (h.claims i row hrow).finalized
  claimed i row hrow := (h.claims i row hrow).claimed
  claimKeys _ _ _ rj hi hj hk :=
    db.claims.keys _ (Table.find?_eq_some_iff.1 hi) _ (Table.find?_eq_some_iff.1 hj)
      rj.idempotencyKey (congrArg some hk) rfl
  eventKeys _ _ _ _ key hi hj hki hkj :=
    db.events.keys _ (Table.find?_eq_some_iff.1 hi) _ (Table.find?_eq_some_iff.1 hj) key hki hkj
  outboxEvents _ _ _ oj hi hj hk :=
    db.outbox.keys _ (Table.find?_eq_some_iff.1 hi) _ (Table.find?_eq_some_iff.1 hj)
      oj.eventId (congrArg some hk) rfl
  outboxRefers := h.outbox
  marker i row hrow := (h.claims i row hrow).marker

/-- Every reachable database is consistent, and a call that raises leaves every
table as it was. -/
theorem reachable_consistent (db : Db) (issued : List ActuationClaim) (h : Reachable db issued) :
    Consistent db ∧
    ∀ (op : StoreOp) (now : DateTime) (fault : Option Exc) (x : Exc) (db' : Db),
      op.Admissible db issued → op.run now fault db = (.error x, db') → db' = db :=
  ⟨h.inv.1.consistent, fun op _ _ _ _ _ hrun => op.run_error hrun⟩

/-! ### Three calls, of which one came to its end -/

/-- Calls of the store one after the other, with the claims handed out. -/
def afterCalls (p : Db × List ActuationClaim) : List StoreOp → Db × List ActuationClaim
  | [] => p
  | op :: rest =>
      let answer := op.run datetimeMin none p.1
      afterCalls (answer.2, op.issues answer.1 ++ p.2) rest

/-- Every call has in hand what it needs. -/
def AdmissibleCalls (p : Db × List ActuationClaim) : List StoreOp → Prop
  | [] => True
  | op :: rest =>
      let answer := op.run datetimeMin none p.1
      op.Admissible p.1 p.2 ∧ AdmissibleCalls (answer.2, op.issues answer.1 ++ p.2) rest

theorem Reachable.calls {p : Db × List ActuationClaim} {ops : List StoreOp}
    (h : Reachable p.1 p.2) (hops : AdmissibleCalls p ops) :
    Reachable (afterCalls p ops).1 (afterCalls p ops).2 := by
  induction ops generalizing p with
  | nil => exact h
  | cons op rest ih => exact ih (h.call op datetimeMin none hops.1) hops.2

/-- The event of a call. -/
def callEvent (key : String) : GateEvent where
  source := "mqtt"
  reason := "direct_open"
  opened := false
  idempotencyKey := some key
  receivedAt := datetimeMin

/-- The claim of a call. -/
def callClaim (key : String) : StoreOp :=
  .claimActuation {
    idempotencyKey := key
    claimedAt := datetimeMin
    event := some (callEvent key)
    outboxPayload := some [("reason", .str "direct_open")]
    commandAck := some ⟨key, datetimeMin⟩ }

/-- The claim that the first call is given. -/
def firstClaim : ActuationClaim := ⟨"a", .claimed, some datetimeMin, some 1⟩

/-- The first call is claimed, marked and finalized, the other two are claimed. -/
def threeCalls : List StoreOp :=
  [callClaim "a",
    .markActuationAttempt {
      claim := firstClaim
      attemptedAt := datetimeMin
      event := callEvent "a"
      attemptedMonotonic := some 5
      bootId := some "boot" },
    .finalizeActuation {
      claim := firstClaim
      event := callEvent "a"
      outboxPayload := some [("reason", .str "direct_open")] },
    callClaim "b", callClaim "c"]

theorem callClaim_admissible (key : String) (db : Db) (issued : List ActuationClaim) :
    (callClaim key).Admissible db issued := fun event h => by
  cases h
  rfl

theorem threeCalls_admissible : AdmissibleCalls (Db.fresh, []) threeCalls :=
  ⟨callClaim_admissible _ _ _, ⟨.head _, rfl⟩, .head _, callClaim_admissible _ _ _,
    callClaim_admissible _ _ _, trivial⟩

/-- The database after them. -/
def threeClaims : Db × List ActuationClaim := afterCalls (Db.fresh, []) threeCalls

theorem reachable_consistent_three :
    (∃ row, threeClaims.1.claims.find? 1 = some row ∧ row.state = .finalized ∧
      row.eventId = some 1 ∧ row.activationMonotonic = some 5) ∧
    (∃ o, threeClaims.1.outbox.find? 1 = some o ∧ o.eventId = 1) ∧
    Consistent threeClaims.1 ∧
    (StoreOp.finalizeActuation { claim := firstClaim, event := callEvent "a" }).run
        datetimeMin none threeClaims.1 =
      (.error (.runtimeError "actuation claim is no longer active"), threeClaims.1) := by
  obtain ⟨hconsistent, hfailed⟩ := reachable_consistent threeClaims.1 threeClaims.2
    (Reachable.fresh.calls threeCalls_admissible)
  refine ⟨⟨_, rfl, rfl, rfl, rfl⟩, ⟨_, rfl, rfl⟩, hconsistent, Prod.ext rfl ?_⟩
  exact hfailed (.finalizeActuation _) datetimeMin none _ _ (.tail _ (.tail _ (.head _)))
    (Prod.ext rfl rfl)

end GateController

import GateController.Store.Outbox

/-!
# Interrupted calls are settled

What recovery makes of the calls that were interrupted, in any reachable database.  A round of the
loop settles the claim that it is about (`settled_of_step`), keeps what was settled before
(`SettledAs.step`), and leaves the claims still to do as they were, with the events under their
keys (`Untouched`).  On the database that recovery leaves (`AfterRecovery`) it does nothing more.
-/

namespace GateController

open Data LocalStore

variable {db db₁ db₂ : Db} {now : DateTime}

/-- What the call of a claim had kept for recovery. -/
structure PendingAs (row : ClaimRow) (event : GateEvent) (payload : Option Fields)
    (commandAck : Option CommandAck) : Prop where
  key : event.idempotencyKey = some row.idempotencyKey
  event : row.pendingEvent = some (encodePendingEvent event)
  payload : row.pendingOutboxPayload = encodeOptionalJson payload
  commandId : row.pendingCommandId = commandAck.map Prod.fst
  createdAt : row.pendingCommandCreatedAt = commandAck.map fun ack => timestamp ack.2

/-- The row of the event that reports an interrupted call. -/
def recoveryReport (row : ClaimRow) (event : GateEvent) : EventRow :=
  eventRow (recoveredEvent (recoveryReason row) event)

/-- The outbox has a row for the event. -/
def OutboxHas (db : Db) (eventId : Nat) : Prop :=
  ∃ i o, db.outbox.find? i = some o ∧ o.eventId = eventId

/-- The command is acknowledged as failed. -/
def AckRefused (db : Db) (commandId : String) : Prop :=
  ∃ i a, db.acks.find? i = some a ∧ a.commandId = commandId ∧ a.status = "failed"

/-- What becomes of an interrupted call.  Its claim is closed with an event, the one that had its
key before or else a new report, which is queued if the call had a payload for it. -/
structure SettledAs (db : Db) (i : Nat) (row : ClaimRow) (event : GateEvent)
    (payload : Option Fields) (commandAck : Option CommandAck) (eventId : Nat) (db' : Db) :
    Prop where
  claim : db'.claims.find? i = some (recoverRow (recoveryReason row) eventId row)
  found : ∀ id e, db.events.byKey row.idempotencyKey = some (id, e) →
    eventId = id ∧ db'.events.find? eventId = some e
  reported : db.events.byKey row.idempotencyKey = none →
    db.events.find? eventId = none ∧ db'.events.find? eventId = some (recoveryReport row event) ∧
      (OutboxHas db' eventId ↔ payload.isSome)
  refused : ∀ ack, commandAck = some ack → AckRefused db' ack.1

/-! ## The parts of a round -/

theorem recoveryReport_decoded (row : ClaimRow) (event : GateEvent) :
    eventRow (recoveredEvent (recoveryReason row) { event with
      opened := false
      relayActivatedAt := none
      receivedAt := asUtc event.receivedAt
      decisionAt := event.decisionAt.map asUtc }) = recoveryReport row event := by
  cases hdecision : event.decisionAt <;>
    simp [recoveryReport, eventRow, recoveredEvent, optionalTimestamp, hdecision]

theorem outboxHas_outboxWith {eventId k : Nat} {payload : Option Fields} :
    OutboxHas { db with outbox := outboxWith now db eventId payload } k ↔
      OutboxHas db k ∨ k = eventId ∧ payload.isSome := by
  cases payload with
  | none => simp [OutboxHas, outboxWith]
  | some payload =>
      cases hins : db.outbox.insert (outboxRow now db eventId payload) with
      | none =>
          have hqueued : OutboxHas db eventId := by
            obtain ⟨key, hkey, hrow⟩ := Table.insert_eq_none_iff.1 hins
            obtain ⟨⟨i, o⟩, ho⟩ := Option.ne_none_iff_exists'.1 hrow
            obtain ⟨hfind, hk⟩ := Table.byKey_eq_some_iff.1 ho
            exact ⟨i, o, hfind, Option.some.inj (hk.trans hkey.symm)⟩
          have hsame : outboxWith now db eventId (some payload) = db.outbox := by
            rw [outboxWith, hins]
          rw [hsame]
          constructor
          · exact .inl
          · rintro (h | ⟨rfl, -⟩)
            · exact h
            · exact hqueued
      | some p =>
          have hnew : outboxWith now db eventId (some payload) = p.2 := by
            rw [outboxWith, hins]
          rw [hnew]
          have hfind := Table.find?_insert hins
          constructor
          · rintro ⟨i, o, ho, rfl⟩
            rw [hfind] at ho
            split at ho
            · cases ho
              exact .inr ⟨rfl, rfl⟩
            · exact .inl ⟨i, o, ho, rfl⟩
          · rintro (⟨i, o, ho, rfl⟩ | ⟨rfl, -⟩)
            · exact ⟨i, o, Table.Extends.of_insert hins i o ho, rfl⟩
            · exact ⟨p.1, _, (hfind p.1).trans (if_pos rfl), rfl⟩

theorem refused_acksWith_self {detail : Option String} (ack : CommandAck) :
    AckRefused { db with acks := acksWith db.acks "failed" detail (some ack) } ack.1 := by
  obtain ⟨commandId, createdAt⟩ := ack
  cases hins : db.acks.insert ⟨commandId, "failed", detail, timestamp createdAt⟩ with
  | none =>
      obtain ⟨key, hkey, hrow⟩ := Table.insert_eq_none_iff.1 hins
      obtain ⟨⟨i, a⟩, ha⟩ := Option.ne_none_iff_exists'.1 hrow
      obtain ⟨hfind, hk⟩ := Table.byKey_eq_some_iff.1 ha
      have hid : a.commandId = commandId := Option.some.inj (hk.trans hkey.symm)
      refine ⟨i, { a with status := "failed", detail }, ?_, hid, rfl⟩
      simp [acksWith, hins, Table.find?_update, hfind, hid]
  | some p =>
      refine ⟨p.1, ⟨commandId, "failed", detail, timestamp createdAt⟩, ?_, rfl, rfl⟩
      simp [acksWith, hins, Table.find?_insert hins]

theorem AckRefused.acksWith {detail : Option String} {commandAck : Option CommandAck}
    {commandId : String} (h : AckRefused db commandId) :
    AckRefused { db with acks := acksWith db.acks "failed" detail commandAck } commandId := by
  obtain ⟨i, a, hfind, hid, hstatus⟩ := h
  cases commandAck with
  | none => exact ⟨i, a, hfind, hid, hstatus⟩
  | some ack =>
      obtain ⟨other, createdAt⟩ := ack
      cases hins : db.acks.insert ⟨other, "failed", detail, timestamp createdAt⟩ with
      | none =>
          by_cases hother : a.commandId = other
          · refine ⟨i, { a with status := "failed", detail }, ?_, hid, rfl⟩
            simp [LocalStore.acksWith, hins, Table.find?_update, hfind, hother]
          · refine ⟨i, a, ?_, hid, hstatus⟩
            simp [LocalStore.acksWith, hins, Table.find?_update, hfind, hother]
      | some p =>
          refine ⟨i, a, ?_, hid, hstatus⟩
          have hkept := Table.Extends.of_insert hins i a hfind
          simpa [LocalStore.acksWith, hins] using hkept

/-! ## A round -/

/-- A claim that recovery selects had kept the data of its call. -/
theorem StoreInv.pendingAs {i : Nat} {row : ClaimRow} (h : StoreInv db)
    (hsel : LocalStore.Selected db i row) :
    ∃ event payload commandAck, PendingAs row event payload commandAck := by
  rcases (h.claims i row hsel.1).pending hsel.2.1 with
    hnone | ⟨event, payload, commandAck, hkey, hevent, hpayload, hid, hat⟩
  · have hsome := hsel.2.2
    rw [hnone] at hsome
    cases hsome
  · exact ⟨event, payload, commandAck, hkey, hevent, hpayload, hid, hat⟩

/-- A round settles the claim that it is about. -/
theorem settled_of_step {i : Nat} {row : ClaimRow} {event : GateEvent} {payload : Option Fields}
    {commandAck : Option CommandAck} (hinv : StoreInv db₁) (hext : db.events.Extends db₁.events)
    (hsame : db₁.events.byKey row.idempotencyKey = db.events.byKey row.idempotencyKey)
    (hkept : PendingAs row event payload commandAck) (hrow : db₁.claims.find? i = some row)
    (hstate : row.state = .claimed) (hs : RecoverStep now i row db₁ db₂) :
    ∃ eventId, SettledAs db i row event payload commandAck eventId db₂ := by
  have hread := pendingOf_of_encoded hkept.event hkept.payload hkept.commandId hkept.createdAt
  rcases hs with ⟨hnone, -⟩ | ⟨_, _, _, eventId, events, hp, hevent, rfl⟩
  · rw [hread] at hnone
    cases hnone
  · rw [hread] at hp
    cases hp
    refine ⟨eventId, ?_, fun id e hfound => ?_, fun hnone => ?_, fun ack hack => ?_⟩
    · have hfind := @find?_update_id db₁.claims (fun i' row => i' == i && row.state == .claimed)
        (recoverRow (recoveryReason row) eventId) (fun _ => rfl) i row hrow (by simp [hstate])
        (fun i' r hi => by simp [hi])
      exact (hfind i).trans (if_pos rfl)
    · rw [← hsame] at hfound
      rcases hevent with hins | ⟨rfl, key, e', hkey, he⟩
      · rw [Table.byKey_of_insert hins hkept.key] at hfound
        cases hfound
      · cases hkey.symm.trans hkept.key
        rw [hfound] at he
        cases he
        exact ⟨rfl, (Table.byKey_eq_some_iff.1 hfound).1⟩
    · rcases hevent with hins | ⟨rfl, key, e', hkey, he⟩
      · have hfree := Table.find?_of_insert hins
        have hnew := (Table.find?_insert hins eventId).trans (if_pos rfl)
        rw [recoveryReport_decoded] at hnew
        refine ⟨?_, hnew, ?_⟩
        · cases hold : db.events.find? eventId with
          | none => rfl
          | some e => rw [hext _ _ hold] at hfree; cases hfree
        · have hqueued := @outboxHas_outboxWith { db₁ with events } now eventId eventId payload
          refine hqueued.trans ⟨fun h => ?_, fun h => .inr ⟨rfl, h⟩⟩
          rcases h with ⟨j, o, ho, hid⟩ | ⟨-, h⟩
          · obtain ⟨e, he⟩ := hinv.outbox j o ho
            rw [hid, hfree] at he
            cases he
          · exact h
      · cases hkey.symm.trans hkept.key
        rw [hsame, hnone] at he
        cases he
    · obtain ⟨commandId, createdAt⟩ := ack
      rw [hack]
      exact refused_acksWith_self (commandId, asUtc createdAt)

/-- The event that a round writes or finds has the key of its claim. -/
theorem EventFor.key_eq {row : ClaimRow} {event : GateEvent} {eventId : Nat}
    {events : Table EventRow String EventRow.idempotencyKey}
    (h : EventFor db (recoveredEvent (recoveryReason row) event) eventId events)
    (hkey : event.idempotencyKey = some row.idempotencyKey) :
    ∃ e, events.find? eventId = some e ∧ e.idempotencyKey = some row.idempotencyKey := by
  rcases h with hins | ⟨rfl, key, e, hk, he⟩
  · exact ⟨_, (Table.find?_insert hins eventId).trans (if_pos rfl), hkey⟩
  · obtain ⟨hfind, hek⟩ := Table.byKey_eq_some_iff.1 he
    exact ⟨e, hfind, hek.trans (hk.symm.trans hkey)⟩

/-- A round says nothing about another key. -/
theorem byKey_of_step {id : Nat} {row : ClaimRow} {key : String}
    (hs : RecoverStep now id row db₁ db₂) (hsound : PendingSound row)
    (hne : row.idempotencyKey ≠ key) :
    db₂.events.byKey key = db₁.events.byKey key := by
  rcases hs with ⟨-, rfl⟩ | ⟨event, _, _, eventId, events, hp, hevent, rfl⟩
  · rfl
  · rcases hevent with hins | ⟨rfl, -⟩
    · have hk : event.idempotencyKey = some row.idempotencyKey := hsound.key hp
      refine (Table.byKey_insert hins key).trans (if_neg fun h => hne ?_)
      exact Option.some.inj (hk.symm.trans h)
    · rfl

/-- A round keeps what another one settled. -/
theorem SettledAs.step {i id : Nat} {row r : ClaimRow} {event : GateEvent}
    {payload : Option Fields} {commandAck : Option CommandAck} {eventId : Nat}
    (h : SettledAs db i r event payload commandAck eventId db₁)
    (hkept : PendingAs r event payload commandAck) (hs : RecoverStep now id row db₁ db₂)
    (hsound : PendingSound row) (hrow : db₁.claims.find? id = some row)
    (hstate : row.state = .claimed) (hi : i ≠ id) (hne : row.idempotencyKey ≠ r.idempotencyKey) :
    SettledAs db i r event payload commandAck eventId db₂ := by
  have hext := hs.events
  have hclaim := ((hs.claims hrow hstate).1 i hi).trans h.claim
  rcases hs with ⟨-, rfl⟩ | ⟨event₂, payload₂, ack₂, eventId₂, events, hp, hevent, rfl⟩
  · exact h
  · obtain ⟨e₂, he₂, hk₂⟩ := EventFor.key_eq hevent (hsound.key hp)
    refine ⟨hclaim, fun k e hfound => ?_, fun hnone => ?_, fun ack hack => ?_⟩
    · obtain ⟨hid, hfind⟩ := h.found k e hfound
      exact ⟨hid, hext _ _ hfind⟩
    · obtain ⟨hfree, hfind, hqueued⟩ := h.reported hnone
      have hkeptEvent : events.find? eventId = some (recoveryReport r event) := hext _ _ hfind
      -- The round queues an event with the key of its own claim.
      have hother : eventId ≠ eventId₂ := by
        rintro rfl
        cases hkeptEvent.symm.trans he₂
        exact hne (Option.some.inj (hk₂.symm.trans hkept.key))
      refine ⟨hfree, hkeptEvent, ?_⟩
      have hstep := @outboxHas_outboxWith { db₁ with events } now eventId₂ eventId payload₂
      exact (hstep.trans (or_iff_left fun hnew => hother hnew.1)).trans hqueued
    · exact (h.refused ack hack).acksWith

/-! ## The loop -/

/-- A claim that the loop has not reached, with the event of its key as it was. -/
def Untouched (db : Db) (i : Nat) (row : ClaimRow) (db₁ : Db) : Prop :=
  LocalStore.Waiting db i row db₁ ∧
    db₁.events.byKey row.idempotencyKey = db.events.byKey row.idempotencyKey

/-- A claim that the loop has settled. -/
def CallSettled (db : Db) (i : Nat) (row : ClaimRow) (db₁ : Db) : Prop :=
  ∃ event payload commandAck eventId, PendingAs row event payload commandAck ∧
    SettledAs db i row event payload commandAck eventId db₁

/-- The events that were added say that nothing was opened. -/
def NothingOpened (db db₁ : Db) : Prop :=
  ∀ id e, db.events.find? id = none → db₁.events.find? id = some e →
    e.opened = false ∧ e.relayActivatedAt = none

theorem NothingOpened.step {id : Nat} {row : ClaimRow} (h : NothingOpened db db₁)
    (hs : RecoverStep now id row db₁ db₂) : NothingOpened db db₂ := by
  rcases hs with ⟨-, rfl⟩ | ⟨event, _, _, eventId, events, -, hevent, rfl⟩
  · exact h
  · rcases hevent with hins | ⟨rfl, -⟩
    · intro k e hnone he
      replace he := (Table.find?_insert hins k).symm.trans he
      split at he
      · cases he
        exact ⟨rfl, rfl⟩
      · exact h k e hnone he
    · exact h

/-- What holds all through the loop. -/
structure MidRecovery (db db₁ : Db) : Prop where
  inv : StoreInv db₁
  recovering : Recovering db db₁
  nothingOpened : NothingOpened db db₁

theorem Untouched.sound {i : Nat} {row : ClaimRow} (hG : MidRecovery db db₁)
    (h : Untouched db i row db₁) : PendingSound row :=
  (hG.inv.claims i row h.1.2).pending h.1.1.2.1

/-- Two claims have different keys. -/
theorem claim_keys_ne {i id : Nat} {row r : ClaimRow} (h : db.claims.find? id = some row)
    (hr : db.claims.find? i = some r) (hi : i ≠ id) : row.idempotencyKey ≠ r.idempotencyKey := by
  intro hkey
  exact hi (db.claims.keys _ (Table.find?_eq_some_iff.1 hr) _ (Table.find?_eq_some_iff.1 h)
    r.idempotencyKey rfl (congrArg some hkey))

theorem Untouched.step {i id : Nat} {row r : ClaimRow} (hG : MidRecovery db db₁)
    (hw : Untouched db id row db₁) (hs : RecoverStep now id row db₁ db₂) (hi : i ≠ id)
    (h : Untouched db i r db₁) : Untouched db i r db₂ := by
  obtain ⟨⟨hsel, hrow⟩, hkey⟩ := h
  refine ⟨⟨hsel, ((hs.claims hw.1.2 hw.1.1.2.1).1 i hi).trans hrow⟩, ?_⟩
  exact (byKey_of_step hs (hw.sound hG) (claim_keys_ne hw.1.2 hrow hi)).trans hkey

theorem CallSettled.step {i id : Nat} {row r : ClaimRow} (hG : MidRecovery db db₁)
    (hw : Untouched db id row db₁)
    (hs : RecoverStep now id row db₁ db₂) (hi : i ≠ id) (h : CallSettled db i r db₁) :
    CallSettled db i r db₂ := by
  obtain ⟨event, payload, commandAck, eventId, hkept, hsettled⟩ := h
  have hne := claim_keys_ne hw.1.2 hsettled.claim hi
  exact ⟨event, payload, commandAck, eventId, hkept,
    hsettled.step hkept hs (hw.sound hG) hw.1.2 hw.1.1.2.1 hi hne⟩

/-- A round on a claim that was not reached before. -/
theorem MidRecovery.step {id : Nat} {row : ClaimRow} (hG : MidRecovery db db₁)
    (hw : Untouched db id row db₁) (hs : RecoverStep now id row db₁ db₂) :
    MidRecovery db db₂ ∧ CallSettled db id row db₂ := by
  have hstate := hw.1.1.2.1
  refine ⟨⟨hs.inv hG.inv hw.1.2 hstate, hG.recovering.step hw.1 hs, hG.nothingOpened.step hs⟩, ?_⟩
  obtain ⟨event, payload, commandAck, hkept⟩ :=
    hG.inv.pendingAs ⟨hw.1.2, hstate, hw.1.1.2.2⟩
  obtain ⟨eventId, hsettled⟩ :=
    settled_of_step hG.inv hG.recovering.events hw.2 hkept hw.1.2 hstate hs
  exact ⟨event, payload, commandAck, eventId, hkept, hsettled⟩

/-- Recovery counts the claims that it closed. -/
theorem recoverClaims_count {rows : List (Nat × ClaimRow)} {n : Nat}
    (hrun : recoverClaims now rows db = (.ok n, db₁)) (h : ∀ p ∈ rows, pendingOf p.2 ≠ none) :
    n = rows.length := by
  induction rows generalizing db n with
  | nil =>
      cases hrun
      rfl
  | cons p rest ih =>
      have hp := h p (by simp)
      rcases recoverClaim_cases now p.1 p.2 db with ⟨hnone, -⟩ | ⟨_, _, _, _, _, -, -, hone⟩
      · exact absurd hnone hp
      · simp only [recoverClaims, Txn.bind_run, hone] at hrun
        cases hrest : recoverClaims now rest (recoveredDb now db p.1 p.2 _ _ _ _) with
        | mk answer d =>
            rw [hrest] at hrun
            cases answer with
            | error x => cases hrun
            | ok m =>
                cases hrun
                rw [ih hrest fun q hq => h q (by simp [hq]), List.length_cons]
                omega

/-! ## The release -/

/-- An update of no row. -/
theorem update_of_unselected {α κ : Type} {key : α → Option κ} {t : Table α κ key}
    {sel : Nat → α → Bool} {f : α → α} {hf : ∀ a, key (f a) = key a}
    (h : ∀ i a, t.find? i = some a → sel i a = false) : t.update sel f hf = t := by
  have hrows : (t.update sel f hf).rows = t.rows := by
    refine (List.map_congr_left fun p hp => ?_).trans (List.map_id' t.rows)
    simp [h p.1 p.2 (Table.find?_eq_some_iff.2 hp)]
  have heq : ∀ {s t : Table α κ key}, s.rows = t.rows → s = t := by
    rintro ⟨_, _, _⟩ ⟨_, _, _⟩ h
    cases h
    rfl
  exact heq hrows

theorem outboxHas_releaseAll {eventId : Nat} :
    OutboxHas (releaseAll db) eventId ↔ OutboxHas db eventId := by
  constructor
  · rintro ⟨i, o, ho, rfl⟩
    rw [releaseAll_find?] at ho
    obtain ⟨o', ho', rfl⟩ := Option.map_eq_some_iff.1 ho
    refine ⟨i, o', ho', ?_⟩
    split <;> rfl
  · rintro ⟨i, o, ho, rfl⟩
    refine ⟨i, _, (releaseAll_find? i).trans (by rw [ho, Option.map_some]), ?_⟩
    split <;> rfl

theorem CallSettled.releaseAll {i : Nat} {row : ClaimRow} (h : CallSettled db i row db₁) :
    CallSettled db i row (releaseAll db₁) := by
  obtain ⟨event, payload, commandAck, eventId, hkept, hclaim, hfound, hreported, hrefused⟩ := h
  refine ⟨event, payload, commandAck, eventId, hkept, hclaim, hfound, fun hnone => ?_, hrefused⟩
  obtain ⟨hfree, hfind, hqueued⟩ := hreported hnone
  exact ⟨hfree, hfind, outboxHas_releaseAll.trans hqueued⟩

/-- No row waits for a trace after the release. -/
theorem releaseAll_released {i : Nat} {o : OutboxRow}
    (ho : (releaseAll db).outbox.find? i = some o) (hopen : o.completedAt = none) :
    o.sendState ≠ .awaitingTelemetry := by
  rw [releaseAll_find?] at ho
  obtain ⟨o', ho', rfl⟩ := Option.map_eq_some_iff.1 ho
  split at hopen
  · next hwait =>
    rw [if_pos hwait]
    exact SendState.noConfusion
  · next hwait =>
    rw [if_neg hwait]
    simpa [hopen] using hwait

theorem releaseAll_releaseAll : releaseAll (releaseAll db) = releaseAll db := by
  have hsame : ∀ i o, (releaseAll db).outbox.find? i = some o →
      (o.completedAt.isNone && o.sendState == .awaitingTelemetry) = false := by
    intro i o ho
    by_cases hopen : o.completedAt = none
    · simp [releaseAll_released ho hopen]
    · simp [hopen]
  have hupdate := @update_of_unselected _ _ _ (releaseAll db).outbox _
    (fun row => { row with sendState := .ready }) (fun _ => rfl) hsame
  exact congrArg (fun outbox => { releaseAll db with outbox }) hupdate

/-! ## Recovery -/

theorem recover_count {n : Nat} (hrun : recoverInterruptedActuations now db = (.ok n, db₁))
    (h : ∀ p ∈ interrupted db, pendingOf p.2 ≠ none) : n = (interrupted db).length := by
  cases hclaims : recoverClaims now (interrupted db) db with
  | mk answer d =>
      cases answer with
      | error x =>
          simp [recoverInterruptedActuations, Txn.transaction, Txn.bind_run, hclaims] at hrun
      | ok m =>
          have hcount := recoverClaims_count hclaims h
          simp [recoverInterruptedActuations, Txn.transaction, Txn.bind_run, hclaims] at hrun
          exact hrun.1.symm.trans hcount

theorem selected_of_mem {p : Nat × ClaimRow} (hp : p ∈ interrupted db) :
    LocalStore.Selected db p.1 p.2 := by
  obtain ⟨hmem, hsel⟩ := List.mem_filter.1 hp
  simp only [Bool.and_eq_true, beq_iff_eq] at hsel
  exact ⟨Table.find?_eq_some_iff.2 hmem, hsel.1, hsel.2⟩

/-- What recovery makes of a database.  Every interrupted call is settled and the other claims are
as they were.  Events are only added, and none says that the gate opened.  No row of the outbox
waits for a trace any more. -/
structure AfterRecovery (db db' : Db) : Prop where
  settled : ∀ i row, LocalStore.Selected db i row → CallSettled db i row db'
  others : ∀ i, (∀ row, ¬ LocalStore.Selected db i row) → db'.claims.find? i = db.claims.find? i
  events : db.events.Extends db'.events
  nothingOpened : NothingOpened db db'
  released : ∀ i o, db'.outbox.find? i = some o → o.completedAt = none →
    o.sendState ≠ .awaitingTelemetry

/-- No call is left interrupted. -/
theorem AfterRecovery.none_interrupted {db' : Db} (h : AfterRecovery db db') :
    interrupted db' = [] := by
  refine List.eq_nil_iff_forall_not_mem.2 fun p hp => ?_
  obtain ⟨hrow, hstate, hpending⟩ := selected_of_mem hp
  by_cases hsel : ∃ row, LocalStore.Selected db p.1 row
  · obtain ⟨row, hrow₀⟩ := hsel
    obtain ⟨_, _, _, _, -, hsettled⟩ := h.settled p.1 row hrow₀
    rw [Option.some.inj (hrow.symm.trans hsettled.claim)] at hstate
    cases hstate
  · have hsame := h.others p.1 (not_exists.1 hsel)
    exact hsel ⟨p.2, hsame.symm.trans hrow, hstate, hpending⟩

/-- Recovery of a reachable database returns, counts the interrupted calls and settles each of
them, and a recovery after it has nothing to do. -/
theorem recovery_settles {issued : List ActuationClaim} (h : Reachable db issued)
    (now : DateTime) :
    ∃ db', recoverInterruptedActuations now db = (.ok (interrupted db).length, db') ∧
      AfterRecovery db db' ∧
      ∀ later, recoverInterruptedActuations later db' = (.ok 0, db') := by
  have hinv := h.inv.1
  obtain ⟨n, d, hrun, hG, hdone⟩ := recover_rule now
    (MidRecovery db) (Untouched db) (CallSettled db)
    (fun id row db₁ db₂ hG hw hs => hG.step hw hs)
    (fun id row db₁ db₂ i r hG hw hs hi hr => Untouched.step hG hw hs hi hr)
    (fun id row db₁ db₂ i r hG hw hs hi hr => hr.step hG hw hs hi)
    db ⟨hinv, ⟨.refl _, rfl, fun _ _ => rfl⟩, fun id e hnone he => by rw [hnone] at he; cases he⟩
    (fun i row hrow hstate hpending => ⟨⟨⟨hrow, hstate, hpending⟩, hrow⟩, rfl⟩)
  have hafter : AfterRecovery db (releaseAll d) :=
    { settled := fun i row hsel => (hdone i row hsel.1 hsel.2.1 hsel.2.2).releaseAll
      others := hG.recovering.others
      events := hG.recovering.events
      nothingOpened := hG.nothingOpened
      released := fun i o ho hopen => releaseAll_released ho hopen }
  have hcount : n = (interrupted db).length := recover_count hrun fun p hp => by
    obtain ⟨event, payload, commandAck, hkept⟩ := hinv.pendingAs (selected_of_mem hp)
    rw [pendingOf_of_encoded hkept.event hkept.payload hkept.commandId hkept.createdAt]
    exact Option.some_ne_none _
  refine ⟨releaseAll d, hcount ▸ hrun, hafter, fun later => ?_⟩
  have hnone := hafter.none_interrupted
  simp [recoverInterruptedActuations, Txn.transaction, Txn.bind_run, hnone, recoverClaims,
    releaseAll_releaseAll]

/-- Two calls were interrupted after their claims, and one had come to its end. -/
theorem recovery_settles_three :
    ∃ db', recoverInterruptedActuations datetimeMin threeClaims.1 = (.ok 2, db') ∧
      (db'.claims.find? 2).map ClaimRow.state = some .finalized ∧
      (db'.claims.find? 3).map ClaimRow.state = some .finalized ∧
      db'.claims.find? 1 = threeClaims.1.claims.find? 1 ∧
      (∀ i o, db'.outbox.find? i = some o → o.completedAt = none →
        o.sendState ≠ .awaitingTelemetry) ∧
      ∀ later, recoverInterruptedActuations later db' = (.ok 0, db') := by
  obtain ⟨db', hrun, hafter, hagain⟩ :=
    recovery_settles (Reachable.fresh.calls threeCalls_admissible) datetimeMin
  obtain ⟨_, _, _, _, -, hsecond⟩ := hafter.settled 2 _ ⟨rfl, rfl, rfl⟩
  obtain ⟨_, _, _, _, -, hthird⟩ := hafter.settled 3 _ ⟨rfl, rfl, rfl⟩
  refine ⟨db', hrun, by rw [hsecond.claim]; rfl, by rw [hthird.claim]; rfl, ?_,
    hafter.released, hagain⟩
  refine hafter.others 1 ?_
  rintro row ⟨hrow, hstate, -⟩
  cases hrow
  cases hstate

end GateController

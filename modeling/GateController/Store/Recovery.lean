import GateController.Store.Cases

/-!
# What recovery does

Recovery works on the claims that it selected at the start, one after another.
`recoverClaims_rule` is the induction over that loop: an invariant of the rows
still to do and of the tables.  `Recovers` is what a whole recovery does to the
claims and the events.
-/

namespace GateController

open Data

namespace LocalStore

/-! ## Reading the pending data -/

/-- The event, the payload and the command of an interrupted call, if they can be
read. -/
def pendingOf (row : ClaimRow) : Option (GateEvent × Option Fields × Option CommandAck) :=
  row.pendingEvent.bind fun eventText => (pendingData eventText row).toOption

/-- A reader that fails only in ways that recovery skips. -/
def Skippable {α : Type} (m : Except Exc α) : Prop := ∀ x, m = .error x → undecodable x = true

theorem Skippable.bind {α β : Type} {m : Except Exc α} {f : α → Except Exc β}
    (hm : Skippable m) (hf : ∀ a, Skippable (f a)) : Skippable (m >>= f) := by
  intro x hx
  cases m with
  | error y => exact hm x (by simpa [Bind.bind, Except.bind] using hx)
  | ok a => exact hf a x (by simpa [Bind.bind, Except.bind] using hx)

theorem Skippable.ok {α : Type} (a : α) : Skippable (.ok a : Except Exc α) := by
  intro x hx
  cases hx

theorem skippable_loads (encoded : JsonText) : Skippable (loads encoded) := by
  intro x hx
  cases encoded with
  | json value => cases hx
  | other text => cases hx; rfl

theorem skippable_item (fields : Fields) (name : String) : Skippable (item fields name) := by
  intro x hx
  unfold item at hx
  split at hx
  · cases hx
  · cases hx; rfl

theorem skippable_stringOf (value : Json) : Skippable (stringOf value) := by
  intro x hx
  cases value <;> cases hx <;> rfl

theorem skippable_optionalStringOf (value : Json) : Skippable (optionalStringOf value) := by
  intro x hx
  cases value <;> cases hx <;> rfl

theorem skippable_floatOf (value : Json) : Skippable (floatOf value) := by
  intro x hx
  cases value <;> cases hx <;> rfl

theorem skippable_decodePendingEvent (encoded : JsonText) :
    Skippable (decodePendingEvent encoded) := by
  refine (skippable_loads encoded).bind fun value => ?_
  cases value with
  | obj payload =>
      exact (skippable_item _ _).bind fun _ => (skippable_stringOf _).bind fun _ =>
        (skippable_item _ _).bind fun _ => (skippable_stringOf _).bind fun _ =>
        (skippable_item _ _).bind fun _ => (skippable_optionalStringOf _).bind fun _ =>
        (skippable_item _ _).bind fun _ => (skippable_optionalStringOf _).bind fun _ =>
        (skippable_optionalStringOf _).bind fun _ => (skippable_floatOf _).bind fun _ =>
        Skippable.ok _
  | _ =>
      intro x hx
      cases hx; rfl

theorem skippable_decodeOptionalJson (encoded : Option JsonText) :
    Skippable (decodeOptionalJson encoded) := by
  cases encoded with
  | none => exact Skippable.ok _
  | some text =>
      refine (skippable_loads text).bind fun value => ?_
      cases value with
      | obj payload => exact Skippable.ok _
      | _ =>
          intro x hx
          cases hx; rfl

theorem skippable_pendingData (eventText : JsonText) (row : ClaimRow) :
    Skippable (pendingData eventText row) :=
  (skippable_decodePendingEvent _).bind fun _ => (skippable_decodeOptionalJson _).bind fun _ =>
    Skippable.ok _

/-- The payload that is read is the one that was kept. -/
theorem pendingOutboxPayload_of_pendingOf {row : ClaimRow} {event : GateEvent} {payload : Fields}
    {ack : Option CommandAck} (h : pendingOf row = some (event, some payload, ack)) :
    row.pendingOutboxPayload = some (.json (.obj payload)) := by
  obtain ⟨eventText, -, hdata⟩ := Option.bind_eq_some_iff.1 h
  unfold pendingData at hdata
  cases hevent : decodePendingEvent eventText with
  | error x =>
      rw [hevent] at hdata
      cases hdata
  | ok event' =>
      cases htext : row.pendingOutboxPayload with
      | none =>
          rw [hevent, htext] at hdata
          cases hdata
      | some text =>
          rw [hevent, htext] at hdata
          cases text with
          | other s => cases hdata
          | json value =>
              cases value with
              | obj fields =>
                  cases hdata
                  rfl
              | _ => cases hdata

/-! ## One claim -/

/-- The event that stands for a recovered call: a new row, or the one that has
its key already. -/
def EventFor (db : Db) (event : GateEvent) (eventId : Nat)
    (events : Table EventRow String EventRow.idempotencyKey) : Prop :=
  db.events.insert (eventRow event) = some (eventId, events) ∨
  events = db.events ∧ ∃ key row, event.idempotencyKey = some key ∧
    db.events.byKey key = some (eventId, row)

theorem recoverRow_idempotencyKey (claim : ClaimRow) (eventId : Nat) : ∀ row : ClaimRow,
    some (recoverRow (recoveryReason claim) eventId row).idempotencyKey = some row.idempotencyKey :=
  fun _ => rfl

/-- The tables after one claim was recovered. -/
def recoveredDb (now : DateTime) (db : Db) (claimId : Nat) (row : ClaimRow) (eventId : Nat)
    (events : Table EventRow String EventRow.idempotencyKey) (payload : Option Fields)
    (commandAck : Option CommandAck) : Db :=
  { db with
    events
    outbox := outboxWith now { db with events } eventId payload
    acks := acksWith db.acks "failed" (some (recoveryReason row)) commandAck
    claims := db.claims.update (fun id row => id == claimId && row.state == .claimed)
      (recoverRow (recoveryReason row) eventId) (recoverRow_idempotencyKey row eventId) }

variable {db db' : Db} {now : DateTime}

theorem insertRecovered_ok (db : Db) (reason : String) (event : GateEvent) :
    ∃ eventId events, EventFor db (recoveredEvent reason event) eventId events ∧
      insertRecovered event (recoveredEvent reason event) db =
        (.ok eventId, { db with events }) := by
  cases hins : db.events.insert (eventRow (recoveredEvent reason event)) with
  | some p =>
      refine ⟨p.1, p.2, .inl hins, ?_⟩
      simp [insertRecovered, Txn.exceptIntegrityError, insertEvent, hins]
  | none =>
      obtain ⟨key, hkey, hrow⟩ := Table.insert_eq_none_iff.1 hins
      obtain ⟨⟨id, row⟩, hrow⟩ := Option.ne_none_iff_exists'.1 hrow
      have hkey' : event.idempotencyKey = some key := hkey
      refine ⟨id, db.events, .inr ⟨rfl, key, row, hkey', hrow⟩, ?_⟩
      simp [insertRecovered, Txn.exceptIntegrityError, insertEvent, hins, hkey', Txn.bind_run, hrow]

/-- A claim is skipped, or closed with an event. -/
theorem recoverClaim_cases (now : DateTime) (claimId : Nat) (row : ClaimRow) (db : Db) :
    (pendingOf row = none ∧ recoverClaim now claimId row db = (.ok 0, db)) ∨
    (∃ event payload commandAck eventId events,
      pendingOf row = some (event, payload, commandAck) ∧
      EventFor db (recoveredEvent (recoveryReason row) event) eventId events ∧
      recoverClaim now claimId row db =
        (.ok 1, recoveredDb now db claimId row eventId events payload commandAck)) := by
  unfold recoverClaim pendingOf
  cases hpending : row.pendingEvent with
  | none => exact .inl ⟨rfl, rfl⟩
  | some eventText =>
      cases hdata : pendingData eventText row with
      | error x =>
          left
          simp [hdata, Except.toOption, skippable_pendingData _ _ x hdata]
      | ok data =>
          obtain ⟨event, payload, commandAck⟩ := data
          obtain ⟨eventId, events, hevent, hrun⟩ :=
            insertRecovered_ok db (recoveryReason row) event
          refine .inr ⟨event, payload, commandAck, eventId, events, ?_, hevent, ?_⟩
          · simp [hdata, Except.toOption]
          · simp [hdata, Txn.bind_run, hrun, recoveredDb, updateClaims]

/-! ## The loop -/

/-- One round of the loop. -/
def RecoverStep (now : DateTime) (claimId : Nat) (row : ClaimRow) (db db' : Db) : Prop :=
  (pendingOf row = none ∧ db' = db) ∨
  ∃ event payload commandAck eventId events,
    pendingOf row = some (event, payload, commandAck) ∧
    EventFor db (recoveredEvent (recoveryReason row) event) eventId events ∧
    db' = recoveredDb now db claimId row eventId events payload commandAck

theorem recoverClaim_step (now : DateTime) (claimId : Nat) (row : ClaimRow) (db : Db) :
    ∃ n db', recoverClaim now claimId row db = (.ok n, db') ∧
      RecoverStep now claimId row db db' := by
  rcases recoverClaim_cases now claimId row db with
    ⟨hnone, hrun⟩ | ⟨event, payload, ack, eventId, events, hpending, hevent, hrun⟩
  · exact ⟨0, db, hrun, .inl ⟨hnone, rfl⟩⟩
  · exact ⟨1, _, hrun, .inr ⟨event, payload, ack, eventId, events, hpending, hevent, rfl⟩⟩

/-- The induction over the loop.  `G` is an invariant of the tables, `Pre` what a
claim still to do has and `Done` what a claim has that was done.  Neither may be
lost while another claim is recovered. -/
theorem recoverClaims_rule {G : Db → Prop} {Pre Done : Nat → ClaimRow → Db → Prop}
    (hstep : ∀ id row db db', G db → Pre id row db → RecoverStep now id row db db' →
      G db' ∧ Done id row db')
    (hpre : ∀ id row db db' i r, G db → Pre id row db → RecoverStep now id row db db' → i ≠ id →
      Pre i r db → Pre i r db')
    (hdone : ∀ id row db db' i r, G db → Pre id row db → RecoverStep now id row db db' → i ≠ id →
      Done i r db → Done i r db')
    (rows : List (Nat × ClaimRow)) (db : Db) (hnd : (rows.map Prod.fst).Nodup) (hG : G db)
    (hrows : ∀ p ∈ rows, Pre p.1 p.2 db) :
    ∃ n db', recoverClaims now rows db = (.ok n, db') ∧ G db' ∧
      (∀ p ∈ rows, Done p.1 p.2 db') ∧
      ∀ i r, i ∉ rows.map Prod.fst → Done i r db → Done i r db' := by
  induction rows generalizing db with
  | nil => exact ⟨0, db, rfl, hG, by simp, fun _ _ _ h => h⟩
  | cons p rest ih =>
      rw [List.map_cons, List.nodup_cons] at hnd
      have hp := hrows p (by simp)
      obtain ⟨n, db₁, hrun, hs⟩ := recoverClaim_step now p.1 p.2 db
      obtain ⟨hG₁, hdone₁⟩ := hstep _ _ _ _ hG hp hs
      have hne : ∀ q ∈ rest, q.1 ≠ p.1 := fun q hq h =>
        hnd.1 (h ▸ List.mem_map_of_mem hq)
      obtain ⟨m, db₂, hrest, hG₂, hdone₂, hkept⟩ := ih db₁ hnd.2 hG₁ fun q hq =>
        hpre _ _ _ _ _ _ hG hp hs (hne q hq) (hrows q (by simp [hq]))
      refine ⟨n + m, db₂, ?_, hG₂, ?_, ?_⟩
      · simp [recoverClaims, Txn.bind_run, hrun, hrest]
      · intro q hq
        rcases List.mem_cons.1 hq with rfl | hq
        · exact hkept _ _ hnd.1 hdone₁
        · exact hdone₂ q hq
      · intro i r hi h
        rw [List.map_cons, List.mem_cons, not_or] at hi
        exact hkept i r hi.2 (hdone _ _ _ _ _ _ hG hp hs hi.1 h)

/-- The rule for the whole of recovery, up to the release of the outbox. -/
theorem recover_rule (now : DateTime) (G : Db → Prop) (Pre Done : Nat → ClaimRow → Db → Prop)
    (hstep : ∀ id row db db', G db → Pre id row db → RecoverStep now id row db db' →
      G db' ∧ Done id row db')
    (hpre : ∀ id row db db' i r, G db → Pre id row db → RecoverStep now id row db db' → i ≠ id →
      Pre i r db → Pre i r db')
    (hdone : ∀ id row db db' i r, G db → Pre id row db → RecoverStep now id row db db' → i ≠ id →
      Done i r db → Done i r db')
    (db : Db) (hG : G db)
    (hrows : ∀ i row, db.claims.find? i = some row → row.state = .claimed →
      row.pendingEvent.isSome → Pre i row db) :
    ∃ n db', recoverInterruptedActuations now db = (.ok n, releaseAll db') ∧ G db' ∧
      ∀ i row, db.claims.find? i = some row → row.state = .claimed →
        row.pendingEvent.isSome → Done i row db' := by
  have hnd : ((interrupted db).map Prod.fst).Nodup :=
    db.claims.ids.sublist (List.filter_sublist.map _)
  have hmem : ∀ p ∈ interrupted db, Pre p.1 p.2 db := by
    intro p hp
    obtain ⟨hmem, hsel⟩ := List.mem_filter.1 hp
    simp only [Bool.and_eq_true, beq_iff_eq] at hsel
    exact hrows _ _ (Table.find?_eq_some_iff.2 hmem) hsel.1 hsel.2
  obtain ⟨n, db', hrun, hG', hdone', -⟩ :=
    recoverClaims_rule hstep hpre hdone (interrupted db) db hnd hG hmem
  refine ⟨n, db', ?_, hG', ?_⟩
  · simp [recoverInterruptedActuations, Txn.transaction, Txn.bind_run, hrun]
  · intro i row hrow hstate hpending
    refine hdone' (i, row) (List.mem_filter.2 ⟨Table.find?_eq_some_iff.1 hrow, ?_⟩)
    simp [hstate, hpending]

/-! ## The claims and events after recovery -/

/-- What one round does to the claims. -/
theorem RecoverStep.claims {id : Nat} {row : ClaimRow} (h : RecoverStep now id row db db')
    (hrow : db.claims.find? id = some row) (hstate : row.state = .claimed) :
    (∀ i, i ≠ id → db'.claims.find? i = db.claims.find? i) ∧
    ((pendingOf row = none ∧ db'.claims.find? id = some row) ∨
      ∃ event payload commandAck eventId e,
        pendingOf row = some (event, payload, commandAck) ∧
        db'.claims.find? id = some (recoverRow (recoveryReason row) eventId row) ∧
        db'.events.find? eventId = some e ∧ e.idempotencyKey = event.idempotencyKey) := by
  rcases h with ⟨hnone, rfl⟩ | ⟨event, payload, ack, eventId, events, hpending, hevent, rfl⟩
  · exact ⟨fun _ _ => rfl, .inl ⟨hnone, hrow⟩⟩
  · have hfind := @find?_update_id db.claims (fun i row => i == id && row.state == .claimed)
      (recoverRow (recoveryReason row) eventId) (fun _ => rfl) id row hrow (by simp [hstate])
      (fun i r hi => by simp [hi])
    refine ⟨fun i hi => (hfind i).trans (if_neg hi), .inr ?_⟩
    have hself := (hfind id).trans (if_pos rfl)
    rcases hevent with hins | ⟨rfl, key, e, hkey, he⟩
    · exact ⟨event, payload, ack, eventId, _, hpending, hself,
        (Table.find?_insert hins eventId).trans (if_pos rfl), rfl⟩
    · obtain ⟨hfound, hk⟩ := Table.byKey_eq_some_iff.1 he
      exact ⟨event, payload, ack, eventId, e, hpending, hself, hfound, hk.trans hkey.symm⟩

/-- Events are only added. -/
theorem RecoverStep.events {id : Nat} {row : ClaimRow} (h : RecoverStep now id row db db') :
    db.events.Extends db'.events := by
  rcases h with ⟨-, rfl⟩ | ⟨_, _, _, _, _, -, hevent, rfl⟩
  · exact Table.Extends.refl _
  · rcases hevent with hins | ⟨rfl, -⟩
    · exact Table.Extends.of_insert hins
    · exact Table.Extends.refl _

/-- What a recovery does to a claim: nothing, or it closes it. -/
def RowRecovers (db' : Db) (i : Nat) (row : ClaimRow) : Prop :=
  ((row.state = .finalized ∨ pendingOf row = none) ∧ db'.claims.find? i = some row) ∨
  row.state = .claimed ∧ ∃ event payload commandAck eventId e,
    pendingOf row = some (event, payload, commandAck) ∧
    db'.claims.find? i = some (recoverRow (recoveryReason row) eventId row) ∧
    db'.events.find? eventId = some e ∧ e.idempotencyKey = event.idempotencyKey

/-- What a recovery does to the claims and events. -/
structure Recovers (db db' : Db) : Prop where
  events : db.events.Extends db'.events
  monotonic : db'.monotonic = db.monotonic
  absent : ∀ i, db.claims.find? i = none → db'.claims.find? i = none
  row : ∀ i row, db.claims.find? i = some row → RowRecovers db' i row

/-- A claim that recovery selects. -/
def Selected (db : Db) (i : Nat) (row : ClaimRow) : Prop :=
  db.claims.find? i = some row ∧ row.state = .claimed ∧ row.pendingEvent.isSome

/-- The part of `Recovers` that holds all through the loop. -/
structure Recovering (db db' : Db) : Prop where
  events : db.events.Extends db'.events
  monotonic : db'.monotonic = db.monotonic
  others : ∀ i, (∀ row, ¬ Selected db i row) → db'.claims.find? i = db.claims.find? i

/-- A claim that the loop has not reached. -/
def Waiting (db : Db) (i : Nat) (row : ClaimRow) (db' : Db) : Prop :=
  Selected db i row ∧ db'.claims.find? i = some row

theorem RowRecovers.step {id i : Nat} {row r : ClaimRow} {db db' : Db}
    (hs : RecoverStep now id row db db') (hrow : db.claims.find? id = some row)
    (hstate : row.state = .claimed) (hi : i ≠ id) (h : RowRecovers db i r) :
    RowRecovers db' i r := by
  have hsame := (hs.claims hrow hstate).1 i hi
  rcases h with ⟨hkept, hfind⟩ | ⟨hclaimed, event, payload, ack, eventId, e, hp, hfind, he, hk⟩
  · exact .inl ⟨hkept, hsame.trans hfind⟩
  · exact .inr ⟨hclaimed, event, payload, ack, eventId, e, hp, hsame.trans hfind,
      hs.events _ _ he, hk⟩

theorem Recovering.step {id : Nat} {row : ClaimRow} {db₀ db db' : Db}
    (h : Recovering db₀ db) (hw : Waiting db₀ id row db) (hs : RecoverStep now id row db db') :
    Recovering db₀ db' where
  events := h.events.trans hs.events
  monotonic := by
    rcases hs with ⟨-, rfl⟩ | ⟨_, _, _, _, _, -, -, rfl⟩ <;> exact h.monotonic
  others i hi := by
    have hne : i ≠ id := by
      rintro rfl
      exact hi row hw.1
    rw [(hs.claims hw.2 hw.1.2.1).1 i hne]
    exact h.others i hi

/-- Recovery returns, and does that. -/
theorem recover_recovers (now : DateTime) (db : Db) :
    ∃ n db', recoverInterruptedActuations now db = (.ok n, db') ∧ Recovers db db' := by
  obtain ⟨n, db', hrun, hG, hdone⟩ := recover_rule now (Recovering db) (Waiting db)
    (fun i row db' => RowRecovers db' i row)
    (fun id row db₁ db₂ hG hw hs => by
      refine ⟨hG.step hw hs, ?_⟩
      rcases (hs.claims hw.2 hw.1.2.1).2 with ⟨hnone, hfind⟩ | hclosed
      · exact .inl ⟨.inr hnone, hfind⟩
      · exact .inr ⟨hw.1.2.1, hclosed⟩)
    (fun id row db₁ db₂ i r _ hw hs hi h =>
      ⟨h.1, ((hs.claims hw.2 hw.1.2.1).1 i hi).trans h.2⟩)
    (fun id row db₁ db₂ i r _ hw hs hi h => h.step hs hw.2 hw.1.2.1 hi)
    db ⟨Table.Extends.refl _, rfl, fun _ _ => rfl⟩
    (fun i row hrow hstate hpending => ⟨⟨hrow, hstate, hpending⟩, hrow⟩)
  refine ⟨n, _, hrun, hG.events, hG.monotonic, fun i hi => ?_, fun i row hrow => ?_⟩
  · have hnone : ∀ row, ¬ Selected db i row := by
      rintro row ⟨hrow, -⟩
      rw [hi] at hrow
      cases hrow
    exact (hG.others i hnone).trans hi
  · by_cases hsel : Selected db i row
    · exact hdone i row hsel.1 hsel.2.1 hsel.2.2
    · have hnone : ∀ r, ¬ Selected db i r := by
        rintro r hr
        have : row = r := Option.some.inj (hrow.symm.trans hr.1)
        exact hsel (this ▸ hr)
      refine .inl ⟨?_, (hG.others i hnone).trans hrow⟩
      cases hstate : row.state with
      | finalized => exact .inl rfl
      | claimed =>
          right
          cases hp : row.pendingEvent with
          | none => simp [pendingOf, hp]
          | some t => exact absurd ⟨hrow, hstate, by simp [hp]⟩ hsel

end LocalStore

end GateController

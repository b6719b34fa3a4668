import GateController.Delivery.Operations

/-!
# What the operations do to a row

An operation of the delivery leaves every outbox row where it is.  It may put a
trace into a payload or take it out, and whenever it puts one in, the trace is
the one that is stored afterwards.  It may bind a controller, or complete the
row.  A completed row changes only when its trace is purged.

`RowChange` lists these changes for one row, with the stored trace of its event
before and after, and `Evolves` says that every row changed in one of these ways.
What the rest of the development knows about an operation is one of its
`_ensures` lemmas.
-/

namespace GateController

open Data Effects LocalStore

namespace Delivery

variable {t t' : Tables} {op : DeliveryOp}

/-! ## Looking rows up after a statement -/

@[simp] theorem find?_updateOutbox {itemId : Nat} {cond : OutboxRow → Bool}
    {f : OutboxRow → OutboxRow} {hf : ∀ row, some (f row).eventId = some row.eventId} (i : Nat) :
    (updateOutbox itemId cond f hf t).db.outbox.find? i =
      (t.db.outbox.find? i).map fun row => if i == itemId && cond row then f row else row :=
  Table.find?_update i

@[simp] theorem traceOf_updateOutbox {itemId : Nat} {cond : OutboxRow → Bool}
    {f : OutboxRow → OutboxRow} {hf : ∀ row, some (f row).eventId = some row.eventId}
    (eventId : Nat) : traceOf (updateOutbox itemId cond f hf t) eventId = traceOf t eventId := rfl

@[simp] theorem db_writeTrace {eventId : Nat} {telemetry : Fields} :
    (writeTrace eventId telemetry t).db = t.db := rfl

/-- A trace can only be written over one that is stored. -/
theorem traceOf_writeTrace {eventId : Nat} {telemetry : Fields} (e : Nat) :
    traceOf (writeTrace eventId telemetry t) e =
      if e = eventId then (traceOf t e).map fun _ => .json (.obj telemetry) else traceOf t e := by
  unfold traceOf writeTrace
  rw [Table.byKey_update]
  cases h : t.telemetry.byKey e with
  | none => simp
  | some p =>
      obtain ⟨i, row⟩ := p
      have hrow : row.eventId = e := by simpa using (Table.byKey_eq_some_iff.1 h).2
      by_cases he : e = eventId
      · simp [hrow, he]
      · simp [hrow, he]

/-- An event has one row. -/
theorem id_eq_of_event {i j : Nat} {row row' : OutboxRow} (hi : t.db.outbox.find? i = some row)
    (hj : t.db.outbox.find? j = some row') (h : row.eventId = row'.eventId) : i = j :=
  t.db.outbox.keys (i, row) (Table.find?_eq_some_iff.1 hi) (j, row') (Table.find?_eq_some_iff.1 hj)
    row'.eventId (congrArg some h) rfl

/-! ## The changes -/

/-- The object that an operation binds a row from. -/
def SelectedFor (op : DeliveryOp) (id : Nat) (row : OutboxRow) (controllerId : String)
    (selected : Fields) : Prop :=
  match op with
  | .rebindRows c rows =>
      c = controllerId ∧ ∃ text, (id, text) ∈ rows ∧ bindSource text = .ok selected
  | .bindPendingOutboxController c =>
      c = controllerId ∧ row.completedAt = none ∧ bindSource row.payload = .ok selected
  | _ => False

/-- What can become of a row.  `trace` is the stored trace of its event, and
`trace'` what it is afterwards. -/
inductive RowChange (op : DeliveryOp) (id : Nat) (trace trace' : Option JsonText)
    (row : OutboxRow) : OutboxRow → Prop where
  /-- Nothing, as far as the delivery goes. -/
  | kept (h : trace' = trace) : RowChange op id trace trace' row row
  /-- The payload got the trace that is stored. -/
  | traced {payload base telemetry : Fields} {state : SendState}
      (hstate : state = row.sendState ∨ state = .telemetryReady) (hpending : row.completedAt = none)
      (hpayload : row.payload = .json (.obj payload)) (hbase : content base = content payload)
      (htrace : trace' = some (.json (.obj telemetry))) :
      RowChange op id trace trace' row
        { withPayload (GateController.traced base telemetry) row with sendState := state }
  /-- The payload lost its trace. -/
  | untraced {payload : Fields} (hpending : row.completedAt = none)
      (hpayload : row.payload = .json (.obj payload)) (htrace : trace' = trace) :
      RowChange op id trace trace' row (withPayload (GateController.untraced payload) row)
  /-- The row was completed with a payload. -/
  | completed {payload : Fields} {completedAt : DateTime} {prepared : Option Fields}
      (hop : op = .completeOutboxItem id completedAt prepared) (hpending : row.completedAt = none)
      (hpayload : prepared = some payload ∨ prepared = none) :
      RowChange op id trace trace' row
        { withPayload payload row with completedAt := some (timestamp completedAt) }
  /-- The row was completed before. -/
  | settled (hdone : row.completedAt ≠ none) : RowChange op id trace trace' row row
  /-- The trace of a completed row was purged. -/
  | purged {payload : Fields} {cutoff : DateTime} (hop : op = .purgeDeliveredTelemetry cutoff)
      (hdone : row.completedAt ≠ none) (hpayload : row.payload = .json (.obj payload)) :
      RowChange op id trace trace' row (withPayload (GateController.untraced payload) row)
  /-- The row was bound to a controller, by what was selected for it. -/
  | bound {payload selected : Fields} {controllerId : String}
      (hop : SelectedFor op id row controllerId selected)
      (hbound : boundPayload controllerId selected = some payload) (htrace : trace' = trace) :
      RowChange op id trace trace' row (withPayload payload row)

/-- Every row changed in one of these ways, and nothing else did but the traces. -/
structure Evolves (op : DeliveryOp) (t t' : Tables) : Prop where
  others : t'.db = { t.db with outbox := t'.db.outbox }
  absent : ∀ id, t.db.outbox.find? id = none → t'.db.outbox.find? id = none
  row : ∀ id row, t.db.outbox.find? id = some row → ∃ row', t'.db.outbox.find? id = some row' ∧
    RowChange op id (traceOf t row.eventId) (traceOf t' row.eventId) row row'

theorem Evolves.refl (op : DeliveryOp) (t : Tables) : Evolves op t t :=
  ⟨rfl, fun _ h => h, fun _ row h => ⟨row, h, .kept rfl⟩⟩

theorem RowChange.eventId {id : Nat} {trace trace' : Option JsonText} {row row' : OutboxRow}
    (h : RowChange op id trace trace' row row') : row'.eventId = row.eventId := by
  cases h <;> rfl

/-- One row was changed, and no trace but that of its event. -/
theorem Evolves.of_update {itemId : Nat} {cond : OutboxRow → Bool} {f : OutboxRow → OutboxRow}
    {hf : ∀ row, some (f row).eventId = some row.eventId} {row : OutboxRow} {t₁ : Tables}
    (hrow : t.db.outbox.find? itemId = some row) (hdb : t₁.db = t.db)
    (htrace : ∀ e, e ≠ row.eventId → traceOf t₁ e = traceOf t e) (hcond : cond row = true)
    (hchange : RowChange op itemId (traceOf t row.eventId) (traceOf t₁ row.eventId) row (f row)) :
    Evolves op t (updateOutbox itemId cond f hf t₁) where
  others := by rw [show (updateOutbox itemId cond f hf t₁).db =
    { t₁.db with outbox := (updateOutbox itemId cond f hf t₁).db.outbox } from rfl, hdb]
  absent i hi := by rw [find?_updateOutbox, hdb, hi]; rfl
  row i r hr := by
    rw [find?_updateOutbox, hdb, hr, Option.map_some]
    refine ⟨_, rfl, ?_⟩
    by_cases hi : i = itemId
    · subst hi
      cases hr.symm.trans hrow
      simpa [hcond] using hchange
    · have hne : r.eventId ≠ row.eventId := fun h => hi (id_eq_of_event hr hrow h)
      have hbeq : (i == itemId) = false := by simp [hi]
      simp only [hbeq, Bool.false_and, Bool.false_eq_true, if_false, traceOf_updateOutbox]
      exact .kept (htrace _ hne)

/-! ## Attempts -/

/-- What the payload of an attempt has to do with the row. -/
def AttemptOf (t : Tables) (itemId : Nat) (p : Fields) : Prop :=
  ∃ row payload, t.db.outbox.find? itemId = some row ∧ row.completedAt = none ∧
    row.payload = .json (.obj payload) ∧ content p = content payload

/-- The object in a row whose payload is read. -/
theorem loads_eq_ok {text : JsonText} {value : Json} (h : loads text = .ok value) :
    text = .json value := by
  cases text with
  | json v => cases h; rfl
  | other s => cases h

theorem loads_v2_eq_ok {text : JsonText} {fallback : Fields}
    (h : (loads text >>= v2OutboxPayload) = .ok fallback) :
    ∃ payload, text = .json (.obj payload) ∧ fallback = GateController.untraced payload := by
  cases text with
  | other s => cases h
  | json value =>
      cases value with
      | obj payload => exact ⟨payload, rfl, (Except.ok.inj h).symm⟩
      | _ => cases h

theorem pendingItem_eq_some {itemId : Nat} {row : OutboxRow} (h : pendingItem t itemId = some row) :
    t.db.outbox.find? itemId = some row ∧ row.completedAt = none := by
  obtain ⟨hrow, hpending⟩ := Option.filter_eq_some_iff.1 h
  exact ⟨hrow, by simpa [pending] using hpending⟩

theorem sendable_pending {row : OutboxRow} (h : sendable row = true) : row.completedAt = none := by
  have := (Bool.and_eq_true _ _ ▸ h).1
  simpa [pending] using this

theorem pending_eq_true {row : OutboxRow} (h : row.completedAt = none) : pending row = true := by
  simp [pending, h]

/-- The trace of an event is rewritten, and with it the row. -/
theorem evolves_retraced {itemId : Nat} {row : OutboxRow} {payload base telemetry : Fields}
    {stored : JsonText} {hf : ∀ r, some (withPayload (GateController.traced base telemetry) r).eventId =
      some r.eventId} (op : DeliveryOp) (hrow : t.db.outbox.find? itemId = some row)
    (hpending : row.completedAt = none) (hpayload : row.payload = .json (.obj payload))
    (hbase : content base = content payload) (hstored : traceOf t row.eventId = some stored) :
    Evolves op t (updateOutbox itemId pending
      (withPayload (GateController.traced base telemetry)) hf (writeTrace row.eventId telemetry t)) := by
  refine Evolves.of_update hrow rfl ?_ (pending_eq_true hpending) ?_
  · intro e he
    rw [traceOf_writeTrace, if_neg he]
  · refine .traced (.inl rfl) hpending hpayload hbase ?_
    rw [traceOf_writeTrace, if_pos rfl, hstored]
    rfl

/-- What an attempt comes to: an exception, nothing, the payload without a trace, or the
payload with the trace as it is stored from now on. -/
inductive Attempt (t : Tables) (itemId : Nat) (attemptedAt : DateTime) :
    Except Exc (Option Fields) → Tables → Prop where
  | raised (x : Exc) : Attempt t itemId attemptedAt (.error x) t
  | absent (hnone : (t.db.outbox.find? itemId).filter sendable = none) :
      Attempt t itemId attemptedAt (.ok none) t
  | fallback {row : OutboxRow} {payload : Fields} (hrow : t.db.outbox.find? itemId = some row)
      (hpending : row.completedAt = none) (hpayload : row.payload = .json (.obj payload)) :
      Attempt t itemId attemptedAt (.ok (some (GateController.untraced payload))) t
  | rewritten {row : OutboxRow} {payload telemetry : Fields} {stored : JsonText}
      (hrow : t.db.outbox.find? itemId = some row) (hpending : row.completedAt = none)
      (hpayload : row.payload = .json (.obj payload))
      (hstored : traceOf t row.eventId = some stored)
      (hsending : sendingTelemetry stored row.createdAt attemptedAt = .ok telemetry) :
      Attempt t itemId attemptedAt
        (.ok (some (GateController.traced (GateController.untraced payload) telemetry)))
        (updateOutbox itemId pending
          (withPayload (GateController.traced (GateController.untraced payload) telemetry))
          (fun _ => rfl) (writeTrace row.eventId telemetry t))

theorem rewriteForAttempt_ensures {itemId : Nat} {attemptedAt : DateTime} {row : OutboxRow}
    {payload : Fields} (hrow : t.db.outbox.find? itemId = some row)
    (hpending : row.completedAt = none) (hpayload : row.payload = .json (.obj payload)) :
    (rewriteForAttempt itemId row (GateController.untraced payload) attemptedAt).Ensures t
      fun r t' => ∀ p, r = .ok p → Attempt t itemId attemptedAt (.ok (some p)) t' := by
  refine Stmt.Ensures.bind (R := fun r t₁ => t₁ = t ∧ ∀ a, r = .ok a → a = traceOf t row.eventId)
    (Stmt.Ensures.statement ⟨rfl, fun _ h => by cases h⟩ ⟨rfl, fun _ h => by cases h; rfl⟩)
    ?_ fun _ _ _ _ h => by cases h
  rintro stored? t₁ ⟨rfl, hstored⟩
  rw [hstored stored? rfl]
  cases htrace : traceOf t₁ row.eventId with
  | none =>
      refine Stmt.Ensures.marked (fun _ h => by cases h) (Stmt.Ensures.pure ?_)
      intro p hp
      cases hp
      exact .fallback hrow hpending hpayload
  | some stored =>
      refine Stmt.Ensures.bind (R := fun r t₂ => t₂ = t₁ ∧
        r = sendingTelemetry stored row.createdAt attemptedAt)
        (Stmt.Ensures.ofExcept ⟨rfl, rfl⟩) ?_ fun _ _ _ _ h => by cases h
      rintro telemetry t₂ ⟨rfl, hsending⟩
      refine Stmt.Ensures.bind (R := fun r t₃ => ∀ a, r = .ok a →
        t₃ = writeTrace row.eventId telemetry t₂)
        (Stmt.Ensures.statement (fun _ h => by cases h) fun _ _ => rfl) ?_
        fun _ _ _ _ h => by cases h
      intro _ t₃ ht₃
      rw [ht₃ _ rfl]
      refine Stmt.Ensures.bind (R := fun r t₄ => ∀ a, r = .ok a →
        t₄ = updateOutbox itemId pending (withPayload
          (GateController.traced (GateController.untraced payload) telemetry))
          (fun _ => rfl) (writeTrace row.eventId telemetry t₂))
        (Stmt.Ensures.statement (fun _ h => by cases h) fun _ _ => rfl) ?_
        fun _ _ _ _ h => by cases h
      intro _ t₄ ht₄
      rw [ht₄ _ rfl]
      refine Stmt.Ensures.marked (fun _ h => by cases h) (Stmt.Ensures.pure ?_)
      intro p hp
      cases hp
      exact .rewritten hrow hpending hpayload htrace hsending.symm

/-- Whatever the rewrite raises, the tables are as they were and the fallback is returned. -/
theorem prepareOutboxAttempt_cases (itemId : Nat) (attemptedAt : DateTime) (t : Tables) :
    (prepareOutboxAttempt itemId attemptedAt).Ensures t (Attempt t itemId attemptedAt) := by
  refine Stmt.Ensures.restoring (R := fun r t' => ∀ a, r = .ok a →
    Attempt t itemId attemptedAt (.ok a) t') ?_ (fun a t' h => h a rfl) fun x _ _ => .raised x
  refine Stmt.Ensures.marked (fun _ h => by cases h) ?_
  refine Stmt.Ensures.bind (R := fun r t' => t' = t ∧
    ∀ a, r = .ok a → a = (t.db.outbox.find? itemId).filter sendable)
    (Stmt.Ensures.statement ⟨rfl, fun _ h => by cases h⟩ ⟨rfl, fun _ h => by cases h; rfl⟩)
    ?_ fun _ _ _ _ h => by cases h
  rintro row? t' ⟨rfl, hrow?⟩
  rw [hrow? row? rfl]
  cases hsel : (t'.db.outbox.find? itemId).filter sendable with
  | none =>
      refine Stmt.Ensures.marked (fun _ h => by cases h) (Stmt.Ensures.pure ?_)
      intro a ha
      cases ha
      exact .absent hsel
  | some row =>
      obtain ⟨hrow, hsendable⟩ := Option.filter_eq_some_iff.1 hsel
      have hpending := sendable_pending hsendable
      refine Stmt.Ensures.bind (R := fun r t'' => t'' = t' ∧
        r = (loads row.payload >>= v2OutboxPayload))
        (Stmt.Ensures.ofExcept ⟨rfl, rfl⟩) ?_ fun _ _ _ _ h => by cases h
      rintro fallback t'' ⟨rfl, hfallback⟩
      obtain ⟨payload, hpayload, rfl⟩ := loads_v2_eq_ok hfallback.symm
      refine Stmt.Ensures.bind (R := fun r t₁ =>
        (∃ p, r = .ok (.ok p) ∧ Attempt t'' itemId attemptedAt (.ok (some p)) t₁) ∨
        ∃ x, r = .ok (.error x) ∧ t₁ = t'') (Stmt.Ensures.attempt (Stmt.Ensures.restoring
          (rewriteForAttempt_ensures hrow hpending hpayload) ?_ ?_)) ?_ ?_
      · intro p t₁ h
        exact .inl ⟨p, rfl, h p rfl⟩
      · intro x t₁ _
        exact .inr ⟨x, rfl, rfl⟩
      · rintro b t₁ (⟨p, heq, hp⟩ | ⟨x, heq, rfl⟩)
        · cases heq
          refine Stmt.Ensures.pure ?_
          rintro a ⟨⟩
          exact hp
        · cases heq
          refine Stmt.Ensures.pure ?_
          rintro a ⟨⟩
          exact .fallback hrow hpending hpayload
      · rintro x t₁ (⟨p, heq, -⟩ | ⟨y, heq, -⟩)
        · cases heq
        · cases heq

theorem prepareOutboxAttempt_ensures (itemId : Nat) (attemptedAt : DateTime) (t : Tables) :
    (prepareOutboxAttempt itemId attemptedAt).Ensures t fun r t' =>
      Evolves (.prepareOutboxAttempt itemId attemptedAt) t t' ∧
      ∀ p, r = .ok (some p) → AttemptOf t itemId p := by
  refine (prepareOutboxAttempt_cases itemId attemptedAt t).mono fun r t' h => ?_
  cases h with
  | raised x => exact ⟨.refl _ t, fun p h => by cases h⟩
  | absent hnone => exact ⟨.refl _ t, fun p h => by cases h⟩
  | @fallback row payload hrow hpending hpayload =>
      refine ⟨.refl _ t, ?_⟩
      rintro p ⟨⟩
      exact ⟨row, payload, hrow, hpending, hpayload, content_untraced payload⟩
  | @rewritten row payload telemetry stored hrow hpending hpayload hstored hsending =>
      refine ⟨evolves_retraced _ hrow hpending hpayload (content_untraced payload) hstored, ?_⟩
      rintro p ⟨⟩
      refine ⟨row, payload, hrow, hpending, hpayload, ?_⟩
      rw [content_traced, content_untraced]

/-! ## The end of an attempt -/

/-- The payload a row ends up with, when it was not handed over. -/
def SettledPayload (t t' : Tables) (row : OutboxRow) (p : Fields) : Prop :=
  ∃ payload, row.payload = .json (.obj payload) ∧
    (p = GateController.untraced payload ∧ traceOf t' row.eventId = traceOf t row.eventId ∨
      ∃ telemetry, p = GateController.traced (GateController.untraced payload) telemetry ∧
        traceOf t' row.eventId = some (.json (.obj telemetry)))

/-- What `settledPayload` comes to. -/
structure Settles (t t' : Tables) (row : OutboxRow) (prepared : Option Fields) (p : Fields) : Prop where
  db : t'.db = t.db
  others : ∀ e, e ≠ row.eventId → traceOf t' e = traceOf t e
  payload : prepared = some p ∨ prepared = none ∧ SettledPayload t t' row p

/-- What the end of an attempt is written into: the trace that was handed over, or the one
that is stored. -/
def settledSource (stored : JsonText) (prepared : Option Fields) : JsonText :=
  match prepared.bind fun payload => Fields.get? payload "telemetry" with
  | none => stored
  | some .null => stored
  | some value => .json value

/-- What `settledPayload` does: nothing to the trace, or it sets the end of the attempt. -/
inductive Settling (t : Tables) (row : OutboxRow) (state : String) (completedAt : Option DateTime)
    (prepared : Option Fields) : Fields → Tables → Prop where
  | kept {payload : Fields} (hpayload : prepared = none → row.payload = .json (.obj payload)) :
      Settling t row state completedAt prepared
        (prepared.getD (GateController.untraced payload)) t
  | rewritten {payload telemetry : Fields} {stored : JsonText}
      (hpayload : prepared = none → row.payload = .json (.obj payload))
      (hcarries : prepared.all carriesTrace = true)
      (hstored : traceOf t row.eventId = some stored)
      (hsettled : settledTelemetry (settledSource stored prepared) state completedAt =
        .ok telemetry) :
      Settling t row state completedAt prepared
        (prepared.getD (GateController.traced (GateController.untraced payload) telemetry))
        (writeTrace row.eventId telemetry t)

theorem Settling.settles {row : OutboxRow} {state : String} {completedAt : Option DateTime}
    {prepared : Option Fields} {p : Fields}
    (h : Settling t row state completedAt prepared p t') : Settles t t' row prepared p := by
  cases h with
  | @kept payload hpayload =>
      refine ⟨rfl, fun _ _ => rfl, ?_⟩
      cases prepared with
      | some q => exact .inl rfl
      | none => exact .inr ⟨rfl, payload, hpayload rfl, .inl ⟨rfl, rfl⟩⟩
  | @rewritten payload telemetry stored hpayload hcarries hstored hsettled =>
      refine ⟨rfl, fun e he => ?_, ?_⟩
      · rw [traceOf_writeTrace, if_neg he]
      · cases prepared with
        | some q => exact .inl rfl
        | none =>
            refine .inr ⟨rfl, payload, hpayload rfl, .inr ⟨telemetry, rfl, ?_⟩⟩
            rw [traceOf_writeTrace, if_pos rfl, hstored]
            rfl

theorem rewriteSettled_ensures (row : OutboxRow) (stored : JsonText) (state : String)
    (completedAt : Option DateTime) (prepared : Option Fields) {payload : Fields}
    (hpayload : prepared = none → row.payload = .json (.obj payload))
    (hcarries : prepared.all carriesTrace = true)
    (hstored : traceOf t row.eventId = some stored) :
    (rewriteSettled row stored state completedAt prepared
      (GateController.untraced payload)).Ensures t fun r t' =>
        ∀ p, r = .ok p → Settling t row state completedAt prepared p t' := by
  refine Stmt.Ensures.bind (R := fun r t₁ => t₁ = t ∧
    r = settledTelemetry (settledSource stored prepared) state completedAt)
    (Stmt.Ensures.ofExcept ⟨rfl, rfl⟩) ?_ fun _ _ _ _ h => by cases h
  rintro telemetry t₁ ⟨rfl, hsettled⟩
  refine Stmt.Ensures.bind (R := fun r t₂ => ∀ a, r = .ok a →
    t₂ = writeTrace row.eventId telemetry t₁)
    (Stmt.Ensures.statement (fun _ h => by cases h) fun _ _ => rfl) ?_ fun _ _ _ _ h => by cases h
  intro _ t₂ ht₂
  rw [ht₂ _ rfl]
  refine Stmt.Ensures.pure ?_
  rintro p ⟨⟩
  have hrewritten := Settling.rewritten hpayload hcarries hstored hsettled.symm
  cases prepared with
  | some q => exact hrewritten
  | none => exact hrewritten

theorem settledPayload_ensures (row : OutboxRow) (state : String) (completedAt : Option DateTime)
    (prepared : Option Fields) (t : Tables) :
    (settledPayload row state completedAt prepared).Ensures t fun r t' =>
      ∀ p, r = .ok p → Settling t row state completedAt prepared p t' := by
  unfold settledPayload
  refine Stmt.Ensures.bind (R := fun r t₁ => t₁ = t ∧ r = _) (Stmt.Ensures.ofExcept ⟨rfl, rfl⟩) ?_
    fun _ _ _ _ h => by cases h
  rintro value t₁ ⟨rfl, hvalue⟩
  refine Stmt.Ensures.bind (R := fun r t₂ => t₂ = t₁ ∧ r = v2OutboxPayload value)
    (Stmt.Ensures.ofExcept ⟨rfl, rfl⟩) ?_ fun _ _ _ _ h => by cases h
  rintro fallback t₂ ⟨rfl, hfallback⟩
  obtain ⟨payload, rfl, rfl⟩ : ∃ payload, value = .obj payload ∧
      fallback = GateController.untraced payload := by
    cases value with
    | obj payload => exact ⟨payload, rfl, Except.ok.inj hfallback⟩
    | _ => cases hfallback
  have hpayload : prepared = none → row.payload = .json (.obj payload) := by
    rintro rfl
    exact loads_eq_ok hvalue.symm
  -- Where nothing is rewritten, the payload is the one that was handed over, or loses its trace.
  have hsame : Settling t₂ row state completedAt prepared
      (prepared.getD (GateController.untraced payload)) t₂ := .kept hpayload
  refine Stmt.Ensures.bind (R := fun r t₃ => t₃ = t₂ ∧ ∀ a, r = .ok a → a = traceOf t₂ row.eventId)
    (Stmt.Ensures.statement ⟨rfl, fun _ h => by cases h⟩ ⟨rfl, fun _ h => by cases h; rfl⟩)
    ?_ fun _ _ _ _ h => by cases h
  rintro stored? t₃ ⟨rfl, hstored⟩
  rw [hstored stored? rfl]
  cases htrace : traceOf t₃ row.eventId with
  | none =>
      refine Stmt.Ensures.pure ?_
      rintro p ⟨⟩
      exact hsame
  | some stored =>
      dsimp only
      split
      · next hcarries =>
        refine Stmt.Ensures.bind (R := fun r t₄ =>
          (∀ p, r = .ok (.ok p) → Settling t₃ row state completedAt prepared p t₄) ∧
          ∀ y, r = .ok (.error y) → t₄ = t₃) (Stmt.Ensures.savepoint
            (rewriteSettled_ensures row stored state completedAt prepared hpayload hcarries htrace)
            ?_ ?_ ?_) ?_ fun _ _ _ _ h => by cases h
        · intro p t₄ h
          refine ⟨⟨?_, ?_⟩, ?_, ?_⟩
          · rintro q ⟨⟩
            exact h p rfl
          · rintro y ⟨⟩
          · rintro q ⟨⟩
          · rintro y ⟨⟩
        · intro y
          refine ⟨?_, ?_⟩
          · rintro p ⟨⟩
          · rintro z ⟨⟩
            rfl
        · refine ⟨?_, ?_⟩
          · rintro p ⟨⟩
          · rintro y ⟨⟩
        · intro b t₄ h
          cases b with
          | ok p =>
              refine Stmt.Ensures.pure ?_
              rintro q ⟨⟩
              exact h.1 _ rfl
          | error y =>
              cases h.2 _ rfl
              refine Stmt.Ensures.pure ?_
              rintro q ⟨⟩
              exact hsame
      · refine Stmt.Ensures.pure ?_
        rintro p ⟨⟩
        exact hsame

/-- How the end of an attempt is recorded: not at all, or in the row it is for. -/
inductive Recorded (t : Tables) (itemId : Nat) (state : String) (completedAt : Option DateTime)
    (prepared : Option Fields) : Tables → Prop where
  | kept : Recorded t itemId state completedAt prepared t
  | recorded {row : OutboxRow} {p : Fields} {t₁ : Tables}
      (hrow : t.db.outbox.find? itemId = some row) (hpending : row.completedAt = none)
      (hsettling : Settling t row state completedAt prepared p t₁) :
      Recorded t itemId state completedAt prepared (updateOutbox itemId pending
        (fun row => { withPayload p row with completedAt := completedAt.map timestamp })
        (fun _ => rfl) t₁)

theorem setOutboxDeliveryState_cases (itemId : Nat) (state : String)
    (completedAt : Option DateTime) (prepared : Option Fields) (t : Tables) :
    (setOutboxDeliveryState itemId state completedAt prepared).Ensures t fun _ t' =>
      Recorded t itemId state completedAt prepared t' := by
  refine Stmt.Ensures.transaction (R := fun r t' => ∀ a, r = .ok a →
    Recorded t itemId state completedAt prepared t') ?_ (fun a t' h => h a rfl) fun _ => .kept
  refine Stmt.Ensures.bind (R := fun r t₁ => t₁ = t ∧ ∀ a, r = .ok a → a = pendingItem t itemId)
    (Stmt.Ensures.statement ⟨rfl, fun _ h => by cases h⟩ ⟨rfl, fun _ h => by cases h; rfl⟩)
    ?_ fun _ _ _ _ h => by cases h
  rintro row? t₁ ⟨rfl, hrow?⟩
  rw [hrow? row? rfl]
  cases hitem : pendingItem t₁ itemId with
  | none => exact Stmt.Ensures.pure fun _ _ => .kept
  | some row =>
      obtain ⟨hrow, hpending⟩ := pendingItem_eq_some hitem
      refine Stmt.Ensures.bind (settledPayload_ensures row state completedAt prepared t₁) ?_
        fun _ _ _ _ h => by cases h
      intro p t₂ hp
      refine Stmt.Ensures.statement (fun _ h => by cases h) fun _ _ => ?_
      exact .recorded hrow hpending (hp p rfl)

/-- The end of an attempt changes the row it is for, or nothing. -/
theorem setOutboxDeliveryState_ensures (itemId : Nat) (state : String)
    (completedAt : Option DateTime) (prepared : Option Fields) (t : Tables)
    (hchange : ∀ t₁ row p, t.db.outbox.find? itemId = some row → row.completedAt = none →
      Settles t t₁ row prepared p → RowChange op itemId (traceOf t row.eventId)
        (traceOf t₁ row.eventId) row
        { withPayload p row with completedAt := completedAt.map timestamp }) :
    (setOutboxDeliveryState itemId state completedAt prepared).Ensures t fun _ t' =>
      Evolves op t t' := by
  refine (setOutboxDeliveryState_cases itemId state completedAt prepared t).mono fun _ t' h => ?_
  cases h with
  | kept => exact .refl _ t
  | @recorded row p t₂ hrow hpending hsettling =>
      have hsettles := hsettling.settles
      exact Evolves.of_update hrow hsettles.db hsettles.others (pending_eq_true hpending)
        (hchange t₂ row p hrow hpending hsettles)

theorem markOutboxRetry_ensures (itemId : Nat) (t : Tables) :
    (markOutboxRetry itemId).Ensures t fun _ t' => Evolves (.markOutboxRetry itemId) t t' := by
  refine setOutboxDeliveryState_ensures itemId _ none none t fun t₁ row p hrow hpending hp => ?_
  have hback : { withPayload p row with completedAt := none } = withPayload p row := by
    rw [← hpending]
    rfl
  rw [Option.map_none, hback]
  rcases hp.payload with h | ⟨-, payload, hpayload, ⟨rfl, htrace⟩ | ⟨telemetry, rfl, htrace⟩⟩
  · cases h
  · exact .untraced hpending hpayload htrace
  · exact .traced (.inl rfl) hpending hpayload (content_untraced payload) htrace

theorem completeOutboxItem_ensures (itemId : Nat) (completedAt : DateTime)
    (prepared : Option Fields) (t : Tables) :
    (completeOutboxItem itemId completedAt prepared).Ensures t fun _ t' =>
      Evolves (.completeOutboxItem itemId completedAt prepared) t t' :=
  setOutboxDeliveryState_ensures itemId _ (some completedAt) prepared t
    fun _ _ _ _ hpending hp => .completed rfl hpending (hp.payload.imp_right And.left)

/-! ## Attaching a trace -/

/-- A trace came to an event that has no row, or whose row is completed. -/
theorem Evolves.of_trace {t₁ : Tables} {eventId : Nat} (hdb : t₁.db = t.db)
    (htrace : ∀ e, e ≠ eventId → traceOf t₁ e = traceOf t e)
    (hdone : ∀ id row, t.db.outbox.find? id = some row → row.eventId = eventId →
      row.completedAt ≠ none) : Evolves op t t₁ where
  others := by rw [hdb]
  absent id h := by rw [hdb, h]
  row id row hrow := by
    refine ⟨row, by rw [hdb, hrow], ?_⟩
    by_cases he : row.eventId = eventId
    · exact .settled (hdone id row hrow he)
    · exact .kept (htrace _ he)

/-- What `promote` does: nothing where there is no row to send, or it puts the trace into the
row. -/
inductive Promoted (t : Tables) (eventId : Nat) (telemetry : Fields) : Tables → Prop where
  | absent (hrow : t.db.outbox.byKey eventId = none) : Promoted t eventId telemetry t
  | done {id : Nat} {row : OutboxRow} {value : Json}
      (hrow : t.db.outbox.byKey eventId = some (id, row)) (hpayload : row.payload = .json value)
      (hdone : row.completedAt ≠ none) : Promoted t eventId telemetry t
  | promoted {id : Nat} {row : OutboxRow} {payload : Fields}
      (hrow : t.db.outbox.byKey eventId = some (id, row))
      (hpayload : row.payload = .json (.obj payload)) (hpending : row.completedAt = none) :
      Promoted t eventId telemetry (updateOutbox id (fun _ => true)
        (fun row => OutboxRow.promote telemetry row payload) (fun _ => rfl) t)

theorem promote_cases (eventId : Nat) (telemetry : Fields) (t : Tables) :
    (promote eventId telemetry).Ensures t fun r t' =>
      ∀ a, r = .ok a → Promoted t eventId telemetry t' := by
  refine Stmt.Ensures.bind (R := fun r t₂ => t₂ = t ∧ ∀ a, r = .ok a →
    a = t.db.outbox.byKey eventId)
    (Stmt.Ensures.statement ⟨rfl, fun _ h => by cases h⟩ ⟨rfl, fun _ h => by cases h; rfl⟩)
    ?_ fun _ _ _ _ h => by cases h
  rintro found t₂ ⟨rfl, hfound⟩
  rw [hfound found rfl]
  cases hrow : t₂.db.outbox.byKey eventId with
  | none => exact Stmt.Ensures.pure fun _ _ => .absent hrow
  | some q =>
      obtain ⟨outboxId, row⟩ := q
      refine Stmt.Ensures.bind (R := fun r t₃ => t₃ = t₂ ∧ r = loads row.payload)
        (Stmt.Ensures.ofExcept ⟨rfl, rfl⟩) ?_ fun _ _ _ _ h => by cases h
      rintro value t₃ ⟨rfl, hvalue⟩
      have hpayload := loads_eq_ok hvalue.symm
      change Stmt.Ensures (if row.completedAt.isSome then _ else _) _ _
      split
      · next hdone =>
        exact Stmt.Ensures.pure fun _ _ =>
          .done hrow hpayload (Option.isSome_iff_ne_none.1 hdone)
      · next hpending =>
        cases value with
        | obj payload =>
            exact Stmt.Ensures.statement (fun _ h => by cases h) fun _ _ =>
              .promoted hrow hpayload (by simpa using hpending)
        | _ => exact Stmt.Ensures.ofExcept fun _ h => by cases h

theorem Promoted.evolves (op : DeliveryOp) {t₁ : Tables} {eventId : Nat} {telemetry : Fields}
    (hdb : t₁.db = t.db) (htrace : ∀ e, e ≠ eventId → traceOf t₁ e = traceOf t e)
    (hstored : traceOf t₁ eventId = some (.json (.obj telemetry)))
    (h : Promoted t₁ eventId telemetry t') : Evolves op t t' := by
  cases h with
  | absent hrow =>
      refine Evolves.of_trace hdb htrace fun id row hid he => ?_
      rw [← hdb] at hid
      exact absurd (congrArg some he) (Table.byKey_eq_none_iff.1 hrow id row hid)
  | @done id row value hrow hpayload hdone =>
      obtain ⟨hid, hkey⟩ := Table.byKey_eq_some_iff.1 hrow
      rw [hdb] at hid
      refine Evolves.of_trace hdb htrace fun id row' hid' he => ?_
      cases id_eq_of_event hid' hid (he.trans (Option.some.inj hkey).symm)
      cases hid'.symm.trans hid
      exact hdone
  | @promoted id row payload hrow hpayload hpending =>
      obtain ⟨hid, hkey⟩ := Table.byKey_eq_some_iff.1 hrow
      have hevent : row.eventId = eventId := Option.some.inj hkey
      rw [hdb] at hid
      refine Evolves.of_update hid hdb (fun e he => htrace e (hevent ▸ he)) rfl ?_
      exact .traced (.inr rfl) hpending hpayload rfl (by rw [hevent, hstored])

/-- A trace that is inserted is the trace of its event. -/
theorem traceOf_inserted {row : TelemetryRow} {id : Nat}
    {telemetry : Table TelemetryRow Nat (fun row => some row.eventId)}
    (h : t.telemetry.insert row = some (id, telemetry)) (e : Nat) :
    traceOf { t with telemetry } e = if e = row.eventId then some row.payload else traceOf t e := by
  unfold traceOf
  rw [Table.byKey_insert h]
  by_cases he : e = row.eventId
  · rw [if_pos he, if_pos (congrArg some he.symm)]
    rfl
  · rw [if_neg he, if_neg fun h => he (Option.some.inj h).symm]

theorem insertTrace_cases (row : TelemetryRow) (t : Tables) :
    (insertTrace row).Ensures t fun r t' => ∀ a, r = .ok a →
      ∃ id telemetry, t.telemetry.insert row = some (id, telemetry) ∧
        t' = { t with telemetry } := by
  refine Stmt.Ensures.bind (R := fun r t₁ => r = .ok true →
    ∃ id telemetry, t.telemetry.insert row = some (id, telemetry) ∧ t₁ = { t with telemetry })
    (Stmt.Ensures.statement (fun h => by cases h) ?_) ?_ fun _ _ _ _ h => by cases h
  · cases hins : t.telemetry.insert row with
    | none => exact fun h => by cases h
    | some p => exact fun _ => ⟨p.1, p.2, rfl, rfl⟩
  · intro inserted t₁ h
    cases inserted with
    | true => exact Stmt.Ensures.pure fun _ _ => h rfl
    | false => exact Stmt.Ensures.ofExcept fun _ h => by cases h

theorem loadsObject_eq_ok {text : JsonText} {fields : Fields} (h : loadsObject text = .ok fields) :
    text = .json (.obj fields) := by
  cases text with
  | other s => cases h
  | json value =>
      cases value with
      | obj payload => cases h; rfl
      | _ => cases h

/-- What attaching a trace comes to: an exception, the trace that is stored already, or a new
one. -/
inductive Attaching (t : Tables) (now : DateTime) (eventId : Nat) (made : Fields) :
    Except Exc (Bool × Fields) → Tables → Prop where
  | raised (x : Exc) : Attaching t now eventId made (.error x) t
  | again {id : Nat} {row : TelemetryRow} {stored payload : Fields} {t' : Tables}
      {createdAt : Option String} (hexisting : t.telemetry.byKey eventId = some (id, row))
      (hstored : row.payload = .json (.obj stored))
      (henrich : enrichOutboxDelivery createdAt made = .ok payload)
      (hid : (item payload "trace_id" >>= stringOf) = .ok row.traceId)
      (hsame : sameTrace stored payload = .ok true) (hpromoted : Promoted t eventId stored t')
      (hevent : ∃ event, t.db.events.find? eventId = some event) :
      Attaching t now eventId made (.ok (false, stored)) t'
  | first {id : Nat} {traceId : String} {payload : Fields} {t' : Tables}
      {createdAt : Option String}
      {telemetry : Table TelemetryRow Nat (fun row => some row.eventId)}
      (henrich : enrichOutboxDelivery createdAt made = .ok payload)
      (hid : (item payload "trace_id" >>= stringOf) = .ok traceId)
      (hfree : ∀ p ∈ t.telemetry.rows, p.2.traceId ≠ traceId)
      (hinsert : t.telemetry.insert ⟨eventId, traceId, .json (.obj payload), timestamp now⟩ =
        some (id, telemetry))
      (hpromoted : Promoted { t with telemetry } eventId payload t')
      (hevent : ∃ event, t.db.events.find? eventId = some event) :
      Attaching t now eventId made (.ok (true, payload)) t'

theorem attachTrace_cases (now : DateTime) (eventId : Nat) (made : Fields) (t : Tables) :
    (attachTrace now eventId made).Ensures t (Attaching t now eventId made) := by
  refine Stmt.Ensures.transaction (R := fun r t' => ∀ a, r = .ok a →
    Attaching t now eventId made (.ok a) t') ?_ (fun a t' h => h a rfl) .raised
  have hread : ∀ {α : Type} (f : Tables → α), (select f).Ensures t fun r t₁ => t₁ = t ∧
      ∀ a, r = .ok a → a = f t := fun f =>
    Stmt.Ensures.statement ⟨rfl, fun _ h => by cases h⟩ ⟨rfl, fun _ h => by cases h; rfl⟩
  refine Stmt.Ensures.bind (hread _) ?_ fun _ _ _ _ h => by cases h
  rintro event t₁ ⟨rfl, hevent⟩
  have hevent := (hevent event rfl).symm
  cases event with
  | none => exact Stmt.Ensures.ofExcept fun _ h => by cases h
  | some event =>
  refine Stmt.Ensures.bind (hread _) ?_ fun _ _ _ _ h => by cases h
  rintro createdAt t₂ ⟨rfl, -⟩
  refine Stmt.Ensures.bind (R := fun r t₃ => t₃ = t₂ ∧ r = enrichOutboxDelivery createdAt made)
    (Stmt.Ensures.ofExcept ⟨rfl, rfl⟩) ?_ fun _ _ _ _ h => by cases h
  rintro payload t₃ ⟨rfl, henrich⟩
  refine Stmt.Ensures.bind (R := fun r t₄ => t₄ = t₃ ∧
    r = (item payload "trace_id" >>= stringOf)) (Stmt.Ensures.ofExcept ⟨rfl, rfl⟩) ?_
    fun _ _ _ _ h => by cases h
  rintro traceId t₄ ⟨rfl, hid⟩
  refine Stmt.Ensures.bind (hread _) ?_ fun _ _ _ _ h => by cases h
  rintro existing t₅ ⟨rfl, hexisting⟩
  have hexisting := hexisting existing rfl
  cases existing with
  | some p =>
      obtain ⟨id, row⟩ := p
      refine Stmt.Ensures.bind (R := fun r t₆ => t₆ = t₅ ∧ r = loadsObject row.payload)
        (Stmt.Ensures.ofExcept ⟨rfl, rfl⟩) ?_ fun _ _ _ _ h => by cases h
      rintro stored t₆ ⟨rfl, hstored⟩
      refine Stmt.Ensures.bind (R := fun r t₇ => t₇ = t₆ ∧ r = sameTrace stored payload)
        (Stmt.Ensures.ofExcept ⟨rfl, rfl⟩) ?_ fun _ _ _ _ h => by cases h
      rintro same t₇ ⟨rfl, hsame⟩
      split
      · exact Stmt.Ensures.ofExcept fun _ h => by cases h
      · next hagree =>
        rw [not_or, not_not, Bool.not_eq_false] at hagree
        obtain ⟨rfl, rfl⟩ := hagree
        refine Stmt.Ensures.bind (promote_cases eventId stored t₇) ?_ fun _ _ _ _ h => by cases h
        intro _ t₈ h
        refine Stmt.Ensures.pure ?_
        rintro a ⟨⟩
        exact .again hexisting.symm (loadsObject_eq_ok hstored.symm) henrich.symm hid.symm
          hsame.symm (h _ rfl) ⟨event, hevent⟩
  | none =>
      refine Stmt.Ensures.bind (hread _) ?_ fun _ _ _ _ h => by cases h
      rintro other t₆ ⟨rfl, hother⟩
      have hother := hother other rfl
      cases other with
      | some other => exact Stmt.Ensures.ofExcept fun _ h => by cases h
      | none =>
          refine Stmt.Ensures.bind (insertTrace_cases _ t₆) ?_ fun _ _ _ _ h => by cases h
          intro _ t₇ h
          obtain ⟨id, telemetry, hinsert, rfl⟩ := h _ rfl
          refine Stmt.Ensures.bind (promote_cases eventId payload _) ?_
            fun _ _ _ _ h => by cases h
          intro _ t₈ h
          refine Stmt.Ensures.pure ?_
          rintro a ⟨⟩
          refine .first henrich.symm hid.symm ?_ hinsert (h _ rfl) ⟨event, hevent⟩
          intro p hp heq
          have hnone := List.find?_eq_none.1 hother.symm p hp
          exact hnone (by simpa using heq)

theorem attachTrace_ensures (op : DeliveryOp) (now : DateTime) (eventId : Nat) (made : Fields)
    (t : Tables) : (attachTrace now eventId made).Ensures t fun _ t' => Evolves op t t' := by
  refine (attachTrace_cases now eventId made t).mono fun r t' h => ?_
  cases h with
  | raised x => exact .refl op t
  | again hexisting hstored henrich hid hsame hpromoted =>
      refine hpromoted.evolves op rfl (fun _ _ => rfl) ?_
      rw [traceOf, hexisting, Option.map_some, hstored]
  | @first id traceId payload t' createdAt telemetry henrich hid hfree hinsert hpromoted =>
      have hdb : ({ t with telemetry } : Tables).db = t.db := rfl
      refine hpromoted.evolves op hdb (fun e he => ?_) ?_
      · exact (traceOf_inserted hinsert e).trans (if_neg he)
      · exact (traceOf_inserted hinsert eventId).trans (if_pos rfl)

theorem attachEventTelemetry_ensures (now : DateTime) (eventId : Nat) (wire : Fields) (t : Tables) :
    (attachEventTelemetry now eventId wire).Ensures t fun _ t' =>
      Evolves (.attachEventTelemetry eventId wire) t t' := by
  refine Stmt.Ensures.bind (R := fun _ t₁ => t₁ = t) (Stmt.Ensures.ofExcept rfl) ?_
    fun _ _ h => h ▸ .refl _ _
  rintro made t₁ rfl
  refine Stmt.Ensures.bind (attachTrace_ensures _ now eventId made t₁) ?_ fun _ _ h => h
  rintro ⟨inserted, payload⟩ t₂ h
  refine Stmt.Ensures.bind (R := fun _ t₃ => t₃ = t₂) (Stmt.Ensures.ofExcept rfl) ?_
    fun _ _ ht => ht ▸ h
  rintro - t₃ rfl
  exact Stmt.Ensures.pure h

/-! ## Purging -/

/-- The part of a purge that is done: some completed rows have lost their trace. -/
structure Purging (t t' : Tables) : Prop where
  others : t'.db = { t.db with outbox := t'.db.outbox }
  absent : ∀ id, t.db.outbox.find? id = none → t'.db.outbox.find? id = none
  row : ∀ id row, t.db.outbox.find? id = some row → t'.db.outbox.find? id = some row ∨
    row.completedAt ≠ none ∧ ∃ payload, row.payload = .json (.obj payload) ∧
      t'.db.outbox.find? id = some (withPayload (GateController.untraced payload) row)
  trace : ∀ id row, t.db.outbox.find? id = some row → row.completedAt = none →
    traceOf t' row.eventId = traceOf t row.eventId

theorem Purging.refl (t : Tables) : Purging t t :=
  ⟨rfl, fun _ h => h, fun _ _ h => .inl h, fun _ _ _ _ => rfl⟩

theorem Purging.evolves {cutoff : DateTime} (h : Purging t t') :
    Evolves (.purgeDeliveredTelemetry cutoff) t t' where
  others := h.others
  absent := h.absent
  row id row hrow := by
    rcases h.row id row hrow with hsame | ⟨hdone, payload, hpayload, hnew⟩
    · refine ⟨row, hsame, ?_⟩
      by_cases hdone : row.completedAt = none
      · exact .kept (h.trace id row hrow hdone)
      · exact .settled hdone
    · exact ⟨_, hnew, .purged rfl hdone hpayload⟩

/-- Deleting traces. -/
theorem traceOf_delete {sel : Nat → TelemetryRow → Bool} {e : Nat}
    (h : ∀ i row, t.telemetry.byKey e = some (i, row) → sel i row = false) :
    traceOf { t with telemetry := t.telemetry.delete sel } e = traceOf t e := by
  unfold traceOf
  rw [Table.byKey_delete]
  cases hk : t.telemetry.byKey e with
  | none => rfl
  | some p => simp [Option.filter, h p.1 p.2 hk]

/-- A row and its trace are purged. -/
theorem Purging.step {t₁ : Tables} {eventId outboxId : Nat} {row : OutboxRow} {payload : Fields}
    {hf : ∀ r, some (withPayload (GateController.untraced payload) r).eventId = some r.eventId}
    (h : Purging t t₁) (hrow : t.db.outbox.find? outboxId = some row) (hevent : row.eventId = eventId)
    (hdone : row.completedAt ≠ none) (hpayload : row.payload = .json (.obj payload)) :
    Purging t { updateOutbox outboxId completed (withPayload (GateController.untraced payload)) hf t₁
      with telemetry := t₁.telemetry.delete fun _ row => row.eventId == eventId } where
  others := by
    rw [show (updateOutbox outboxId completed (withPayload (GateController.untraced payload)) hf t₁).db =
      { t₁.db with outbox := (updateOutbox outboxId completed
        (withPayload (GateController.untraced payload)) hf t₁).db.outbox } from rfl, h.others]
  absent i hi := by rw [find?_updateOutbox, h.absent i hi]; rfl
  row i r hr := by
    rw [find?_updateOutbox]
    by_cases hi : i = outboxId
    · subst hi
      cases hr.symm.trans hrow
      refine .inr ⟨hdone, payload, hpayload, ?_⟩
      have hcompleted : ∀ p, completed (withPayload p row) = true := fun p =>
        Option.isSome_iff_ne_none.2 hdone
      rcases h.row i row hr with hsame | ⟨-, payload', hpayload', hnew⟩
      · rw [hsame, Option.map_some, if_pos]
        exact Bool.and_eq_true_iff.2 ⟨beq_self_eq_true i, Option.isSome_iff_ne_none.2 hdone⟩
      · rw [hnew, Option.map_some, if_pos]
        · rfl
        · exact Bool.and_eq_true_iff.2 ⟨beq_self_eq_true i, hcompleted _⟩
    · have hbeq : (i == outboxId) = false := by simp [hi]
      simpa [hbeq] using h.row i r hr
  trace i r hr hpending := by
    refine Eq.trans (traceOf_delete (t := t₁) fun j tr hj => ?_) (h.trace i r hr hpending)
    have hj' : tr.eventId = r.eventId := Option.some.inj (Table.byKey_eq_some_iff.1 hj).2
    refine beq_eq_false_iff_ne.2 fun hsame => hdone ?_
    have hids : i = outboxId := id_eq_of_event hr hrow (hj'.symm.trans (hsame.trans hevent.symm))
    subst hids
    cases hr.symm.trans hrow
    exact hpending

theorem purgeRows_ensures {rows : List (Nat × Nat × JsonText)} {t₁ : Tables}
    (hrows : ∀ p ∈ rows, ∃ row, t.db.outbox.find? p.2.1 = some row ∧ row.eventId = p.1 ∧
      row.completedAt ≠ none ∧ row.payload = p.2.2) (h : Purging t t₁) :
    (purgeRows rows).Ensures t₁ fun r t' => ∀ a, r = .ok a → Purging t t' := by
  induction rows generalizing t₁ with
  | nil => exact Stmt.Ensures.pure fun _ _ => h
  | cons p rest ih =>
      obtain ⟨eventId, outboxId, text⟩ := p
      obtain ⟨row, hrow, hevent, hdone, hpayload⟩ := hrows _ List.mem_cons_self
      have hrest := fun q hq => hrows q (List.mem_cons_of_mem _ hq)
      unfold purgeRows
      cases hload : (loads text >>= v2OutboxPayload) with
      | error x => exact ih hrest h
      | ok fallback =>
          obtain ⟨payload, rfl, rfl⟩ := loads_v2_eq_ok hload
          refine Stmt.Ensures.bind (R := fun r t₂ => ∀ a, r = .ok a → t₂ = updateOutbox outboxId
            completed (withPayload (GateController.untraced payload)) (fun _ => rfl) t₁)
            (Stmt.Ensures.statement (fun _ h => by cases h) fun _ _ => rfl) ?_
            fun _ _ _ _ h => by cases h
          intro _ t₂ ht₂
          rw [ht₂ _ rfl]
          refine Stmt.Ensures.bind (R := fun r t₃ => ∀ a, r = .ok a → Purging t t₃)
            (Stmt.Ensures.statement (fun _ h => by cases h) fun _ _ => ?_) ?_
            fun _ _ _ _ h => by cases h
          · exact h.step hrow hevent hdone hpayload
          · intro removed t₃ h₃
            refine Stmt.Ensures.bind (ih hrest (h₃ _ rfl)) ?_ fun _ _ _ _ h => by cases h
            intro more t₄ h₄
            exact Stmt.Ensures.pure fun _ _ => h₄ _ rfl

theorem mem_deliveredBefore {cutoff : String} {p : Nat × Nat × JsonText}
    (h : p ∈ deliveredBefore cutoff t) : ∃ row, t.db.outbox.find? p.2.1 = some row ∧
      row.eventId = p.1 ∧ row.completedAt ≠ none ∧ row.payload = p.2.2 := by
  obtain ⟨q, -, hq⟩ := List.mem_filterMap.1 h
  split at hq
  · split at hq
    · next outboxId row hrow =>
      obtain ⟨hfind, hkey⟩ := Table.byKey_eq_some_iff.1 hrow
      split at hq
      · next hdone =>
        cases hq
        exact ⟨row, hfind, Option.some.inj hkey, Option.isSome_iff_ne_none.1 hdone, rfl⟩
      · cases hq
    · cases hq
  · cases hq

theorem purgeDeliveredTelemetry_ensures (cutoff : DateTime) (t : Tables) :
    (purgeDeliveredTelemetry cutoff).Ensures t fun _ t' =>
      Evolves (.purgeDeliveredTelemetry cutoff) t t' := by
  refine Stmt.Ensures.transaction (R := fun r t' => ∀ a, r = .ok a → Purging t t') ?_
    (fun a t' h => (h a rfl).evolves) fun _ => .refl _ t
  refine Stmt.Ensures.bind (R := fun r t₁ => t₁ = t ∧ ∀ a, r = .ok a →
    a = deliveredBefore (timestamp cutoff) t)
    (Stmt.Ensures.statement ⟨rfl, fun _ h => by cases h⟩ ⟨rfl, fun _ h => by cases h; rfl⟩)
    ?_ fun _ _ _ _ h => by cases h
  rintro rows t₁ ⟨rfl, hrows⟩
  rw [hrows rows rfl]
  exact purgeRows_ensures (fun p hp => mem_deliveredBefore hp) (.refl _)

theorem purgeUnqueuedTelemetry_ensures (cutoff : DateTime) (t : Tables) :
    (purgeUnqueuedTelemetry cutoff).Ensures t fun _ t' =>
      Evolves (.purgeUnqueuedTelemetry cutoff) t t' := by
  refine Stmt.Ensures.transaction (R := fun r t' => ∀ a, r = .ok a →
    Evolves (.purgeUnqueuedTelemetry cutoff) t t') ?_ (fun a t' h => h a rfl) fun _ => .refl _ t
  refine Stmt.Ensures.statement (fun _ h => by cases h) fun _ _ => ⟨rfl, fun _ h => h, ?_⟩
  intro id row hrow
  refine ⟨row, hrow, .kept (traceOf_delete fun i tr htr => ?_)⟩
  have hevent : tr.eventId = row.eventId := Option.some.inj (Table.byKey_eq_some_iff.1 htr).2
  rw [unqueuedBefore, hevent, Table.byKey_eq_some_iff.2 ⟨hrow, rfl⟩]
  exact Bool.and_false _

/-! ## Binding -/

/-- The part of a binding that is done: some of the rows are bound. -/
structure Binding (controllerId : String) (rows : List (Nat × JsonText)) (t t' : Tables) : Prop where
  others : t'.db = { t.db with outbox := t'.db.outbox }
  telemetry : t'.telemetry = t.telemetry
  absent : ∀ id, t.db.outbox.find? id = none → t'.db.outbox.find? id = none
  row : ∀ id row, t.db.outbox.find? id = some row → t'.db.outbox.find? id = some row ∨
    ∃ text selected payload, (id, text) ∈ rows ∧ bindSource text = .ok selected ∧
      boundPayload controllerId selected = some payload ∧
      t'.db.outbox.find? id = some (withPayload payload row)

theorem Binding.refl (controllerId : String) (rows : List (Nat × JsonText)) (t : Tables) :
    Binding controllerId rows t t :=
  ⟨rfl, rfl, fun _ h => h, fun _ _ h => .inl h⟩

theorem Binding.step {controllerId : String} {rows : List (Nat × JsonText)} {t₁ : Tables}
    {outboxId : Nat} {text : JsonText} {selected payload : Fields}
    {hf : ∀ r, some (withPayload payload r).eventId = some r.eventId}
    (h : Binding controllerId rows t t₁) (hmem : (outboxId, text) ∈ rows)
    (hsource : bindSource text = .ok selected)
    (hbound : boundPayload controllerId selected = some payload) :
    Binding controllerId rows t (updateOutbox outboxId (fun _ => true) (withPayload payload) hf t₁) where
  others := by
    rw [show (updateOutbox outboxId (fun _ => true) (withPayload payload) hf t₁).db = { t₁.db with
      outbox := (updateOutbox outboxId (fun _ => true) (withPayload payload) hf t₁).db.outbox } from
      rfl, h.others]
  telemetry := h.telemetry
  absent i hi := by rw [find?_updateOutbox, h.absent i hi]; rfl
  row i r hr := by
    rw [find?_updateOutbox]
    by_cases hi : i = outboxId
    · subst hi
      refine .inr ⟨text, selected, payload, hmem, hsource, hbound, ?_⟩
      rcases h.row i r hr with hsame | ⟨_, _, payload', -, -, -, hnew⟩
      · simp [hsame]
      · simp [hnew, withPayload]
    · have hbeq : (i == outboxId) = false := by simp [hi]
      simpa [hbeq] using h.row i r hr

theorem bindRows_ensures {controllerId : String} {rows done rest : List (Nat × JsonText)}
    {t₁ : Tables} (hrows : rows = done ++ rest) (h : Binding controllerId rows t t₁) :
    (bindRows controllerId rest).Ensures t₁ fun r t' => ∀ a, r = .ok a →
      Binding controllerId rows t t' := by
  induction rest generalizing t₁ done with
  | nil => exact Stmt.Ensures.pure fun _ _ => h
  | cons p rest ih =>
      obtain ⟨outboxId, text⟩ := p
      have hrows' : rows = (done ++ [(outboxId, text)]) ++ rest := by simp [hrows]
      unfold bindRows
      refine Stmt.Ensures.bind (R := fun r t₂ => t₂ = t₁ ∧ r = bindSource text)
        (Stmt.Ensures.ofExcept ⟨rfl, rfl⟩) ?_ fun _ _ _ _ h => by cases h
      rintro selected t₂ ⟨rfl, hsource⟩
      cases hbound : boundPayload controllerId selected with
      | none =>
          simp only
          exact ih hrows' h
      | some bound =>
          simp only
          refine Stmt.Ensures.bind (R := fun r t₃ => ∀ a, r = .ok a →
            t₃ = updateOutbox outboxId (fun _ => true) (withPayload bound) (fun _ => rfl) t₂)
            (Stmt.Ensures.statement (fun _ h => by cases h) fun _ _ => rfl) ?_
            fun _ _ _ _ h => by cases h
          intro _ t₃ ht₃
          rw [ht₃ _ rfl]
          exact ih hrows' (h.step (by simp [hrows]) hsource.symm hbound)

theorem rebindRows_binding (controllerId : String) (rows : List (Nat × JsonText)) (t : Tables) :
    (rebindRows controllerId rows).Ensures t fun _ t' => Binding controllerId rows t t' :=
  Stmt.Ensures.transaction (bindRows_ensures (List.nil_append rows).symm (.refl controllerId rows t))
    (fun a _ h => h a rfl) fun _ => .refl controllerId rows t

theorem Binding.evolves {controllerId : String} {rows : List (Nat × JsonText)}
    (h : Binding controllerId rows t t')
    (hop : ∀ id row text selected, t.db.outbox.find? id = some row → (id, text) ∈ rows →
      bindSource text = .ok selected → SelectedFor op id row controllerId selected) :
    Evolves op t t' where
  others := h.others
  absent := h.absent
  row id row hrow := by
    have htrace : traceOf t' row.eventId = traceOf t row.eventId := by
      rw [traceOf, traceOf, h.telemetry]
    rcases h.row id row hrow with hsame | ⟨text, selected, payload, hmem, hsource, hbound, hnew⟩
    · exact ⟨row, hsame, .kept htrace⟩
    · exact ⟨_, hnew, .bound (hop id row text selected hrow hmem hsource) hbound htrace⟩

theorem rebindRows_ensures (controllerId : String) (rows : List (Nat × JsonText)) (t : Tables) :
    (rebindRows controllerId rows).Ensures t fun _ t' =>
      Evolves (.rebindRows controllerId rows) t t' := by
  refine (rebindRows_binding controllerId rows t).mono fun _ _ h => h.evolves ?_
  intro id row text selected hrow hmem hsource
  exact ⟨rfl, text, hmem, hsource⟩

theorem mem_pendingPayloads {id : Nat} {text : JsonText} (h : (id, text) ∈ pendingPayloads t) :
    ∃ row, t.db.outbox.find? id = some row ∧ row.completedAt = none ∧ row.payload = text := by
  obtain ⟨p, hp, heq⟩ := List.mem_map.1 h
  obtain ⟨hmem, hpending⟩ := List.mem_filter.1 hp
  cases heq
  exact ⟨p.2, Table.find?_eq_some_iff.2 hmem, by simpa [pending] using hpending, rfl⟩

theorem bindPendingOutboxController_ensures (controllerId : String) (t : Tables) :
    (bindPendingOutboxController controllerId).Ensures t fun _ t' =>
      Evolves (.bindPendingOutboxController controllerId) t t' := by
  refine Stmt.Ensures.bind (R := fun r t₁ => t₁ = t ∧ ∀ a, r = .ok a → a = pendingPayloads t)
    (Stmt.Ensures.statement ⟨rfl, fun _ h => by cases h⟩ ⟨rfl, fun _ h => by cases h; rfl⟩) ?_
    fun x t₁ h => h.1 ▸ .refl _ _
  rintro rows t₁ ⟨rfl, hrows⟩
  rw [hrows rows rfl]
  refine (rebindRows_binding controllerId _ t₁).mono fun _ _ h => h.evolves ?_
  intro id row text selected hrow hmem hsource
  obtain ⟨row', hrow', hpending, hpayload⟩ := mem_pendingPayloads hmem
  cases hrow.symm.trans hrow'
  exact ⟨rfl, hpending, hpayload ▸ hsource⟩

end Delivery

open Delivery

variable {w : Weather} {t : Tables} {op : DeliveryOp}

/-- Whether a call is one of the tables of the events. -/
def DeliveryOp.isStore : DeliveryOp → Bool
  | .store _ _ => true
  | _ => false

/-- What an operation of the delivery does. -/
theorem DeliveryOp.run_evolves (hop : op.isStore = false) : Evolves op t (op.run w t).2 := by
  cases op with
  | store op other => cases hop
  | attachEventTelemetry eventId wire =>
      exact attachEventTelemetry_ensures w.now eventId wire t w.faults
  | prepareOutboxAttempt itemId attemptedAt =>
      exact (prepareOutboxAttempt_ensures itemId attemptedAt t w.faults).1
  | markOutboxRetry itemId => exact markOutboxRetry_ensures itemId t w.faults
  | completeOutboxItem itemId completedAt prepared =>
      exact completeOutboxItem_ensures itemId completedAt prepared t w.faults
  | purgeDeliveredTelemetry cutoff => exact purgeDeliveredTelemetry_ensures cutoff t w.faults
  | purgeUnqueuedTelemetry cutoff => exact purgeUnqueuedTelemetry_ensures cutoff t w.faults
  | bindPendingOutboxController controllerId =>
      exact bindPendingOutboxController_ensures controllerId t w.faults
  | rebindRows controllerId rows => exact rebindRows_ensures controllerId rows t w.faults

/-- What a call of the store does. -/
theorem DeliveryOp.run_store {op : StoreOp} {other : op.attaches = false} :
    OutboxStep op t.db ((DeliveryOp.store op other).run w t).2.db ∧
      ((DeliveryOp.store op other).run w t).2.telemetry = t.telemetry :=
  ⟨StoreOp.run_outbox rfl other, rfl⟩

end GateController

import GateController.Delivery.Session

/-!
# Attaching a trace again

A trace that is attached stays the trace of its event while the worker attempts to deliver
it.  To attach it again then changes no trace and reports none.  A trace that says something
else, or the same trace for another event, is refused, and nothing is written.
-/

namespace GateController

open Data Effects LocalStore EventTelemetry

namespace Delivery

variable {t t' : Tables} {s : Session} {w : Weather} {op : SessionOp} {e e' : EventTelemetry}
  {attempt : Int} {trace : Fields} {i : Nat}

/-! ## Events and traces -/

/-- An event has one trace, and a trace one event. -/
def OneToOne (t : Tables) : Prop :=
  ∀ p ∈ t.telemetry.rows, ∀ q ∈ t.telemetry.rows,
    p.2.eventId = q.2.eventId ∨ p.2.traceId = q.2.traceId → p = q

theorem byKey_of_mem {p : Nat × TelemetryRow} (hp : p ∈ t.telemetry.rows) :
    t.telemetry.byKey p.2.eventId = some p :=
  Table.byKey_eq_some_iff.2 ⟨Table.find?_eq_some_iff.2 hp, rfl⟩

theorem Inv.oneToOne (h : Inv s) : OneToOne s.tables := by
  intro p hp q hq hsame
  have hevent : p.2.eventId = q.2.eventId := by
    obtain heq | heq := hsame
    · exact heq
    · exact h.unique _ _ _ _ (stored_of_byKey (byKey_of_mem hp)) (stored_of_byKey (byKey_of_mem hq))
        heq
  have hkey := byKey_of_mem hp
  rw [hevent, byKey_of_mem hq] at hkey
  exact (Option.some.inj hkey).symm

/-- The number of attempts in a trace. -/
def attemptIn (trace : Fields) : Option Json :=
  match Fields.get? trace "delivery" with
  | some (.obj delivery) => Fields.get? delivery "outbox_attempt"
  | _ => none

/-- The number of attempts in the stored trace of an event. -/
def outboxAttempt (t : Tables) (eventId : Nat) : Option Json :=
  match traceOf t eventId with
  | some (.json (.obj trace)) => attemptIn trace
  | _ => none

theorem Has.outboxAttempt (h : Has t i e attempt) :
    Delivery.outboxAttempt t i = some (.num attempt) := by
  obtain ⟨trace, hstored, htrace⟩ := h
  obtain ⟨state, hstate⟩ := htrace.delivery
  rw [Delivery.outboxAttempt, traceOf_eq, hstored]
  dsimp only [Option.map_some]
  rw [attemptIn, hstate]
  rfl

/-- The stored number of attempts grows by one, to at most 1000, where the operation is an
attempt that is counted.  Otherwise it stays, until the trace is purged. -/
def CountsAttempts (w : Weather) (s : Session) (op : SessionOp) : Prop :=
  ∀ i, traceOf s.tables i ≠ none → ∃ n : Int, 0 ≤ n ∧ n ≤ 1000 ∧
    outboxAttempt s.tables i = some (.num n) ∧
    (Counts w s op i →
      outboxAttempt (s.next w op).tables i = some (.num ((min (n + 1) 1000 : Int) : ℚ))) ∧
    (¬ Counts w s op i → outboxAttempt (s.next w op).tables i = some (.num n) ∨
      op.isPurge = true ∧ traceOf (s.next w op).tables i = none)

theorem Inv.countsAttempts (h : Inv s) (w : Weather) (op : SessionOp) : CountsAttempts w s op := by
  intro i hthere
  rw [traceOf_eq, ne_eq, Option.map_eq_none_iff] at hthere
  obtain ⟨p, hp⟩ := Option.ne_none_iff_exists'.1 hthere
  obtain ⟨e, n, hhas⟩ := h.traces i p hp
  have hbounds : 0 ≤ n ∧ n ≤ 1000 := by
    obtain ⟨trace, -, htrace⟩ := hhas
    exact htrace.bounds
  refine ⟨n, hbounds.1, hbounds.2, hhas.outboxAttempt, ?_⟩
  cases h.fate w op i with
  | absent hnone => exact absurd hnone hthere
  | attached _ hnone => exact absurd hnone hthere
  | goesOn _ hgoes =>
      obtain ⟨n', hhas', hcounted, hkept⟩ := hgoes e n hhas
      refine ⟨fun hcounts => ?_, fun hcounts => .inl ?_⟩
      · rw [hhas'.outboxAttempt, hcounted hcounts]
        rfl
      · rw [hhas'.outboxAttempt, hkept hcounts]
  | purged hpurge hnone =>
      refine ⟨fun hcounts => ?_, fun _ => .inr ⟨hpurge, ?_⟩⟩
      · refine absurd hcounts (not_counts fun itemId attemptedAt heq => ?_)
        rw [heq] at hpurge
        cases hpurge
      · rw [traceOf_eq, hnone]
        rfl

/-! ## A trace while it is delivered -/

/-- The trace can be put into the row of its event, if there is one. -/
structure Promotable (t : Tables) (i : Nat) : Prop where
  event : ∃ event, t.db.events.find? i = some event
  row : ∀ id row, t.db.outbox.find? id = some row → row.eventId = i →
    ∃ value, row.payload = .json value ∧ (row.completedAt = none → ∃ fields, value = .obj fields)

theorem RowChange.promotable {call : DeliveryOp} {id : Nat} {before now : Option JsonText}
    {row row' : OutboxRow} (h : RowChange call id before now row row')
    (hrow : ∃ value, row.payload = .json value ∧
      (row.completedAt = none → ∃ fields, value = .obj fields)) :
    ∃ value, row'.payload = .json value ∧
      (row'.completedAt = none → ∃ fields, value = .obj fields) := by
  cases h with
  | kept => exact hrow
  | settled => exact hrow
  | _ => exact ⟨_, rfl, fun _ => ⟨_, rfl⟩⟩

theorem Promotable.evolves {call : DeliveryOp} (h : Promotable t i) (hstep : Evolves call t t') :
    Promotable t' i where
  event := by
    rw [hstep.others]
    exact h.event
  row id row' hrow' hevent := by
    cases hrow : t.db.outbox.find? id with
    | none =>
        rw [hstep.absent id hrow] at hrow'
        cases hrow'
    | some row =>
        obtain ⟨row'', hrow'', hchange⟩ := hstep.row id row hrow
        rw [hrow'] at hrow''
        cases hrow''
        exact hchange.promotable (h.row id row hrow (hchange.eventId.symm.trans hevent))

theorem isAttempt_evolves (hop : op.isAttempt = true) :
    Evolves (op.call s.prepared) s.tables (s.next w op).tables := by
  cases op with
  | prepare itemId attemptedAt => exact DeliveryOp.run_evolves rfl
  | retry itemId => exact DeliveryOp.run_evolves rfl
  | complete itemId completedAt handsOver => exact DeliveryOp.run_evolves rfl
  | _ => cases hop

/-- An attempt keeps the trace of an event. -/
theorem Inv.has_attempt (h : Inv s) (hop : op.isAttempt = true) (hhas : Has s.tables i e attempt) :
    ∃ attempt', Has (s.next w op).tables i e attempt' := by
  have hthere : stored s.tables i ≠ none := by
    obtain ⟨trace, hstored, -⟩ := hhas
    simp [hstored]
  cases h.fate w op i with
  | absent hnone => exact absurd hnone hthere
  | attached heq hnone => exact absurd hnone hthere
  | goesOn _ hgoes =>
      obtain ⟨attempt', hhas', -⟩ := hgoes e attempt hhas
      exact ⟨attempt', hhas'⟩
  | purged hpurge => cases op <;> cases hop <;> cases hpurge

/-- Everything that attaching the trace again relies on. -/
structure Attached (s : Session) (i : Nat) (e : EventTelemetry) : Prop where
  inv : Inv s
  has : ∃ attempt, Has s.tables i e attempt
  promotable : Promotable s.tables i

theorem Attached.attempts (h : Attached s i e) {steps : List (Weather × SessionOp)}
    (hsteps : ∀ p ∈ steps, p.2.isAttempt = true) :
    Attached (steps.foldl (fun s step => s.next step.1 step.2) s) i e := by
  induction steps generalizing s with
  | nil => exact h
  | cons step rest ih =>
      have hop := hsteps step List.mem_cons_self
      obtain ⟨attempt, hhas⟩ := h.has
      refine ih ⟨h.inv.next step.1 step.2, h.inv.has_attempt hop hhas, ?_⟩
        fun p hp => hsteps p (List.mem_cons_of_mem step hp)
      exact h.promotable.evolves (isAttempt_evolves hop)

/-! ## The first time -/

/-- What was put into the row can be put there again. -/
theorem Promoted.promotable (h : Promoted t i trace t')
    (hevent : ∃ event, t.db.events.find? i = some event) : Promotable t' i := by
  cases h with
  | absent hrow =>
      exact ⟨hevent, fun id row hfind heq =>
        absurd (congrArg some heq) (Table.byKey_eq_none_iff.1 hrow id row hfind)⟩
  | @done id row value hrow hpayload hdone =>
      refine ⟨hevent, fun id' row' hrow' heq => ?_⟩
      rw [Table.byKey_eq_some_iff.2 ⟨hrow', congrArg some heq⟩] at hrow
      cases hrow
      exact ⟨value, hpayload, fun hpending => absurd hpending hdone⟩
  | @promoted id row payload hrow hpayload hpending =>
      refine ⟨hevent, fun id' row' hrow' heq => ?_⟩
      obtain ⟨hfind, hkey⟩ := Table.byKey_eq_some_iff.1 hrow
      have hfound : (updateOutbox id (fun _ => true)
          (fun row => OutboxRow.promote trace row payload) (fun _ => rfl) t).db.outbox.find? id' =
          (t.db.outbox.find? id').map fun row =>
            if id' == id && true then OutboxRow.promote trace row payload else row :=
        Table.find?_update id'
      rw [hfound] at hrow'
      obtain ⟨old, hold, rfl⟩ := Option.map_eq_some_iff.1 hrow'
      have hsame : old.eventId = row.eventId := by
        refine Eq.trans ?_ (Option.some.inj hkey).symm
        refine Eq.trans ?_ heq
        split <;> rfl
      cases id_eq_of_event hold hfind hsame
      simp [OutboxRow.promote]

/-- A trace that the store takes for the one it has is that trace. -/
theorem lasting_of_same {createdAt : Option String} {payload : Fields}
    (htrace : TraceOf e' attempt trace)
    (henrich : enrichOutboxDelivery createdAt e.payload = .ok payload) :
    sameTrace trace payload = .ok true ↔ e'.lasting = e.lasting := by
  rw [sameTrace, htrace.lasting, ((traceOf_payload e).enrich henrich).lasting]
  simp only [bind, Except.bind, pure, Except.pure, Except.ok.injEq]
  exact sameObject_lasting

/-- Once a trace is attached, it is the trace of the event. -/
theorem Inv.attached {inserted : Bool} (h : Inv s)
    (hrun : ((DeliveryOp.attachEventTelemetry i e.toWire).run w s.tables).1 = .ok inserted) :
    Attached (s.next w (.attach i e)) i e := by
  have hcases := attach_cases (e := e) w i (h.traces i)
  have hnext : (s.next w (.attach i e)).tables =
    ((DeliveryOp.attachEventTelemetry i e.toWire).run w s.tables).2 := rfl
  suffices hafter : (∃ attempt, Has (s.next w (.attach i e)).tables i e attempt) ∧
      Promotable (s.next w (.attach i e)).tables i from
    ⟨h.next w _, hafter.1, hafter.2⟩
  rw [hnext]
  generalize (DeliveryOp.attachEventTelemetry i e.toWire).run w s.tables = out at hcases hrun ⊢
  obtain ⟨r, t'⟩ := out
  cases hrun
  dsimp only at hcases ⊢
  cases hcases with
  | @again payload t' hagain =>
      cases hagain with
      | @again id row _ made _ createdAt hexisting hstored henrich hid hsame hpromoted hevent =>
          refine ⟨?_, hpromoted.promotable hevent⟩
          have hkept := stored_of_byKey hexisting
          obtain ⟨e', attempt, trace, hold, htrace⟩ := h.traces i _ hkept
          rw [hkept, hstored] at hold
          obtain ⟨-, rfl⟩ : row.traceId = e'.traceId ∧ payload = trace := by simpa using hold
          have hlasting := (lasting_of_same htrace henrich).1 hsame
          refine ⟨attempt, payload, ?_, htrace.of_lasting hlasting⟩
          rw [hpromoted.stored, hkept, hstored, traceId_of_enrich henrich hid]
  | @first payload t' hfirst =>
      cases hfirst with
      | first henrich hid hfree hinsert hpromoted hevent =>
          refine ⟨⟨e.wireAttempt, payload, ?_, (traceOf_payload e).enrich henrich⟩,
            hpromoted.promotable hevent⟩
          rw [hpromoted.stored, stored_inserted hinsert, if_pos rfl, traceId_of_enrich henrich hid]

/-! ## The second time -/

theorem select_sure {α : Type} (f : Tables → α) (t : Tables) :
    Stmt.Sure .other (select f) t (f t) t :=
  Stmt.Sure.statement rfl

theorem promote_sure (h : Promotable t i) (trace : Fields) :
    ∃ t', Stmt.Sure .other (promote i trace) t () t' ∧ t'.telemetry = t.telemetry := by
  cases hrow : t.db.outbox.byKey i with
  | none =>
      refine ⟨t, (select_sure _ t).bind ?_, rfl⟩
      rw [hrow]
      exact Stmt.Sure.pure () t
  | some p =>
      obtain ⟨id, row⟩ := p
      obtain ⟨hfind, hkey⟩ := Table.byKey_eq_some_iff.1 hrow
      obtain ⟨value, hpayload, hobject⟩ := h.row id row hfind (Option.some.inj hkey)
      have hloads : loads row.payload = .ok value := by
        rw [hpayload]
        rfl
      cases hdone : row.completedAt with
      | some completedAt =>
          refine ⟨t, (select_sure _ t).bind ?_, rfl⟩
          rw [hrow]
          refine (Stmt.Sure.ofExcept hloads).bind ?_
          rw [hdone]
          exact Stmt.Sure.pure () t
      | none =>
          obtain ⟨fields, rfl⟩ := hobject hdone
          refine ⟨updateOutbox id (fun _ => true)
            (fun row => OutboxRow.promote trace row fields) (fun _ => rfl) t,
            (select_sure _ t).bind ?_, rfl⟩
          rw [hrow]
          refine (Stmt.Sure.ofExcept hloads).bind ?_
          rw [hdone]
          exact Stmt.Sure.statement rfl

theorem enrich_ok (e : EventTelemetry) (createdAt : Option String) :
    ∃ payload, enrichOutboxDelivery createdAt e.payload = .ok payload := by
  cases createdAt with
  | none => exact ⟨_, rfl⟩
  | some text =>
      obtain ⟨durations, stamps, -, hstamps, -, -⟩ := (traceOf_payload e).parts
      rw [enrichOutboxDelivery, hstamps]
      exact ⟨_, rfl⟩

theorem attachTrace_sure (h : Attached s i e) (now : DateTime) :
    ∃ trace t', Stmt.Sure .other (attachTrace now i e.payload) s.tables (false, trace) t' ∧
      loggedEnqueue trace = .ok () ∧ t'.telemetry = s.tables.telemetry := by
  obtain ⟨attempt, trace, hstored, htrace⟩ := h.has
  obtain ⟨event, hevent⟩ := h.promotable.event
  obtain ⟨t', hpromote, hsame⟩ := promote_sure h.promotable trace
  obtain ⟨payload, henrich⟩ := enrich_ok e ((s.tables.db.outbox.byKey i).map fun p => p.2.createdAt)
  have hid : (item payload "trace_id" >>= stringOf) = .ok e.traceId := by
    rw [item, enrich_get? henrich (by decide)]
    rfl
  obtain ⟨⟨id, row⟩, hexisting, hrow⟩ := Option.map_eq_some_iff.1 hstored
  obtain ⟨htraceId, hpayload⟩ : row.traceId = e.traceId ∧ row.payload = .json (.obj trace) := by
    simpa using hrow
  have hloads : loadsObject row.payload = .ok trace := by
    rw [hpayload]
    rfl
  refine ⟨trace, t', ?_, htrace.loggedEnqueue, hsame⟩
  refine Stmt.Sure.transaction ((select_sure _ _).bind ?_)
  rw [hevent]
  refine (select_sure _ _).bind ((Stmt.Sure.ofExcept henrich).bind
    ((Stmt.Sure.ofExcept hid).bind ((select_sure _ _).bind ?_)))
  rw [hexisting]
  refine (Stmt.Sure.ofExcept hloads).bind
    ((Stmt.Sure.ofExcept ((lasting_of_same htrace henrich).2 rfl)).bind ?_)
  rw [if_neg (by simp [htraceId])]
  exact hpromote.bind (Stmt.Sure.pure _ _)

/-- What attaching comes to while a trace is attached. -/
structure AttachOnce (t : Tables) (i : Nat) (e : EventTelemetry) : Prop where
  /-- The same trace is taken for what is stored, which stays as it is.  Only a statement that
  fails can stop this. -/
  again : ∀ w, (((DeliveryOp.attachEventTelemetry i e.toWire).run w t).1 = .ok false ∨
      true ∈ w.faults ∧ ((DeliveryOp.attachEventTelemetry i e.toWire).run w t).1 = .error .other) ∧
    ((DeliveryOp.attachEventTelemetry i e.toWire).run w t).2.telemetry = t.telemetry
  /-- A trace that says something else is refused. -/
  conflict : ∀ w (e' : EventTelemetry), outsideDelivery e'.toWire ≠ outsideDelivery e.toWire →
    (∃ x, ((DeliveryOp.attachEventTelemetry i e'.toWire).run w t).1 = .error x) ∧
    ((DeliveryOp.attachEventTelemetry i e'.toWire).run w t).2 = t
  /-- So is the trace, for another event. -/
  elsewhere : ∀ w j, j ≠ i →
    (∃ x, ((DeliveryOp.attachEventTelemetry j e.toWire).run w t).1 = .error x) ∧
    ((DeliveryOp.attachEventTelemetry j e.toWire).run w t).2 = t

theorem Attached.again (h : Attached s i e) (w : Weather) :
    (((DeliveryOp.attachEventTelemetry i e.toWire).run w s.tables).1 = .ok false ∨
      true ∈ w.faults ∧
        ((DeliveryOp.attachEventTelemetry i e.toWire).run w s.tables).1 = .error .other) ∧
    ((DeliveryOp.attachEventTelemetry i e.toWire).run w s.tables).2.telemetry =
      s.tables.telemetry := by
  have hrun : (DeliveryOp.attachEventTelemetry i e.toWire).run w s.tables =
      ((Delivery.attachEventTelemetry w.now i e.toWire w.faults s.tables).1,
        (Delivery.attachEventTelemetry w.now i e.toWire w.faults s.tables).2.2) := rfl
  rw [hrun, attachEventTelemetry_run]
  obtain ⟨trace, t', hsure, hlogged, hsame⟩ := attachTrace_sure h w.now
  obtain ⟨rest, hattach, -⟩ | ⟨hfaults, rest, t₁, hattach⟩ := hsure w.faults
  · rw [hattach]
    dsimp only
    rw [hlogged]
    exact ⟨.inl rfl, hsame⟩
  · have hback := attachTrace_cases w.now i e.payload s.tables w.faults
    rw [hattach] at hback ⊢
    cases hback
    exact ⟨.inr ⟨hfaults, rfl⟩, rfl⟩

/-- A trace that is stored is not replaced, and not attached elsewhere. -/
theorem Attached.refused (h : Attached s i e) (w : Weather) {j : Nat} {e' : EventTelemetry}
    (hother : j = i ∧ e'.lasting ≠ e.lasting ∨ j ≠ i ∧ e'.traceId = e.traceId) :
    (∃ x, ((DeliveryOp.attachEventTelemetry j e'.toWire).run w s.tables).1 = .error x) ∧
    ((DeliveryOp.attachEventTelemetry j e'.toWire).run w s.tables).2 = s.tables := by
  have hcases := attach_cases (e := e') w j (h.inv.traces j)
  obtain ⟨attempt, trace, hstored, htrace⟩ := h.has
  generalize (DeliveryOp.attachEventTelemetry j e'.toWire).run w s.tables = out at hcases ⊢
  obtain ⟨r, t'⟩ := out
  dsimp only at hcases ⊢
  cases hcases with
  | raised x => exact ⟨⟨x, rfl⟩, rfl⟩
  | @again payload t' hagain =>
      exfalso
      cases hagain with
      | @again id row _ made _ createdAt hexisting hold henrich hid hsame hpromoted hevent =>
          have hkept := stored_of_byKey hexisting
          have htraceId := traceId_of_enrich henrich hid
          obtain ⟨rfl, hdiffers⟩ | ⟨hj, hshared⟩ := hother
          · rw [hkept, hold] at hstored
            obtain ⟨-, rfl⟩ : row.traceId = e.traceId ∧ payload = trace := by simpa using hstored
            exact hdiffers ((lasting_of_same htrace henrich).1 hsame).symm
          · exact hj (h.inv.unique j i _ _ hkept hstored (htraceId.trans hshared))
  | @first payload t' hfirst =>
      exfalso
      cases hfirst with
      | first henrich hid hfree hinsert hpromoted hevent =>
          obtain ⟨⟨id, row⟩, hexisting, hrow⟩ := Option.map_eq_some_iff.1 hstored
          obtain ⟨htraceId, -⟩ : row.traceId = e.traceId ∧ row.payload = .json (.obj trace) := by
            simpa using hrow
          obtain ⟨rfl, hdiffers⟩ | ⟨hj, hshared⟩ := hother
          · rw [Table.byKey_of_insert hinsert rfl] at hexisting
            cases hexisting
          · obtain ⟨hfind, -⟩ := Table.byKey_eq_some_iff.1 hexisting
            refine hfree (id, row) (Table.find?_eq_some_iff.1 hfind) ?_
            rw [traceId_of_enrich henrich hid, hshared, htraceId]

theorem Attached.once (h : Attached s i e) : AttachOnce s.tables i e where
  again := h.again
  conflict w e' hdiffers := by
    refine h.refused w (.inl ⟨rfl, fun hsame => hdiffers ?_⟩)
    rw [outsideDelivery_toWire, outsideDelivery_toWire, hsame]
  elsewhere w j hj := h.refused w (.inr ⟨hj, rfl⟩)

/-- Attaching telemetry is idempotent and exclusive.  Whatever is done to the store, an event has
one trace and a trace one event, and only attempts are counted.  Once a trace is attached, and
whatever attempts come after it, it can be attached again, and nothing else can. -/
theorem attach_once :
    (∀ steps, OneToOne (Session.after steps).tables) ∧
    (∀ steps w op, CountsAttempts w (Session.after steps) op) ∧
    ∀ before between w i (e : EventTelemetry) inserted,
      ((DeliveryOp.attachEventTelemetry i e.toWire).run w (Session.after before).tables).1 =
        .ok inserted →
      (∀ p ∈ between, p.2.isAttempt = true) →
      AttachOnce (Session.after (before ++ (w, .attach i e) :: between)).tables i e := by
  refine ⟨fun steps => (inv_after steps).oneToOne,
    fun steps w op => (inv_after steps).countsAttempts w op, ?_⟩
  intro before between w i e inserted hrun hbetween
  rw [Session.after_append, List.foldl_cons]
  exact (((inv_after before).attached hrun).attempts hbetween).once

/-- An opening of the gate. -/
def opening : GateEvent where
  source := "camera"
  reason := "authorised"
  opened := true
  idempotencyKey := some "image"
  receivedAt := ⟨10, some 0⟩

/-- The trace of the passage it let through. -/
def passage : EventTelemetry where
  traceId := "trace"
  stageDurations := ⟨some (some 5), none, none, none, none, none, none, none, none, none, none⟩
  frames := []
  ocrAttempts := []
  decisionOutcome := "allow"
  decisionReason := "authorised"
  actuationClaim := "claimed"
  actuationAttempted := true
  relayOutcome := "activated"
  outboxAttempt := some 0
  deliveryState := "pending"
  stageTimestamps := ⟨some ⟨10, some 0⟩, none, none, none, none, none, none, none⟩
  trigger := none

/-- No statement fails. -/
def clear : Weather := ⟨⟨10, some 0⟩, none, []⟩

/-- The opening is recorded, and waits to be sent. -/
def opened : List (Weather × SessionOp) :=
  [(clear, .store (.recordEventWithOutbox opening (some [])) rfl)]

/-- It is sent at the second attempt. -/
def resent : List (Weather × SessionOp) :=
  [(clear, .prepare 1 ⟨10, some 0⟩), (clear, .retry 1), (clear, .prepare 1 ⟨11, some 0⟩),
    (clear, .complete 1 ⟨12, some 0⟩ true)]

theorem attach_once_passage :
    AttachOnce (Session.after (opened ++ (clear, .attach 1 passage) :: resent)).tables 1 passage :=
  attach_once.2.2 opened resent clear 1 passage true rfl (by simp [resent, SessionOp.isAttempt])

end Delivery

end GateController

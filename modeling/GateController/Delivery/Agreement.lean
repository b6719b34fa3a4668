import GateController.Delivery.Attach
import GateController.Store.Frame

/-!
# Waiting rows and stored traces

The trace of an event is written in two places, its own table and the payload of the row
that waits to be sent.  Each operation that writes one of them writes the other in the same
transaction, or takes the trace out of the payload, or gives up and changes neither.  So
between calls a waiting row either has no trace, in version 2, or carries the stored one, in
version 3.

A row gets its version from its event.  `ensure_outbox` also takes an id that no event has,
and then the row has no version until it is tried.
-/

namespace GateController

open Data Effects LocalStore Delivery

/-! ## Rows that agree -/

/-- The payload of a row has no trace, or the stored one. -/
def Agrees (trace : Option JsonText) (row : OutboxRow) : Prop :=
  ∃ payload, row.payload = .json (.obj payload) ∧ (IsUntraced payload ∨
    ∃ telemetry, Carries payload telemetry ∧ trace = some (.json (.obj telemetry)))

/-- Every row that waits to be sent agrees with the stored trace of its event. -/
def PendingAgree (t : Tables) : Prop :=
  ∀ id row, t.db.outbox.find? id = some row → row.completedAt = none →
    Agrees (traceOf t row.eventId) row

/-- A payload in which the caller has put neither a trace nor a version. -/
def Plain (payload : Fields) : Prop :=
  Fields.get? payload "telemetry" = none ∧ Fields.get? payload "schema_version" = none

/-- The two names, in a payload that is bound to a controller. -/
theorem get?_boundPayload {controllerId name : String} {payload bound : Fields}
    (h : boundPayload controllerId payload = some bound)
    (hname : name = "telemetry" ∨ name = "schema_version") :
    Fields.get? bound name = Fields.get? payload name := by
  have hpath : name ≠ "_local_image_path" := by
    rcases hname with rfl | rfl <;> decide
  have hstatus : name ≠ "image_status" := by
    rcases hname with rfl | rfl <;> decide
  have hcontroller : name ≠ "controller_id" := by
    rcases hname with rfl | rfl <;> decide
  have hmarked : Fields.get? (if hasLegacyPath payload &&
      (Fields.get? (Fields.erase payload "_local_image_path") "image_sha256").isNone then
        Fields.set (Fields.erase payload "_local_image_path") "image_status"
          (.str "legacy_evidence_unavailable")
      else Fields.erase payload "_local_image_path") name = Fields.get? payload name := by
    split
    · rw [Fields.get?_set_ne hstatus, Fields.get?_erase_ne hpath]
    · rw [Fields.get?_erase_ne hpath]
  obtain ⟨marked, hmarked, h⟩ : ∃ marked, Fields.get? marked name = Fields.get? payload name ∧
      (if truthyValue (Fields.get? marked "controller_id") then
        if hasLegacyPath payload then some marked else none
      else some (Fields.set marked "controller_id" (.str controllerId))) = some bound :=
    ⟨_, hmarked, h⟩
  split at h
  · split at h
    · cases h
      exact hmarked
    · cases h
  · cases h
    rw [Fields.get?_set_ne hcontroller, hmarked]

section Rows

variable {t : Tables} {op : DeliveryOp} {id : Nat} {row row' : OutboxRow}
  {trace trace' : Option JsonText}

/-- A change of a row and its trace, made in one transaction. -/
theorem Delivery.RowChange.agrees (h : RowChange op id trace trace' row row')
    (hop : ∀ controllerId rows, op ≠ .rebindRows controllerId rows)
    (hrow : row.completedAt = none → Agrees trace row) (hpending : row'.completedAt = none) :
    Agrees trace' row' := by
  cases h with
  | kept htrace =>
      rw [htrace]
      exact hrow hpending
  | settled hdone => exact absurd hpending hdone
  | completed => cases hpending
  | purged _ hdone => exact absurd hpending hdone
  | @traced payload base telemetry state _ _ _ _ htrace =>
      exact ⟨_, rfl, .inr ⟨telemetry, carries_traced base telemetry, htrace⟩⟩
  | @untraced payload => exact ⟨_, rfl, .inl (isUntraced_untraced payload)⟩
  | @bound payload selected controllerId hselected hbound htrace =>
      cases op with
      | rebindRows c rows => exact absurd rfl (hop c rows)
      | bindPendingOutboxController c =>
          obtain ⟨-, hwas, hsource⟩ := hselected
          obtain ⟨old, hold, hagrees⟩ := hrow hwas
          rw [hold] at hsource
          cases hsource
          have hversion := get?_boundPayload hbound (.inr rfl)
          have htelemetry := get?_boundPayload hbound (.inl rfl)
          refine ⟨payload, rfl, ?_⟩
          rw [htrace]
          rcases hagrees with huntraced | ⟨telemetry, hcarries, hstored⟩
          · exact .inl ⟨hversion.trans huntraced.1, htelemetry.trans huntraced.2⟩
          · exact .inr ⟨telemetry, ⟨hversion.trans hcarries.1, htelemetry.trans hcarries.2⟩,
              hstored⟩
      | _ => exact hselected.elim

/-- A new row of an event begins without a trace. -/
theorem isUntraced_outboxPayload {db : Db} {eventId : Nat} {payload : Fields} {e : EventRow}
    (hevent : db.events.find? eventId = some e) (hplain : Plain payload) :
    IsUntraced (outboxPayload db eventId payload) := by
  have hsupplied : ∀ name, name = "telemetry" ∨ name = "schema_version" →
      Fields.get? (Fields.erase payload "_awaiting_telemetry") name = none := by
    rintro name (rfl | rfl)
    · rw [Fields.get?_erase_ne (by decide)]
      exact hplain.1
    · rw [Fields.get?_erase_ne (by decide)]
      exact hplain.2
  have hencoded : IsUntraced (Fields.update ((eventPayload db eventId).getD [])
      (Fields.erase payload "_awaiting_telemetry")) := by
    unfold IsUntraced
    rw [Fields.get?_update_of_eq_none _ (hsupplied _ (.inr rfl)),
      Fields.get?_update_of_eq_none _ (hsupplied _ (.inl rfl)), eventPayload, hevent]
    exact ⟨rfl, rfl⟩
  have hset : IsUntraced (Fields.set (Fields.update ((eventPayload db eventId).getD [])
      (Fields.erase payload "_awaiting_telemetry")) "event_id" (.num eventId)) := by
    unfold IsUntraced
    rw [Fields.get?_set_ne (by decide), Fields.get?_set_ne (by decide)]
    exact hencoded
  unfold outboxPayload
  dsimp only
  split
  · exact hset
  · exact hset
  · exact hencoded

/-- While a row waits to be sent, no call deletes the trace of its event. -/
theorem DeliveryOp.run_trace {w : Weather} (hrow : t.db.outbox.find? id = some row)
    (hpending : row.completedAt = none) (h : traceOf t row.eventId ≠ none) :
    traceOf (op.run w t).2 row.eventId ≠ none := by
  cases hstore : op.isStore with
  | true =>
      cases op with
      | store op other =>
          have hsame : ((DeliveryOp.store op other).run w t).2.telemetry = t.telemetry :=
            DeliveryOp.run_store.2
          rw [traceOf, hsame]
          exact h
      | _ => cases hstore
  | false =>
      obtain ⟨row', -, hchange⟩ := (DeliveryOp.run_evolves (w := w) hstore).row id row hrow
      cases hchange with
      | kept htrace => rwa [htrace]
      | traced _ _ _ _ htrace =>
          rw [htrace]
          exact Option.some_ne_none _
      | untraced _ _ htrace => rwa [htrace]
      | settled hdone => exact absurd hpending hdone
      | purged _ hdone => exact absurd hpending hdone
      | bound _ _ htrace => rwa [htrace]
      | @completed payload completedAt prepared hop =>
          subst hop
          have hrecorded := setOutboxDeliveryState_cases id "delivered" (some completedAt) prepared
            t w.faults
          change traceOf ((setOutboxDeliveryState id "delivered" (some completedAt) prepared)
            w.faults t).2.2 row.eventId ≠ none
          generalize ((setOutboxDeliveryState id "delivered" (some completedAt) prepared)
            w.faults t).2.2 = t' at hrecorded
          cases hrecorded with
          | kept => exact h
          | @recorded _ _ t₁ _ _ hsettling =>
              change traceOf t₁ row.eventId ≠ none
              cases hsettling with
              | kept => exact h
              | rewritten =>
                  rw [traceOf_writeTrace]
                  split
                  · simpa using h
                  · exact h

end Rows

/-! ## Reachable tables -/

/-- What the callers see to: their claims and events are their own, and they put neither of
the two names into a payload.  A binding selects and writes in one. -/
def DeliveryOp.Proper (t : Tables) (issued : List ActuationClaim) : DeliveryOp → Prop
  | .store op _ => op.Admissible t.db issued ∧ ∀ payload, op.carried = some payload → Plain payload
  | .rebindRows _ _ => False
  | _ => True

/-- The claims that a call hands out. -/
def DeliveryOp.issues : (op : DeliveryOp) → Except Exc op.Ans → List ActuationClaim
  | .store op _, r => op.issues r
  | _, _ => []

/-- The tables that calls lead to, with the claims handed out. -/
inductive DeliveryReachable : Tables → List ActuationClaim → Prop where
  | fresh : DeliveryReachable Tables.fresh []
  | call {t : Tables} {issued : List ActuationClaim} (op : DeliveryOp) (w : Weather)
      (h : DeliveryReachable t issued) (hop : op.Proper t issued) :
      DeliveryReachable (op.run w t).2 (op.issues (op.run w t).1 ++ issued)

/-- The invariant of reachable tables. -/
structure Agreeing (t : Tables) : Prop where
  store : StoreInv t.db
  claims : ∀ i row payload, t.db.claims.find? i = some row →
    row.pendingOutboxPayload = some (.json (.obj payload)) → Plain payload
  rows : PendingAgree t

namespace Agreeing

variable {t : Tables} {issued : List ActuationClaim} {w : Weather} {op : DeliveryOp}

theorem fresh : Agreeing Tables.fresh where
  store := .fresh
  claims _ _ _ hrow := by cases hrow
  rows _ _ hrow := by cases hrow

/-- A payload that recovery finds in a claim. -/
theorem plain_pendingOf (h : Agreeing t) {i : Nat} {row : ClaimRow} {event : GateEvent}
    {payload : Fields} {ack : Option CommandAck} (hrow : t.db.claims.find? i = some row)
    (hpending : pendingOf row = some (event, some payload, ack)) : Plain payload :=
  h.claims i row payload hrow (pendingOutboxPayload_of_pendingOf hpending)

/-- The payload of a new row is one that a caller has supplied. -/
theorem plain_supplied (h : Agreeing t) {op : StoreOp} {eventId : Nat} {payload : Fields}
    (hplain : ∀ payload, op.carried = some payload → Plain payload)
    (hsupplied : op.Supplies t.db eventId payload) : Plain payload := by
  cases op with
  | finalizeActuation a => exact hplain payload hsupplied
  | recordTerminalOutcome a => exact hplain payload hsupplied
  | recordEventWithOutbox event p => exact hplain payload hsupplied
  | ensureOutbox id p => exact hplain payload hsupplied.2
  | recoverInterruptedActuations =>
      obtain ⟨i, row, event, ack, hrow, hpending⟩ := hsupplied
      exact h.plain_pendingOf hrow hpending
  | _ => exact hsupplied.elim

/-- A call of the store. -/
theorem store_step (h : Agreeing t) {op : StoreOp} (other : op.attaches = false)
    (hwf : op.WellFormed t.db) (hplain : ∀ payload, op.carried = some payload → Plain payload) :
    Agreeing ((DeliveryOp.store op other).run w t).2 := by
  obtain ⟨hstep, htelemetry⟩ := DeliveryOp.run_store (w := w) (t := t)
  have hstore : StoreInv ((DeliveryOp.store op other).run w t).2.db :=
    (StoreOp.run_inv h.store hwf Prod.mk.eta.symm).1
  refine ⟨hstore, fun i row payload hrow htext => ?_, fun id row hrow hpending => ?_⟩
  · rcases StoreOp.run_pendingPayload Prod.mk.eta.symm hrow with hold | hnone | ⟨-, hcarried⟩
    · exact h.claims i row payload hold htext
    · rw [hnone] at htext
      cases htext
    · rw [hcarried] at htext
      obtain ⟨p, hp, heq⟩ := Option.map_eq_some_iff.1 htext
      cases heq
      exact hplain payload hp
  · rw [traceOf, htelemetry]
    cases hold : t.db.outbox.find? id with
    | some old =>
        rcases hstep.row id old hold with hsame | ⟨hwas, -, hready⟩
        · cases hrow.symm.trans hsame
          exact h.rows id row hold hpending
        · cases hrow.symm.trans hready
          exact h.rows id old hold hwas
    | none =>
        obtain ⟨payload, hnew⟩ := hstep.new id row hold hrow
        obtain ⟨e, he⟩ := hstore.outbox id row hrow
        exact ⟨_, hnew.text, .inl (isUntraced_outboxPayload he (h.plain_supplied hplain
          hnew.supplied))⟩

/-- An operation of the delivery. -/
theorem delivery_step (h : Agreeing t) (hop : op.isStore = false)
    (hproper : op.Proper t issued) : Agreeing (op.run w t).2 := by
  have hevolves := DeliveryOp.run_evolves (w := w) (t := t) hop
  have hbind : ∀ controllerId rows, op ≠ .rebindRows controllerId rows := by
    rintro controllerId rows rfl
    exact hproper
  have hold : ∀ {id row'}, (op.run w t).2.db.outbox.find? id = some row' →
      ∃ row, t.db.outbox.find? id = some row ∧ RowChange op id (traceOf t row.eventId)
        (traceOf (op.run w t).2 row.eventId) row row' := by
    intro id row' hrow'
    cases hrow : t.db.outbox.find? id with
    | none =>
        rw [hevolves.absent id hrow] at hrow'
        cases hrow'
    | some row =>
        obtain ⟨row₁, hrow₁, hchange⟩ := hevolves.row id row hrow
        cases hrow'.symm.trans hrow₁
        exact ⟨row, rfl, hchange⟩
  refine ⟨⟨fun i row hrow => ?_, fun id row' hrow' => ?_⟩, fun i row payload hrow => ?_,
    fun id row' hrow' hpending => ?_⟩
  · rw [hevolves.others] at hrow ⊢
    exact h.store.claims i row hrow
  · obtain ⟨row, hrow, hchange⟩ := hold hrow'
    rw [hevolves.others, hchange.eventId]
    exact h.store.outbox id row hrow
  · rw [hevolves.others] at hrow
    exact h.claims i row payload hrow
  · obtain ⟨row, hrow, hchange⟩ := hold hrow'
    rw [hchange.eventId]
    exact hchange.agrees hbind (h.rows id row hrow) hpending

end Agreeing

/-- Reachable tables agree, and the claims handed out name their rows. -/
theorem DeliveryReachable.agreeing {t : Tables} {issued : List ActuationClaim}
    (h : DeliveryReachable t issued) :
    Agreeing t ∧ ∀ claim ∈ issued, ClaimOf t.db claim := by
  induction h with
  | fresh => exact ⟨.fresh, fun claim hmem => by cases hmem⟩
  | @call t issued op w _ hop ih =>
      obtain ⟨hagreeing, hissued⟩ := ih
      cases hstore : op.isStore with
      | false =>
          refine ⟨hagreeing.delivery_step hstore hop, fun claim hmem => ?_⟩
          have hnone : op.issues (op.run w t).1 = [] := by
            cases op with
            | store op other => cases hstore
            | _ => rfl
          rw [hnone, List.nil_append] at hmem
          have hclaims := (DeliveryOp.run_evolves (w := w) (t := t) hstore).others
          rw [hclaims]
          exact hissued claim hmem
      | true =>
          cases op with
          | store op other =>
              have hwf : op.WellFormed t.db := by
                cases op with
                | markActuationAttempt a => exact ⟨hissued _ hop.1.1, hop.1.2⟩
                | finalizeActuation a => exact hissued _ hop.1
                | _ => exact hop.1
              refine ⟨hagreeing.store_step other hwf hop.2, fun claim hmem => ?_⟩
              obtain ⟨-, hkept⟩ := StoreOp.run_inv hagreeing.store hwf
                (Prod.mk.eta (p := op.run w.now w.fault t.db)).symm
              rcases List.mem_append.1 hmem with hnew | hold
              · exact StoreOp.claimOf_issues hagreeing.store hwf Prod.mk.eta.symm hnew
              · exact (hissued claim hold).mono hkept
          | _ => cases hstore

/-- In every state that calls lead to from an empty file, failing calls included, a row that
waits to be sent is in version 2 without a trace, or in version 3 with the stored trace of
its event.  No call deletes the trace of an event whose row waits. -/
theorem pending_rows_agree (t : Tables) (issued : List ActuationClaim)
    (h : DeliveryReachable t issued) :
    PendingAgree t ∧
    ∀ (op : DeliveryOp) (w : Weather) (id : Nat) (row : OutboxRow),
      t.db.outbox.find? id = some row → row.completedAt = none →
      traceOf t row.eventId ≠ none → traceOf (op.run w t).2 row.eventId ≠ none :=
  ⟨h.agreeing.1.rows, fun _ _ _ _ hrow hpending htrace =>
    DeliveryOp.run_trace hrow hpending htrace⟩

/-! ### A row that is tried, and one without an event -/

namespace Tried

theorem opening_other : (StoreOp.recordEventWithOutbox opening (some [])).attaches = false := rfl

/-- An opening is recorded. -/
def queued : Tables :=
  ((DeliveryOp.store (.recordEventWithOutbox opening (some [])) opening_other).run clear
    Tables.fresh).2

/-- Its trace is attached. -/
def traced : Tables := ((DeliveryOp.attachEventTelemetry 1 passage.toWire).run clear queued).2

/-- It is prepared to be sent. -/
def prepared : Tables := ((DeliveryOp.prepareOutboxAttempt 1 ⟨11, some 0⟩).run clear traced).2

theorem reachable_prepared : DeliveryReachable prepared [] := by
  refine .call (.prepareOutboxAttempt 1 ⟨11, some 0⟩) clear ?_ trivial
  refine .call (.attachEventTelemetry 1 passage.toWire) clear ?_ trivial
  refine .call (.store (.recordEventWithOutbox opening (some [])) opening_other) clear .fresh ?_
  refine ⟨trivial, fun payload hpayload => ?_⟩
  cases hpayload
  exact ⟨rfl, rfl⟩

/-- The row carries the trace that is stored now. -/
theorem pending_rows_agree_prepared :
    (traceOf prepared 1).isSome = true ∧ PendingAgree prepared :=
  ⟨by decide +kernel, (pending_rows_agree prepared [] reachable_prepared).1⟩

end Tried

/-- The row of an event that nobody has recorded has no version. -/
theorem unknown_event_disagrees : Plain [] ∧
    ¬ PendingAgree ((DeliveryOp.store (.ensureOutbox 7 (some [])) rfl).run clear Tables.fresh).2 := by
  refine ⟨⟨rfl, rfl⟩, fun h => ?_⟩
  obtain ⟨payload, htext, hagrees⟩ := h 1 _ rfl rfl
  cases htext
  rcases hagrees with ⟨hversion, -⟩ | ⟨telemetry, ⟨hversion, -⟩, -⟩
  · cases hversion
  · cases hversion

end GateController

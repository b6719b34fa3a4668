import GateController.Delivery.Traces
import Mathlib.Data.List.Induction

/-!
# A worker and the traces

One worker prepares, retries and completes the rows of the outbox, and hands over for a row
what it prepared last for it.  Beside it, traces are attached and purged, rows are bound,
and the tables of the events change.  Each stored trace is the one that was attached, and
its attempts are those that were counted.
-/

namespace GateController

open Data Effects LocalStore EventTelemetry

namespace Delivery

/-- The tables, and what the worker prepared last for each row. -/
structure Session where
  tables : Tables
  prepared : Nat → Option Fields

/-- What is done to the store. -/
inductive SessionOp : Type where
  | store (op : StoreOp) (other : op.attaches = false)
  | attach (eventId : Nat) (e : EventTelemetry)
  | prepare (itemId : Nat) (attemptedAt : DateTime)
  | retry (itemId : Nat)
  | complete (itemId : Nat) (completedAt : DateTime) (handsOver : Bool)
  | purgeDelivered (cutoff : DateTime)
  | purgeUnqueued (cutoff : DateTime)
  | bindPending (controllerId : String)
  | rebind (controllerId : String) (rows : List (Nat × JsonText))

namespace SessionOp

/-- The call of the store. -/
def call (prepared : Nat → Option Fields) : SessionOp → DeliveryOp
  | .store op other => .store op other
  | .attach eventId e => .attachEventTelemetry eventId e.toWire
  | .prepare itemId attemptedAt => .prepareOutboxAttempt itemId attemptedAt
  | .retry itemId => .markOutboxRetry itemId
  | .complete itemId completedAt handsOver =>
      .completeOutboxItem itemId completedAt (if handsOver then prepared itemId else none)
  | .purgeDelivered cutoff => .purgeDeliveredTelemetry cutoff
  | .purgeUnqueued cutoff => .purgeUnqueuedTelemetry cutoff
  | .bindPending controllerId => .bindPendingOutboxController controllerId
  | .rebind controllerId rows => .rebindRows controllerId rows

/-- The worker's operations on a row. -/
def isAttempt : SessionOp → Bool
  | .prepare _ _ => true
  | .retry _ => true
  | .complete _ _ _ => true
  | _ => false

/-- The purges. -/
def isPurge : SessionOp → Bool
  | .purgeDelivered _ => true
  | .purgeUnqueued _ => true
  | _ => false

end SessionOp

namespace Session

/-- An empty file, and a worker that has prepared nothing. -/
def fresh : Session := ⟨Tables.fresh, fun _ => none⟩

/-- What the worker has in hand after a call. -/
def inHand (w : Weather) (s : Session) : SessionOp → Nat → Option Fields
  | .prepare itemId attemptedAt =>
      match ((DeliveryOp.prepareOutboxAttempt itemId attemptedAt).run w s.tables).1 with
      | .ok (some payload) => fun i => if i = itemId then some payload else s.prepared i
      | _ => s.prepared
  | _ => s.prepared

/-- One operation. -/
def next (w : Weather) (s : Session) (op : SessionOp) : Session where
  tables := ((op.call s.prepared).run w s.tables).2
  prepared := s.inHand w op

/-- The session after some operations. -/
def after (steps : List (Weather × SessionOp)) : Session :=
  steps.foldl (fun s step => s.next step.1 step.2) fresh

end Session

/-! ## What is stored for an event -/

variable {t t' : Tables} {s : Session} {w : Weather} {e e' : EventTelemetry} {attempt : Int}
  {trace : Fields}

/-- The id of the trace of an event, and its text. -/
def stored (t : Tables) (eventId : Nat) : Option (String × JsonText) :=
  (t.telemetry.byKey eventId).map fun p => (p.2.traceId, p.2.payload)

theorem traceOf_eq (t : Tables) (eventId : Nat) :
    traceOf t eventId = (stored t eventId).map Prod.snd := by
  rw [traceOf, stored, Option.map_map]
  rfl

theorem stored_of_telemetry (h : t'.telemetry = t.telemetry) (eventId : Nat) :
    stored t' eventId = stored t eventId := by
  rw [stored, stored, h]

theorem stored_writeTrace {eventId : Nat} (i : Nat) :
    stored (writeTrace eventId trace t) i =
      if i = eventId then (stored t i).map fun p => (p.1, .json (.obj trace)) else stored t i := by
  unfold stored writeTrace
  rw [Table.byKey_update]
  cases h : t.telemetry.byKey i with
  | none => simp
  | some p =>
      obtain ⟨id, row⟩ := p
      have hrow : row.eventId = i := by simpa using (Table.byKey_eq_some_iff.1 h).2
      by_cases hi : i = eventId
      · simp [hrow, hi]
      · simp [hrow, hi]

theorem stored_writeTrace_ne {eventId i : Nat} (h : i ≠ eventId) :
    stored (writeTrace eventId trace t) i = stored t i := by
  rw [stored_writeTrace, if_neg h]

theorem stored_writeTrace_none {eventId i : Nat} (h : stored t i = none) :
    stored (writeTrace eventId trace t) i = none := by
  rw [stored_writeTrace, h]
  split <;> rfl

theorem stored_inserted {row : TelemetryRow} {id : Nat}
    {telemetry : Table TelemetryRow Nat (fun row => some row.eventId)}
    (h : t.telemetry.insert row = some (id, telemetry)) (i : Nat) :
    stored { t with telemetry } i =
      if i = row.eventId then some (row.traceId, row.payload) else stored t i := by
  unfold stored
  rw [Table.byKey_insert h]
  by_cases hi : i = row.eventId
  · rw [if_pos hi, if_pos (congrArg some hi.symm)]
    rfl
  · rw [if_neg hi, if_neg fun h => hi (Option.some.inj h).symm]

theorem stored_delete {sel : Nat → TelemetryRow → Bool} (i : Nat) :
    stored { t with telemetry := t.telemetry.delete sel } i = stored t i ∨
      stored { t with telemetry := t.telemetry.delete sel } i = none := by
  unfold stored
  rw [Table.byKey_delete]
  cases t.telemetry.byKey i with
  | none => exact .inl rfl
  | some p =>
      cases hsel : sel p.1 p.2 with
      | true => exact .inr (by simp [Option.filter, hsel])
      | false => exact .inl (by simp [Option.filter, hsel])

theorem Promoted.stored {eventId : Nat} (h : Promoted t eventId trace t') (i : Nat) :
    Delivery.stored t' i = Delivery.stored t i := by
  cases h <;> rfl

theorem stored_of_byKey {i id : Nat} {row : TelemetryRow}
    (h : t.telemetry.byKey i = some (id, row)) : stored t i = some (row.traceId, row.payload) := by
  rw [stored, h]
  rfl

theorem enrich_get? {createdAt : Option String} {made payload : Fields} {name : String}
    (h : enrichOutboxDelivery createdAt made = .ok payload) (hname : name ≠ "stage_timestamps") :
    Fields.get? payload name = Fields.get? made name := by
  cases createdAt with
  | none =>
      cases h
      rfl
  | some text =>
      rw [enrichOutboxDelivery] at h
      cases hstamps : dictOf (Fields.get? made "stage_timestamps") with
      | error x =>
          rw [hstamps] at h
          cases h
      | ok stamps =>
          rw [hstamps] at h
          cases h
          exact Fields.get?_set_ne hname

/-- The id under which a trace is stored. -/
theorem traceId_of_enrich {createdAt : Option String} {payload : Fields} {traceId : String}
    (h : enrichOutboxDelivery createdAt e.payload = .ok payload)
    (hid : (item payload "trace_id" >>= stringOf) = .ok traceId) : traceId = e.traceId := by
  have hmade : Fields.get? e.payload "trace_id" = some (.str e.traceId) := rfl
  rw [item, enrich_get? h (by decide), hmade] at hid
  exact (Except.ok.inj hid).symm

/-! ## What the operations leave alone -/

/-- A purge takes traces away, and changes none. -/
def Thins (t t' : Tables) : Prop := ∀ i, stored t' i = stored t i ∨ stored t' i = none

theorem purgeRows_thins {rows : List (Nat × Nat × JsonText)} {t₁ : Tables} (h : Thins t t₁) :
    (purgeRows rows).Ensures t₁ fun r t' => ∀ a, r = .ok a → Thins t t' := by
  induction rows generalizing t₁ with
  | nil => exact Stmt.Ensures.pure fun _ _ => h
  | cons p rest ih =>
      obtain ⟨eventId, outboxId, text⟩ := p
      unfold purgeRows
      cases hload : (loads text >>= v2OutboxPayload) with
      | error x => exact ih h
      | ok payload =>
          refine Stmt.Ensures.bind (R := fun r t₂ => ∀ a, r = .ok a → Thins t t₂)
            (Stmt.Ensures.statement (fun _ h => by cases h) fun _ _ => h) ?_
            fun _ _ _ _ h => by cases h
          intro _ t₂ h₂
          refine Stmt.Ensures.bind (R := fun r t₃ => ∀ a, r = .ok a → Thins t t₃)
            (Stmt.Ensures.statement (fun _ h => by cases h) fun _ _ i => ?_) ?_
            fun _ _ _ _ h => by cases h
          · obtain hsame | hnone := stored_delete (t := t₂) i
            · rw [hsame]
              exact h₂ _ rfl i
            · exact .inr hnone
          · intro removed t₃ h₃
            refine Stmt.Ensures.bind (ih (h₃ _ rfl)) ?_ fun _ _ _ _ h => by cases h
            intro more t₄ h₄
            exact Stmt.Ensures.pure fun _ _ => h₄ _ rfl

theorem purgeDeliveredTelemetry_thins (cutoff : DateTime) (t : Tables) :
    (purgeDeliveredTelemetry cutoff).Ensures t fun _ t' => Thins t t' := by
  refine Stmt.Ensures.transaction (R := fun r t' => ∀ a, r = .ok a → Thins t t') ?_
    (fun a t' h => h a rfl) fun _ _ => .inl rfl
  refine Stmt.Ensures.bind (R := fun r t₁ => t₁ = t)
    (Stmt.Ensures.statement rfl rfl) ?_ fun _ _ _ _ h => by cases h
  rintro rows t₁ rfl
  exact purgeRows_thins fun _ => .inl rfl

theorem purgeUnqueuedTelemetry_thins (cutoff : DateTime) (t : Tables) :
    (purgeUnqueuedTelemetry cutoff).Ensures t fun _ t' => Thins t t' := by
  refine Stmt.Ensures.transaction (R := fun r t' => ∀ a, r = .ok a → Thins t t') ?_
    (fun a t' h => h a rfl) fun _ _ => .inl rfl
  exact Stmt.Ensures.statement (fun _ h => by cases h) fun _ _ => stored_delete

theorem bindPendingOutboxController_telemetry (controllerId : String) (t : Tables) :
    (bindPendingOutboxController controllerId).Ensures t fun _ t' =>
      t'.telemetry = t.telemetry := by
  refine Stmt.Ensures.bind (R := fun r t₁ => t₁ = t) (Stmt.Ensures.statement rfl rfl) ?_
    fun x t₁ h => h ▸ rfl
  rintro rows t₁ rfl
  exact (rebindRows_binding controllerId _ t₁).mono fun _ _ h => h.telemetry

/-- A row that is pending was pending before. -/
theorem RowChange.pending {op : DeliveryOp} {id : Nat} {before now : Option JsonText}
    {row row' : OutboxRow} (h : RowChange op id before now row row')
    (hpending : row'.completedAt = none) : row.completedAt = none := by
  cases h with
  | kept => exact hpending
  | traced hstate hrow => exact hrow
  | untraced hrow => exact hrow
  | completed hop hrow => exact hrow
  | settled hdone => exact hpending
  | purged hop hdone => exact hpending
  | bound => exact hpending

/-! ## One trace over one operation -/

theorem TraceOf.unique {e' : EventTelemetry} {attempt' : Int} (h : TraceOf e attempt trace)
    (h' : TraceOf e' attempt' trace) : e'.lasting = e.lasting ∧ attempt' = attempt := by
  constructor
  · exact Except.ok.inj (h'.lasting.symm.trans h.lasting)
  · obtain ⟨state, hstate⟩ := h.delivery
    obtain ⟨state', hstate'⟩ := h'.delivery
    rw [hstate, deliveryOf, deliveryOf] at hstate'
    injection hstate' with hstate'
    injection hstate' with hstate'
    injection hstate' with hhead _
    injection hhead with _ hattempt
    injection hattempt with hattempt
    exact_mod_cast hattempt.symm

theorem TraceOf.of_lasting {e' : EventTelemetry} (h : TraceOf e' attempt trace)
    (hlasting : e'.lasting = e.lasting) : TraceOf e attempt trace :=
  ⟨h.contract, h.stamps, h.lasting.trans (congrArg Except.ok hlasting), h.delivery, h.bounds⟩

/-- The trace of an event is the one that was attached, after so many attempts. -/
def Has (t : Tables) (eventId : Nat) (e : EventTelemetry) (attempt : Int) : Prop :=
  ∃ trace, stored t eventId = some (e.traceId, .json (.obj trace)) ∧ TraceOf e attempt trace

theorem Has.of_stored {i : Nat} (h : Has t i e attempt) (hsame : stored t' i = stored t i) :
    Has t' i e attempt := by
  obtain ⟨trace, hstored, htrace⟩ := h
  exact ⟨trace, hsame.trans hstored, htrace⟩

/-- The trace of an event is written anew. -/
theorem Has.writeTrace {eventId : Nat} {attempt' : Int} (h : Has t eventId e attempt)
    (htrace : TraceOf e attempt' trace) :
    Has (Delivery.writeTrace eventId trace t) eventId e attempt' := by
  obtain ⟨old, hold, -⟩ := h
  refine ⟨trace, ?_, htrace⟩
  rw [stored_writeTrace, if_pos rfl, hold]
  rfl

theorem Has.traceOf {i : Nat} {text : JsonText} (h : Has t i e attempt)
    (htext : Delivery.traceOf t i = some text) :
    ∃ trace, text = .json (.obj trace) ∧ TraceOf e attempt trace := by
  obtain ⟨trace, hstored, htrace⟩ := h
  rw [traceOf_eq, hstored] at htext
  cases htext
  exact ⟨trace, rfl, htrace⟩

/-- The operation is an attempt that is counted for the event: what it returns for the row of
the event has version 3. -/
def Counts (w : Weather) (s : Session) (op : SessionOp) (eventId : Nat) : Prop :=
  ∃ itemId attemptedAt row payload, op = .prepare itemId attemptedAt ∧
    s.tables.db.outbox.find? itemId = some row ∧ row.eventId = eventId ∧
    ((DeliveryOp.prepareOutboxAttempt itemId attemptedAt).run w s.tables).1 =
      .ok (some payload) ∧
    Fields.get? payload "schema_version" = some (.num 3)

/-- What the worker has in hand for a row that is pending is the trace as it is stored. -/
def InHand (s : Session) : Prop :=
  ∀ itemId payload, s.prepared itemId = some payload →
    ∃ row, s.tables.db.outbox.find? itemId = some row ∧ (row.completedAt = none →
      ∀ value, Fields.get? payload "telemetry" = some value →
        ∃ e attempt trace, value = .obj trace ∧ TraceOf e attempt trace ∧
          Has s.tables row.eventId e attempt)

/-- The trace goes on, and is counted if the operation counts it. -/
def GoesOn (w : Weather) (s : Session) (op : SessionOp) (t' : Tables) (i : Nat)
    (e : EventTelemetry) (attempt : Int) : Prop :=
  ∃ attempt', Has t' i e attempt' ∧
    (Counts w s op i → attempt' = min (attempt + 1) maxDeliveryAttempt) ∧
    (¬ Counts w s op i → attempt' = attempt)

theorem GoesOn.of_stored {op : SessionOp} {i : Nat} (h : Has s.tables i e attempt)
    (hsame : stored t' i = stored s.tables i) (hcounts : ¬ Counts w s op i) :
    GoesOn w s op t' i e attempt :=
  ⟨attempt, h.of_stored hsame, fun hc => absurd hc hcounts, fun _ => rfl⟩

theorem not_counts {op : SessionOp} {i : Nat} (h : ∀ itemId at_, op ≠ .prepare itemId at_) :
    ¬ Counts w s op i := by
  rintro ⟨itemId, attemptedAt, row, payload, hop, -⟩
  exact h itemId attemptedAt hop

/-- An attempt at a row. -/
theorem prepare_goesOn {itemId i : Nat} {attemptedAt : DateTime} (h : Has s.tables i e attempt) :
    GoesOn w s (.prepare itemId attemptedAt)
      ((DeliveryOp.prepareOutboxAttempt itemId attemptedAt).run w s.tables).2 i e attempt := by
  have hcases : Attempt s.tables itemId attemptedAt
      ((DeliveryOp.prepareOutboxAttempt itemId attemptedAt).run w s.tables).1
      ((DeliveryOp.prepareOutboxAttempt itemId attemptedAt).run w s.tables).2 :=
    prepareOutboxAttempt_cases itemId attemptedAt s.tables w.faults
  have hcounts : Counts w s (.prepare itemId attemptedAt) i ↔ ∃ row payload,
      s.tables.db.outbox.find? itemId = some row ∧ row.eventId = i ∧
      ((DeliveryOp.prepareOutboxAttempt itemId attemptedAt).run w s.tables).1 =
        .ok (some payload) ∧ Fields.get? payload "schema_version" = some (.num 3) := by
    constructor
    · rintro ⟨itemId', attemptedAt', row, payload, hop, hrest⟩
      cases hop
      exact ⟨row, payload, hrest⟩
    · rintro ⟨row, payload, hrest⟩
      exact ⟨itemId, attemptedAt, row, payload, rfl, hrest⟩
  generalize (DeliveryOp.prepareOutboxAttempt itemId attemptedAt).run w s.tables = out
    at hcases hcounts ⊢
  obtain ⟨r, t'⟩ := out
  dsimp only at hcases hcounts ⊢
  cases hcases with
  | raised x =>
      refine .of_stored h rfl ?_
      rw [hcounts]
      rintro ⟨row, payload, -, -, hr, -⟩
      cases hr
  | absent =>
      refine .of_stored h rfl ?_
      rw [hcounts]
      rintro ⟨row, payload, -, -, hr, -⟩
      cases hr
  | @fallback row payload hrow hpending hpayload =>
      refine .of_stored h rfl ?_
      rw [hcounts]
      rintro ⟨row', payload', -, -, hr, hversion⟩
      cases hr
      rw [(isUntraced_untraced payload).1] at hversion
      simp at hversion
  | @rewritten row payload telemetry text hrow hpending hpayload htext hsending =>
      by_cases hi : row.eventId = i
      · subst hi
        obtain ⟨trace, rfl, htrace⟩ := h.traceOf htext
        refine ⟨_, h.writeTrace (htrace.sending hsending), fun _ => rfl, fun hnot => ?_⟩
        exact absurd (hcounts.2 ⟨row, _, hrow, rfl, rfl, (carries_traced _ _).1⟩) hnot
      · refine .of_stored h (stored_writeTrace_ne fun heq => hi heq.symm) ?_
        · rw [hcounts]
          rintro ⟨row', payload', hrow', hevent, -⟩
          rw [hrow] at hrow'
          cases hrow'
          exact hi hevent

/-- The end of an attempt at a row.  What is handed over is the trace as it is stored. -/
theorem recorded_has {itemId i : Nat} {state : String} {completedAt : Option DateTime}
    {prepared : Option Fields} (hhand : InHand s) (h : Has s.tables i e attempt)
    (hprepared : prepared = none ∨ prepared = s.prepared itemId)
    (hrecorded : Recorded s.tables itemId state completedAt prepared t') :
    Has t' i e attempt := by
  cases hrecorded with
  | kept => exact h
  | @recorded row p t₁ hrow hpending hsettling =>
      have hsame : ∀ j, stored (updateOutbox itemId pending
          (fun row => { withPayload p row with completedAt := completedAt.map timestamp })
          (fun _ => rfl) t₁) j = stored t₁ j := fun _ => rfl
      cases hsettling with
      | kept hpayload => exact h.of_stored rfl
      | @rewritten payload telemetry text hpayload hcarries htext hsettled =>
          by_cases hi : row.eventId = i
          · subst hi
            obtain ⟨trace, rfl, htrace⟩ := h.traceOf htext
            obtain ⟨source, hsource, hsourceOf⟩ : ∃ source,
                settledSource (.json (.obj trace)) prepared = .json (.obj source) ∧
                  TraceOf e attempt source := by
              cases prepared with
              | none => exact ⟨trace, rfl, htrace⟩
              | some given =>
                  have hgiven : s.prepared itemId = some given := by
                    obtain hnone | hsome := hprepared
                    · cases hnone
                    · exact hsome.symm
                  rw [settledSource, Option.bind_some]
                  cases hvalue : Fields.get? given "telemetry" with
                  | none => exact ⟨trace, rfl, htrace⟩
                  | some value =>
                      obtain ⟨row', hrow', hin⟩ := hhand itemId given hgiven
                      rw [hrow] at hrow'
                      cases hrow'
                      obtain ⟨e', attempt', source, rfl, hsource, hhas⟩ := hin hpending value hvalue
                      obtain ⟨trace', heq, htrace'⟩ := hhas.traceOf htext
                      cases heq
                      obtain ⟨hlasting, rfl⟩ := htrace.unique htrace'
                      exact ⟨source, rfl, hsource.of_lasting hlasting⟩
            rw [hsource] at hsettled
            exact h.writeTrace (hsourceOf.settled hsettled)
          · exact h.of_stored (stored_writeTrace_ne fun heq => hi heq.symm)

/-! ## Attaching -/

/-- A stored trace can be logged. -/
theorem TraceOf.loggedEnqueue (h : TraceOf e attempt trace) :
    Delivery.loggedEnqueue trace = .ok () := by
  obtain ⟨durations, stamps, -, hstamps, -, -⟩ := h.parts
  rw [Delivery.loggedEnqueue, hstamps]
  rfl

/-- What attaching a trace to an event comes to. -/
inductive Attaches (t : Tables) (now : DateTime) (i : Nat) (e : EventTelemetry) :
    Except Exc Bool → Tables → Prop where
  | raised (x : Exc) : Attaches t now i e (.error x) t
  | again {payload : Fields} {t' : Tables}
      (h : Attaching t now i e.payload (.ok (false, payload)) t') :
      Attaches t now i e (.ok false) t'
  | first {payload : Fields} {t' : Tables}
      (h : Attaching t now i e.payload (.ok (true, payload)) t') :
      Attaches t now i e (.ok true) t'

theorem attachEventTelemetry_run (now : DateTime) (i : Nat) (faults : List Bool) :
    Delivery.attachEventTelemetry now i e.toWire faults t =
      match attachTrace now i e.payload faults t with
      | (.ok (inserted, payload), rest, t') =>
          ((Delivery.loggedEnqueue payload).map fun _ => inserted, rest, t')
      | (.error x, rest, t') => (.error x, rest, t') := by
  have hmade : Delivery.attachEventTelemetry now i e.toWire faults t =
      (attachTrace now i e.payload >>= fun p => do
        let _ ← Stmt.ofExcept (Delivery.loggedEnqueue p.2)
        return p.1) faults t := by
    rw [Delivery.attachEventTelemetry, telemetryPayload_toWire]
    rfl
  rw [hmade, Stmt.bind_run]
  obtain ⟨r, rest, t'⟩ := attachTrace now i e.payload faults t
  cases r with
  | error x => rfl
  | ok p =>
      cases hlogged : Delivery.loggedEnqueue p.2 with
      | error x => simp [hlogged, Except.map]; rfl
      | ok u => simp [hlogged, Except.map]; rfl

theorem attach_cases (w : Weather) (i : Nat)
    (htraces : ∀ p, stored t i = some p → ∃ e attempt, Has t i e attempt) :
    Attaches t w.now i e ((DeliveryOp.attachEventTelemetry i e.toWire).run w t).1
      ((DeliveryOp.attachEventTelemetry i e.toWire).run w t).2 := by
  have hrun : (DeliveryOp.attachEventTelemetry i e.toWire).run w t =
      ((Delivery.attachEventTelemetry w.now i e.toWire w.faults t).1,
        (Delivery.attachEventTelemetry w.now i e.toWire w.faults t).2.2) := rfl
  rw [hrun, attachEventTelemetry_run]
  have hcases := attachTrace_cases w.now i e.payload t w.faults
  generalize attachTrace w.now i e.payload w.faults t = out at hcases ⊢
  obtain ⟨r, rest, t'⟩ := out
  cases r with
  | error x =>
      cases hcases
      exact .raised x
  | ok p =>
      obtain ⟨inserted, payload⟩ := p
      dsimp only at hcases ⊢
      have hlogged : Delivery.loggedEnqueue payload = .ok () := by
        cases hcases with
        | @again id row _ _ _ _ hexisting hstored =>
            have hstored' : stored t i = some (row.traceId, row.payload) := by
              rw [stored, hexisting]
              rfl
            obtain ⟨e', attempt, hhas⟩ := htraces _ hstored'
            obtain ⟨trace, hstored'', htrace⟩ := hhas
            rw [hstored', hstored] at hstored''
            injection hstored'' with hstored''
            injection hstored'' with _ hpayload
            injection hpayload with hpayload
            injection hpayload with hpayload
            rw [hpayload]
            exact htrace.loggedEnqueue
        | first henrich => exact ((traceOf_payload e).enrich henrich).loggedEnqueue
      rw [hlogged]
      cases inserted with
      | true => exact .first hcases
      | false => exact .again hcases

/-! ## One operation -/

/-- Every stored trace is one that was attached, no two events share one, and what the worker
has in hand is the trace as it is stored. -/
structure Inv (s : Session) : Prop where
  traces : ∀ i p, stored s.tables i = some p → ∃ e attempt, Has s.tables i e attempt
  unique : ∀ i j p q, stored s.tables i = some p → stored s.tables j = some q → p.1 = q.1 → i = j
  inHand : InHand s

/-- What becomes of the trace of an event in one operation. -/
inductive Fate (w : Weather) (s : Session) (op : SessionOp) (t' : Tables) (i : Nat) : Prop where
  | absent (h : stored s.tables i = none) (h' : stored t' i = none)
  | attached {e : EventTelemetry} (hop : op = .attach i e) (h : stored s.tables i = none)
      (hfree : ∀ j p, stored s.tables j = some p → p.1 ≠ e.traceId)
      (h' : Has t' i e e.wireAttempt)
  | goesOn (hthere : stored s.tables i ≠ none)
      (h : ∀ e attempt, Has s.tables i e attempt → GoesOn w s op t' i e attempt)
  | purged (hop : op.isPurge = true) (h' : stored t' i = none)
      (hdone : ∀ id row, s.tables.db.outbox.find? id = some row → row.eventId = i →
        row.completedAt ≠ none)

theorem Fate.of_stored {op : SessionOp} {i : Nat} (hsame : stored t' i = stored s.tables i)
    (hcounts : ¬ Counts w s op i) : Fate w s op t' i := by
  cases h : stored s.tables i with
  | none => exact .absent h (hsame.trans h)
  | some p => exact .goesOn (by simp [h]) fun e attempt hhas => .of_stored hhas hsame hcounts

theorem Fate.of_goesOn {op : SessionOp} {i : Nat}
    (hnone : stored s.tables i = none → stored t' i = none)
    (h : ∀ e attempt, Has s.tables i e attempt → GoesOn w s op t' i e attempt) :
    Fate w s op t' i := by
  cases hstored : stored s.tables i with
  | none => exact .absent hstored (hnone hstored)
  | some p => exact .goesOn (by simp [hstored]) h

theorem Attempt.none {itemId i : Nat} {attemptedAt : DateTime} {r : Except Exc (Option Fields)}
    (h : Attempt t itemId attemptedAt r t') (hnone : stored t i = none) : stored t' i = none := by
  cases h with
  | raised x => exact hnone
  | absent => exact hnone
  | fallback hrow hpending hpayload => exact hnone
  | rewritten hrow hpending hpayload hstored hsending => exact stored_writeTrace_none hnone

theorem Recorded.none {itemId i : Nat} {state : String} {completedAt : Option DateTime}
    {prepared : Option Fields} (h : Recorded t itemId state completedAt prepared t')
    (hnone : stored t i = none) : stored t' i = none := by
  cases h with
  | kept => exact hnone
  | recorded hrow hpending hsettling =>
      cases hsettling with
      | kept hpayload => exact hnone
      | rewritten hpayload hcarries hstored hsettled => exact stored_writeTrace_none hnone

/-- Only the row that is completed can lose its trace while it is pending. -/
theorem RowChange.lost {op : DeliveryOp} {id : Nat} {before now : Option JsonText}
    {row row' : OutboxRow} (h : RowChange op id before now row row')
    (hop : ∀ completedAt prepared, op ≠ .completeOutboxItem id completedAt prepared)
    (hpending : row.completedAt = none) (hnone : now = none) : before = none := by
  cases h with
  | kept hsame => exact hsame.symm.trans hnone
  | traced hstate hrow hpayload hbase htrace =>
      rw [htrace] at hnone
      cases hnone
  | untraced hrow hpayload hsame => exact hsame.symm.trans hnone
  | completed heq hrow => exact absurd heq (hop _ _)
  | settled hdone => exact absurd hpending hdone
  | purged heq hdone => exact absurd hpending hdone
  | bound heq hbound hsame => exact hsame.symm.trans hnone

theorem purge_fate {op : SessionOp} {i : Nat} (hpurge : op.isPurge = true)
    (hthins : Thins s.tables t') (hevolves : Evolves (op.call s.prepared) s.tables t') :
    Fate w s op t' i := by
  have hcounts : ¬ Counts w s op i := by
    refine not_counts fun itemId attemptedAt h => ?_
    rw [h] at hpurge
    cases hpurge
  have hop : ∀ id completedAt prepared,
      op.call s.prepared ≠ .completeOutboxItem id completedAt prepared := by
    intro id completedAt prepared h
    cases op <;> cases h
    cases hpurge
  obtain hsame | hnone := hthins i
  · exact .of_stored hsame hcounts
  · cases hstored : stored s.tables i with
    | none => exact .absent hstored hnone
    | some p =>
        refine .purged hpurge hnone fun id row hrow hevent hpending => ?_
        obtain ⟨row', -, hchange⟩ := hevolves.row id row hrow
        have hlost := hchange.lost (hop id) hpending
        rw [hevent, traceOf_eq, traceOf_eq, hnone, hstored] at hlost
        cases hlost rfl

theorem attach_fate {i eventId : Nat} {r : Except Exc Bool}
    (h : Attaches s.tables w.now eventId e r t') : Fate w s (.attach eventId e) t' i := by
  have hcounts : ¬ Counts w s (.attach eventId e) i := not_counts fun _ _ h => by cases h
  cases h with
  | raised x => exact .of_stored rfl hcounts
  | again h =>
      cases h with
      | again hexisting hstored henrich hid hsame hpromoted =>
          exact .of_stored (hpromoted.stored i) hcounts
  | @first payload t' h =>
      cases h with
      | first henrich hid hfree hinsert hpromoted =>
          cases traceId_of_enrich henrich hid
          have hinserted := stored_inserted hinsert i
          by_cases hi : i = eventId
          · subst hi
            have hnone : stored s.tables i = none := by
              rw [stored, Table.byKey_of_insert hinsert rfl]
              rfl
            refine .attached rfl hnone ?_ ⟨payload, ?_, (traceOf_payload e).enrich henrich⟩
            · intro j p hp heq
              obtain ⟨⟨k, row⟩, hkey, rfl⟩ := Option.map_eq_some_iff.1 hp
              obtain ⟨hrow, -⟩ := Table.byKey_eq_some_iff.1 hkey
              exact hfree (k, row) (Table.find?_eq_some_iff.1 hrow) heq
            · rw [hpromoted.stored i, hinserted, if_pos rfl]
          · refine .of_stored ?_ hcounts
            rw [hpromoted.stored i, hinserted, if_neg hi]

theorem retry_fate {itemId i : Nat} (h : Inv s) :
    Fate w s (.retry itemId) ((DeliveryOp.markOutboxRetry itemId).run w s.tables).2 i := by
  have hrecorded : Recorded s.tables itemId "retry_pending" none none
      ((DeliveryOp.markOutboxRetry itemId).run w s.tables).2 :=
    setOutboxDeliveryState_cases itemId _ none none s.tables w.faults
  refine .of_goesOn hrecorded.none fun e attempt hhas => ?_
  have hcounts : ¬ Counts w s (.retry itemId) i := not_counts fun _ _ h => by cases h
  exact ⟨attempt, recorded_has h.inHand hhas (.inl rfl) hrecorded, fun hc => absurd hc hcounts,
    fun _ => rfl⟩

theorem complete_fate {itemId i : Nat} {completedAt : DateTime} {handsOver : Bool} (h : Inv s) :
    Fate w s (.complete itemId completedAt handsOver) ((DeliveryOp.completeOutboxItem itemId
      completedAt (if handsOver then s.prepared itemId else none)).run w s.tables).2 i := by
  have hrecorded : Recorded s.tables itemId "delivered" (some completedAt)
      (if handsOver then s.prepared itemId else none) ((DeliveryOp.completeOutboxItem itemId
        completedAt (if handsOver then s.prepared itemId else none)).run w s.tables).2 :=
    setOutboxDeliveryState_cases itemId _ (some completedAt) _ s.tables w.faults
  have hprepared : (if handsOver then s.prepared itemId else none) = none ∨
      (if handsOver then s.prepared itemId else none) = s.prepared itemId := by
    cases handsOver with
    | false => exact .inl rfl
    | true => exact .inr rfl
  refine .of_goesOn hrecorded.none fun e attempt hhas => ?_
  have hcounts : ¬ Counts w s (.complete itemId completedAt handsOver) i :=
    not_counts fun _ _ h => by cases h
  exact ⟨attempt, recorded_has h.inHand hhas hprepared hrecorded, fun hc => absurd hc hcounts,
    fun _ => rfl⟩

/-- Every operation does one of these to the trace of an event. -/
theorem Inv.fate (h : Inv s) (w : Weather) (op : SessionOp) (i : Nat) :
    Fate w s op (s.next w op).tables i := by
  cases op with
  | store op other => exact .of_stored rfl (not_counts fun _ _ h => by cases h)
  | attach eventId e => exact attach_fate (attach_cases w eventId (h.traces eventId))
  | prepare itemId attemptedAt =>
      have hattempt : Attempt s.tables itemId attemptedAt
          ((DeliveryOp.prepareOutboxAttempt itemId attemptedAt).run w s.tables).1
          ((DeliveryOp.prepareOutboxAttempt itemId attemptedAt).run w s.tables).2 :=
        prepareOutboxAttempt_cases itemId attemptedAt s.tables w.faults
      exact .of_goesOn hattempt.none fun e attempt hhas => prepare_goesOn hhas
  | retry itemId => exact retry_fate h
  | complete itemId completedAt handsOver => exact complete_fate h
  | purgeDelivered cutoff =>
      exact purge_fate rfl (purgeDeliveredTelemetry_thins cutoff s.tables w.faults)
        (DeliveryOp.run_evolves rfl)
  | purgeUnqueued cutoff =>
      exact purge_fate rfl (purgeUnqueuedTelemetry_thins cutoff s.tables w.faults)
        (DeliveryOp.run_evolves rfl)
  | bindPending controllerId =>
      have hsame := bindPendingOutboxController_telemetry controllerId s.tables w.faults
      exact .of_stored (stored_of_telemetry hsame i) (not_counts fun _ _ h => by cases h)
  | rebind controllerId rows =>
      have hsame := rebindRows_binding controllerId rows s.tables w.faults
      exact .of_stored (stored_of_telemetry hsame.telemetry i) (not_counts fun _ _ h => by cases h)

/-- A row stays, with its event, and is not reopened. -/
theorem Session.next_row (s : Session) (w : Weather) (op : SessionOp) {id : Nat} {row : OutboxRow}
    (h : s.tables.db.outbox.find? id = some row) :
    ∃ row', (s.next w op).tables.db.outbox.find? id = some row' ∧ row'.eventId = row.eventId ∧
      (row'.completedAt = none → row.completedAt = none) := by
  have hevolves : ∀ call : DeliveryOp, Evolves call s.tables (call.run w s.tables).2 →
      ∃ row', (call.run w s.tables).2.db.outbox.find? id = some row' ∧
        row'.eventId = row.eventId ∧ (row'.completedAt = none → row.completedAt = none) := by
    intro call hstep
    obtain ⟨row', hrow', hchange⟩ := hstep.row id row h
    exact ⟨row', hrow', hchange.eventId, hchange.pending⟩
  cases op with
  | store op other =>
      obtain hsame | ⟨hpending, -, hready⟩ := (@DeliveryOp.run_store w s.tables _ other).1.row id row h
      · exact ⟨row, hsame, rfl, fun h => h⟩
      · exact ⟨_, hready, rfl, fun h => h⟩
  | _ => exact hevolves (SessionOp.call s.prepared _) (DeliveryOp.run_evolves rfl)

theorem Session.prepares_or (s : Session) (w : Weather) (itemId : Nat) (attemptedAt : DateTime) :
    (∃ given, ((DeliveryOp.prepareOutboxAttempt itemId attemptedAt).run w s.tables).1 =
      .ok (some given)) ∨
    (∀ given, ((DeliveryOp.prepareOutboxAttempt itemId attemptedAt).run w s.tables).1 ≠
      .ok (some given)) ∧ s.inHand w (.prepare itemId attemptedAt) = s.prepared := by
  rw [Session.inHand]
  cases ((DeliveryOp.prepareOutboxAttempt itemId attemptedAt).run w s.tables).1 with
  | error x => exact .inr ⟨fun _ h => (by cases h), rfl⟩
  | ok given? =>
      cases given? with
      | none => exact .inr ⟨fun _ h => (by cases h), rfl⟩
      | some given => exact .inl ⟨given, rfl⟩

/-- What is in hand was in hand before and is not counted again, or was prepared just now. -/
theorem Session.inHand_cases {op : SessionOp} {itemId : Nat} {payload : Fields}
    (h : s.inHand w op itemId = some payload) :
    (s.prepared itemId = some payload ∧ ∀ row, s.tables.db.outbox.find? itemId = some row →
      ¬ Counts w s op row.eventId) ∨
    ∃ attemptedAt, op = .prepare itemId attemptedAt ∧
      ((DeliveryOp.prepareOutboxAttempt itemId attemptedAt).run w s.tables).1 =
        .ok (some payload) := by
  by_cases hprepare : ∃ item attemptedAt, op = .prepare item attemptedAt
  · obtain ⟨item, attemptedAt, rfl⟩ := hprepare
    obtain ⟨given, hrun⟩ | hrun := s.prepares_or w item attemptedAt
    · rw [Session.inHand, hrun] at h
      dsimp only at h
      by_cases hitem : itemId = item
      · subst hitem
        rw [if_pos rfl] at h
        cases h
        exact .inr ⟨attemptedAt, rfl, hrun⟩
      · rw [if_neg hitem] at h
        refine .inl ⟨h, ?_⟩
        rintro row hrow ⟨_, _, row', _, hop, hrow', hevent, -⟩
        cases hop
        exact hitem (id_eq_of_event hrow hrow' hevent.symm)
    · obtain ⟨hnone, hsame⟩ := hrun
      rw [hsame] at h
      refine .inl ⟨h, ?_⟩
      rintro row hrow ⟨_, _, _, given, hop, -, -, hgiven, -⟩
      cases hop
      exact hnone given hgiven
  · have hsame : s.inHand w op = s.prepared := by
      cases op with
      | prepare item attemptedAt => exact absurd ⟨item, attemptedAt, rfl⟩ hprepare
      | _ => rfl
    rw [hsame] at h
    exact .inl ⟨h, fun row _ => not_counts fun item attemptedAt heq =>
      hprepare ⟨item, attemptedAt, heq⟩⟩

/-- What was prepared is the trace as it is stored from now on. -/
theorem prepared_inHand {itemId : Nat} {attemptedAt : DateTime} {payload : Fields}
    (htraces : ∀ i p, stored s.tables i = some p → ∃ e attempt, Has s.tables i e attempt)
    (hrun : ((DeliveryOp.prepareOutboxAttempt itemId attemptedAt).run w s.tables).1 =
      .ok (some payload)) :
    ∃ row, ((DeliveryOp.prepareOutboxAttempt itemId attemptedAt).run w s.tables).2.db.outbox.find?
        itemId = some row ∧ (row.completedAt = none →
      ∀ value, Fields.get? payload "telemetry" = some value →
        ∃ e attempt trace, value = .obj trace ∧ TraceOf e attempt trace ∧
          Has ((DeliveryOp.prepareOutboxAttempt itemId attemptedAt).run w s.tables).2
            row.eventId e attempt) := by
  have hcases : Attempt s.tables itemId attemptedAt
      ((DeliveryOp.prepareOutboxAttempt itemId attemptedAt).run w s.tables).1
      ((DeliveryOp.prepareOutboxAttempt itemId attemptedAt).run w s.tables).2 :=
    prepareOutboxAttempt_cases itemId attemptedAt s.tables w.faults
  generalize (DeliveryOp.prepareOutboxAttempt itemId attemptedAt).run w s.tables = out
    at hcases hrun ⊢
  obtain ⟨r, t'⟩ := out
  cases hrun
  dsimp only at hcases ⊢
  cases hcases with
  | @fallback row base hrow hpending hpayload =>
      refine ⟨row, hrow, fun _ value hvalue => ?_⟩
      rw [(isUntraced_untraced base).2] at hvalue
      cases hvalue
  | @rewritten row base telemetry text hrow hpending hpayload htext hsending =>
      have hrow' := @find?_updateOutbox (Delivery.writeTrace row.eventId telemetry s.tables)
        itemId pending (withPayload (traced (untraced base) telemetry)) (fun _ => rfl) itemId
      rw [db_writeTrace, hrow] at hrow'
      refine ⟨_, hrow', fun _ value hvalue => ?_⟩
      rw [(carries_traced _ _).2] at hvalue
      cases hvalue
      have htext' := htext
      rw [traceOf_eq] at htext'
      obtain ⟨p, hp, -⟩ := Option.map_eq_some_iff.1 htext'
      obtain ⟨e, attempt, hhas⟩ := htraces row.eventId p hp
      obtain ⟨trace, rfl, htrace⟩ := hhas.traceOf htext
      have hsent := htrace.sending hsending
      have hevent : (if (itemId == itemId && pending row) = true then
          withPayload (traced (untraced base) telemetry) row else row).eventId = row.eventId := by
        split <;> rfl
      rw [hevent]
      exact ⟨e, _, telemetry, rfl, hsent, hhas.writeTrace hsent⟩

theorem Inv.inHand_next (h : Inv s) (w : Weather) (op : SessionOp) : InHand (s.next w op) := by
  intro itemId payload hpayload
  obtain ⟨hprepared, hcounts⟩ | ⟨attemptedAt, rfl, hrun⟩ := Session.inHand_cases hpayload
  · obtain ⟨row, hrow, hin⟩ := h.inHand itemId payload hprepared
    obtain ⟨row', hrow', hevent, hback⟩ := s.next_row w op hrow
    refine ⟨row', hrow', fun hpending value hvalue => ?_⟩
    obtain ⟨e, attempt, trace, rfl, htrace, hhas⟩ := hin (hback hpending) value hvalue
    have hthere : stored s.tables row.eventId ≠ none := by
      obtain ⟨old, hold, -⟩ := hhas
      simp [hold]
    rw [hevent]
    cases h.fate w op row.eventId with
    | absent hnone => exact absurd hnone hthere
    | attached hop hnone => exact absurd hnone hthere
    | goesOn _ hgoes =>
        obtain ⟨attempt', hhas', -, hsame⟩ := hgoes e attempt hhas
        cases hsame (hcounts row hrow)
        exact ⟨e, attempt, trace, rfl, htrace, hhas'⟩
    | purged _ _ hdone => exact absurd (hback hpending) (hdone itemId row hrow rfl)
  · exact prepared_inHand h.traces hrun

/-- The id of a trace is the one it had, or the trace is new, and then no event has its id. -/
theorem Inv.origin (h : Inv s) {op : SessionOp} {i : Nat} {p : String × JsonText}
    (hp : stored (s.next w op).tables i = some p) :
    (∃ q, stored s.tables i = some q ∧ q.1 = p.1) ∨ ∃ e, op = .attach i e ∧ p.1 = e.traceId ∧
      ∀ j q, stored s.tables j = some q → q.1 ≠ e.traceId := by
  cases h.fate w op i with
  | absent _ hnone =>
      rw [hnone] at hp
      cases hp
  | @attached e hop _ hfree hhas =>
      obtain ⟨trace, hstored, -⟩ := hhas
      rw [hstored] at hp
      cases hp
      exact .inr ⟨e, hop, rfl, hfree⟩
  | goesOn hthere hgoes =>
      obtain ⟨q, hq⟩ := Option.ne_none_iff_exists'.1 hthere
      obtain ⟨e, attempt, hhas⟩ := h.traces i q hq
      obtain ⟨attempt', ⟨trace', hstored', -⟩, -⟩ := hgoes e attempt hhas
      obtain ⟨trace, hstored, -⟩ := hhas
      rw [hstored'] at hp
      cases hp
      exact .inl ⟨_, hstored, rfl⟩
  | purged _ hnone =>
      rw [hnone] at hp
      cases hp

theorem Inv.next (h : Inv s) (w : Weather) (op : SessionOp) : Inv (s.next w op) where
  traces i p hp := by
    cases h.fate w op i with
    | absent _ hnone =>
        rw [hnone] at hp
        cases hp
    | attached _ _ _ hhas => exact ⟨_, _, hhas⟩
    | goesOn hthere hgoes =>
        obtain ⟨q, hq⟩ := Option.ne_none_iff_exists'.1 hthere
        obtain ⟨e, attempt, hhas⟩ := h.traces i q hq
        obtain ⟨attempt', hhas', -⟩ := hgoes e attempt hhas
        exact ⟨e, attempt', hhas'⟩
    | purged _ hnone =>
        rw [hnone] at hp
        cases hp
  unique i j p q hp hq heq := by
    obtain ⟨p₀, hp₀, hpid⟩ | ⟨e, hop, hpid, hfree⟩ := h.origin hp
    · obtain ⟨q₀, hq₀, hqid⟩ | ⟨e, hop, hqid, hfree⟩ := h.origin hq
      · exact h.unique i j p₀ q₀ hp₀ hq₀ (by rw [hpid, hqid, heq])
      · exact absurd (by rw [hpid, heq, hqid]) (hfree i p₀ hp₀)
    · obtain ⟨q₀, hq₀, hqid⟩ | ⟨e', hop', -, -⟩ := h.origin hq
      · exact absurd (by rw [hqid, ← heq, hpid]) (hfree j q₀ hq₀)
      · rw [hop] at hop'
        cases hop'
        rfl
  inHand := h.inHand_next w op

theorem inv_fresh : Inv Session.fresh where
  traces i p h := by cases h
  unique i j p q h := by cases h
  inHand itemId payload h := by cases h

theorem Session.after_append (before steps : List (Weather × SessionOp)) :
    after (before ++ steps) = steps.foldl (fun s step => s.next step.1 step.2) (after before) := by
  rw [after, List.foldl_append]
  rfl

theorem inv_after (steps : List (Weather × SessionOp)) : Inv (Session.after steps) := by
  induction steps using List.reverseRecOn with
  | nil => exact inv_fresh
  | append_singleton steps step ih =>
      rw [Session.after_append]
      exact ih.next step.1 step.2

end Delivery

end GateController

import GateController.Processing.Keys
import GateController.Store.Waiting

/-!
# What a call owes to the outbox

The processor queues the row of an event before its trace is finished, so the row
waits.  What is watched of a call is the event whose row it may have queued so and
neither given a trace nor released.  A call queues one such row at most, and when
it is over it owes none, unless something raised that is no `Exception`.
-/

namespace GateController

open Data Effects Proc LocalStore ActuationCoordinator GateProcessor

/-! ## Rules -/

/-- The calls of which one is made at a time. -/
def Call.foreground : Call → Bool
  | .process _ | .recordSkipped _ | .recoverInterruptedActuations => true
  | _ => false

/-- What a call owes. -/
structure Debt where
  call : Call
  /-- The event whose row may still wait. -/
  owes : Option Nat := none

/-- The event whose row does not wait after the operation. -/
def StoreOp.frees : StoreOp → Option Nat
  | .releaseOutboxWithoutTelemetry id => some id
  | .attachEventTelemetry id _ => some id
  | _ => none

namespace Debt

/-- The debt after an operation of the store that answered. -/
def answered (s : Debt) (op : StoreOp) (answer : op.Ans) : Debt :=
  match op.queues answer with
  | some eventId => { s with owes := some eventId }
  | none => if op.frees.isSome ∧ op.frees = s.owes then { s with owes := none } else s

/-- The debt after an operation. -/
def next (s : Debt) : (e : Eff) → Except Exc e.Ans → Debt
  | .store op, .ok answer => s.answered op answer
  | _, _ => s

/-- A row is queued so only by a call that owes none. -/
def allow (s : Debt) : Eff → Prop
  | .store op => (∃ answer, (op.queues answer).isSome) →
      s.owes = none ∧ s.call.foreground = true
  | _ => True

end Debt

/-- What `OutboxWorker.prepare_payload` returns.  `staged` is the outcome of staging the
frame, if there is one. -/
def preparedPayload (controllerId : String) (staged : Option (Except Exc String)) : Fields :=
  [("event_id", .null), ("controller_id", .str controllerId)] ++
    match staged with
    | none => []
    | some (.ok digest) => [("image_sha256", .str digest)]
    | some (.error _) => [("image_status", .str "unavailable_before_queue")]

/-- What `_outbox_payload` begins with. -/
def Prepared (payload : Fields) : Prop :=
  payload = [("event_id", .null)] ∨ ∃ controllerId staged, payload = preparedPayload controllerId staged

theorem Prepared.not_awaits {payload : Fields} (h : Prepared payload) :
    awaits (some payload) = false := by
  rcases h with rfl | ⟨controllerId, staged, rfl⟩
  · rfl
  · rcases staged with - | (x | digest) <;> rfl

/-- What raises is an `Exception`, the release of a row does not fail, and payloads are
what the outbox prepares. -/
def Eff.Mild : (e : Eff) → Except Exc e.Ans → Prop
  | .store (.releaseOutboxWithoutTelemetry _), r => r = .ok ()
  | .env (.preparePayload _), r => (∀ payload, r = .ok payload → Prepared payload) ∧
      ∀ x, r = .error x → x.isException = true
  | _, r => ∀ x, r = .error x → x.isException = true

/-- The rules of debts. -/
def debts : Protocol Eff Eff.Ans Exc Call Debt where
  start call := { call }
  next := Debt.next
  allow := Debt.allow
  expect _ e r := e.Possible r ∧ e.Mild r

@[simp] theorem debts_next (s : Debt) (e : Eff) (r : Except Exc e.Ans) :
    debts.next s e r = s.next e r := rfl

theorem Eff.Mild.exception {e : Eff} {r : Except Exc e.Ans} {x : Exc} (h : e.Mild r)
    (hr : r = .error x) : x.isException = true := by
  subst hr
  cases e with
  | store op => cases op <;> first | exact h x rfl | cases h
  | env op => cases op <;> first | exact h x rfl | exact h.2 x rfl
  | _ => exact h x rfl

variable {α β : Type} {s : Debt}

/-- An operation of the store that queues nothing and frees nothing. -/
def StoreOp.idle : StoreOp → Bool
  | .claimActuation _ | .markActuationAttempt _ | .queueCommandAck _ _ _ | .terminalOutcome _
  | .actuationClaimStatus _ | .eventId _ | .recoverInterruptedActuations => true
  | _ => false

/-- An operation that leaves the debt as it is. -/
def Eff.Idle : Eff → Prop
  | .store op => op.idle = true
  | _ => True

theorem Eff.Idle.ignored {e : Eff} (h : e.Idle) : debts.Ignores s e := by
  cases e with
  | store op =>
      cases op <;> first
        | (cases h; done)
        | exact ⟨fun hq => (by obtain ⟨answer, hq⟩ := hq; cases hq), fun r => by cases r <;> rfl⟩
  | _ => exact ⟨trivial, fun r => by cases r <;> rfl⟩

theorem Eff.Storeless.idle {e : Eff} (h : e.Storeless) : e.Idle := by
  cases e with
  | store op => exact h.elim
  | _ => trivial

/-! ## Parts of a call -/

namespace Debt

variable {call : Call} {payload : Option Fields}

theorem eq_of_owes_none (h : s.owes = none) : s = { call := s.call } := by
  cases s
  cases h
  rfl

/-- A program of idle operations. -/
theorem obeys_idle {p : Proc α} (hp : p.Only Eff.Idle) :
    Obeys debts (fun s' _ => s' = s) s p := Obeys.of_only hp fun _ h => h.ignored

theorem obeys_idle_bind {p : Proc α} {f : α → Proc β} {Q : Debt → Except Exc β → Prop}
    (hp : p.Only Eff.Idle) (hf : ∀ a, Obeys debts Q s (f a)) (he : ∀ x, Q s (.error x)) :
    Obeys debts Q s (p >>= f) := by
  refine (obeys_idle hp).bind ?_ ?_
  · rintro s' a rfl
    exact hf a
  · rintro s' x rfl
    exact he x

/-- `with lock:` around a body. -/
theorem obeys_locked {lock : LockId} {body : Proc α} {Q : Debt → Except Exc α → Prop}
    (h : Obeys debts Q s body) : Obeys debts Q s (withLock lock body) := by
  unfold withLock
  rw [Obeys.bind_iff]
  refine Obeys.perform trivial fun r hr => ?_
  cases (show r = .ok () from hr.1)
  dsimp only
  rw [Obeys.bind_iff, Obeys.attempt_iff]
  refine Obeys.mono (s := s) h fun s' r' h' => ?_
  dsimp only
  rw [Obeys.bind_iff]
  refine Obeys.perform trivial fun r hr => ?_
  cases (show r = .ok () from hr.1)
  exact Obeys.ofExcept_iff.2 h'

/-- `try: body except Exception: handler`. -/
theorem obeys_except {body handler : Proc α} {Q : Debt → Except Exc α → Prop}
    (h : Obeys debts (fun s' r => match r with
      | .ok a => Q s' (.ok a)
      | .error x => (x.isException = true → Obeys debts Q s' handler) ∧
          (x.isException = false → Q s' (.error x))) s body) :
    Obeys debts Q s (exceptException body handler) := by
  unfold exceptException
  rw [Obeys.bind_iff, Obeys.attempt_iff]
  refine h.mono fun s' r hr => ?_
  cases r with
  | ok a => exact hr
  | error x =>
      dsimp only
      cases hx : x.isException with
      | true => exact hr.1 hx
      | false => exact hr.2 hx

/-- A part that may have queued a row of the payload, for the event that it answers. -/
def Queued (call : Call) (payload : Option Fields) (eventId : α → Option Nat) (s : Debt) :
    Except Exc α → Prop
  | .ok a => s = { call } ∨ s = { call, owes := eventId a } ∧ awaits payload = true
  | .error _ => s = { call }

theorem obeys_queue (hcall : call.foreground = true) {op : StoreOp} {eventId : op.Ans → Option Nat}
    (hqueues : ∀ answer, op.queues answer = if awaits payload then eventId answer else none)
    (hfrees : op.frees = none) : Obeys debts (Queued call payload eventId) { call } (store op) := by
  refine Obeys.perform (fun _ => ⟨rfl, hcall⟩) fun r _ => ?_
  cases r with
  | error x => rfl
  | ok answer =>
      simp only [debts_next, Debt.next, Debt.answered, hqueues, hfrees]
      cases hawaits : awaits payload with
      | false => exact .inl rfl
      | true =>
          cases hid : eventId answer with
          | none => exact .inl rfl
          | some id => exact .inr ⟨by simp [hid], hawaits⟩

/-- The row of the event was released, or its trace attached. -/
theorem next_free {op : StoreOp} {answer : op.Ans} {eventId : Nat} (hfrees : op.frees = some eventId)
    (hqueues : op.queues answer = none) (h : s.owes = none ∨ s.owes = some eventId) :
    s.next (.store op) (.ok answer) = { call := s.call } := by
  simp only [Debt.next, Debt.answered, hqueues, hfrees]
  rcases h with h | h
  · simpa [h] using eq_of_owes_none h
  · simp [h]

/-- `_release_outbox_without_telemetry` pays the debt of the event. -/
theorem release_obeys (cfg : Config) {eventId : Option Nat}
    (h : s.owes = none ∨ s.owes = eventId ∧ cfg.outboxEnabled = true) :
    Obeys debts (fun s' r => s' = { call := s.call } ∧ r = .ok ()) s
      (GateProcessor.releaseOutboxWithoutTelemetry cfg eventId) := by
  cases eventId with
  | none => exact ⟨eq_of_owes_none (h.elim id And.left), rfl⟩
  | some eventId =>
      rw [GateProcessor.releaseOutboxWithoutTelemetry]
      cases henabled : cfg.outboxEnabled with
      | false =>
          refine ⟨eq_of_owes_none (h.resolve_right fun h => ?_), rfl⟩
          rw [henabled] at h
          cases h.2
      | true =>
          rw [if_pos rfl]
          refine obeys_except ?_
          refine Obeys.perform (fun hq => ?_) fun r hr => ?_
          · obtain ⟨answer, hq⟩ := hq
            cases hq
          · cases (show r = .ok () from hr.2)
            refine ⟨?_, rfl⟩
            rw [debts_next]
            exact next_free rfl rfl (h.imp_right And.left)

/-- One operation that may raise an `Exception`, which is caught. -/
theorem obeys_caught {e : Eff} {handler : Proc e.Ans} {Q : Debt → Except Exc e.Ans → Prop}
    (hallow : s.allow e) (ok : ∀ a, e.Mild (.ok a) → Q (s.next e (.ok a)) (.ok a))
    (error : ∀ x, Obeys debts Q (s.next e (.error x)) handler) :
    Obeys debts Q s (exceptException (Prog.perform e) handler) := by
  refine obeys_except (Obeys.perform hallow fun r hr => ?_)
  cases r with
  | ok a => exact ok a hr.2
  | error x =>
      refine ⟨fun _ => error x, fun hx => ?_⟩
      rw [hr.2.exception rfl] at hx
      cases hx

/-- `_finish_result` pays the debt of the event. -/
theorem finishResult_obeys (cfg : Config) {result : ProcessingResult}
    (h : s.owes = none ∨ s.owes = result.eventId ∧ cfg.outboxEnabled = true) :
    Obeys debts (fun s' _ => s' = { call := s.call }) s (finishResult cfg result) := by
  unfold finishResult
  rw [Obeys.bind_iff]
  have hreleased : ∀ {eventId : Option Nat}, eventId = result.eventId →
      Obeys debts (fun s' r => s' = { call := s.call } ∧ r = .ok ()) s
        (GateProcessor.releaseOutboxWithoutTelemetry cfg eventId) := by
    rintro _ rfl
    exact release_obeys cfg h
  have hnone : Obeys debts (fun s' _ => s' = { call := s.call }) s (do
      GateProcessor.releaseOutboxWithoutTelemetry cfg result.eventId
      return result) := by
    rw [Obeys.bind_iff]
    refine (hreleased rfl).mono ?_
    rintro s' r ⟨rfl, rfl⟩
    rfl
  refine obeys_caught trivial (fun telemetry _ => ?_) fun x => hnone
  cases telemetry with
  | none => exact hnone
  | some telemetry =>
      dsimp only
      cases hid : result.eventId with
      | none =>
          rw [hid] at h
          exact eq_of_owes_none (h.elim id And.left)
      | some eventId =>
          rw [hid] at h
          dsimp only
          rw [Obeys.bind_iff]
          refine obeys_caught (fun hq => ?_) (fun u _ => ?_) fun x => ?_
          · obtain ⟨answer, hq⟩ := hq
            cases hq
          · exact next_free rfl rfl (h.imp_right And.left)
          · refine (hreleased hid.symm).mono ?_
            rintro s' r ⟨rfl, rfl⟩
            rfl

/-- A row waits only if there is an outbox. -/
theorem outboxPayload_obeys (cfg : Config) (paths : List String) (await : Bool) :
    Obeys debts (fun s' r => s' = s ∧ ∀ p, r = .ok p → awaits p = true →
      cfg.outboxEnabled = true ∧ await = true) s (GateProcessor.outboxPayload cfg paths await) := by
  unfold GateProcessor.outboxPayload
  cases henabled : cfg.outboxEnabled with
  | false => exact ⟨rfl, fun p hp ha => by cases hp; cases ha⟩
  | true =>
      rw [if_neg (by simp), Obeys.bind_iff]
      refine Obeys.perform trivial fun r hr => ?_
      cases r with
      | error x => exact ⟨rfl, nofun⟩
      | ok fields =>
          cases await with
          | true => exact ⟨rfl, fun _ _ _ => ⟨rfl, rfl⟩⟩
          | false =>
              refine ⟨rfl, fun p hp ha => ?_⟩
              cases hp
              rw [(hr.2.1 fields rfl).not_awaits] at ha
              cases ha

/-- A call that queued a row as its last deed, and finishes. -/
theorem finish_obeys {cfg : Config} {payload : Option Fields} {eventId : α → Option Nat}
    {p : Proc α} {result : α → ProcessingResult}
    (hp : Obeys debts (Queued call payload eventId) { call } p)
    (hpayload : awaits payload = true → cfg.outboxEnabled = true)
    (hresult : ∀ a, (result a).eventId = eventId a) :
    Obeys debts (fun s' _ => s' = { call }) { call } (do
      let a ← p
      finishResult cfg (result a)) := by
  refine Obeys.bind hp (fun s' a h => ?_) fun s' x h => h
  rcases h with rfl | ⟨rfl, hawaits⟩
  · exact finishResult_obeys cfg (.inl rfl)
  · exact finishResult_obeys cfg (.inr ⟨(hresult a).symm, hpayload hawaits⟩)

/-- An event is recorded with its row, and the call finishes. -/
theorem recordEvent_obeys (hcall : call.foreground = true) {cfg : Config} {event : GateEvent} {payload : Option Fields}
    {result : Nat → ProcessingResult} (hpayload : awaits payload = true → cfg.outboxEnabled = true)
    (hresult : ∀ eventId, (result eventId).eventId = some eventId) :
    Obeys debts (fun s' _ => s' = { call }) { call } (do
      let eventId ← store (.recordEventWithOutbox event payload)
      finishResult cfg (result eventId)) :=
  finish_obeys (obeys_queue hcall (fun _ => rfl) rfl) hpayload hresult

/-- `_record`, and the call finishes. -/
theorem record_obeys (hcall : call.foreground = true) {cfg : Config} {event : GateEvent} {paths : List String}
    {result : Nat → ProcessingResult}
    (hresult : ∀ eventId, (result eventId).eventId = some eventId) :
    Obeys debts (fun s' _ => s' = { call }) { call } (do
      let eventId ← record cfg event paths
      finishResult cfg (result eventId)) := by
  unfold GateProcessor.record
  rw [Obeys.bind_iff, Obeys.bind_iff]
  refine (outboxPayload_obeys cfg paths true).mono ?_
  rintro s' (x | payload) ⟨rfl, hpayload⟩
  · rfl
  · have h := @recordEvent_obeys _ hcall _ event _ _
      (fun ha => (hpayload payload rfl ha).1) hresult
    rwa [Obeys.bind_iff] at h

theorem only_eventKey_idle (paths : List String) : (eventKey paths).Only Eff.Idle := by
  cases paths with
  | nil => trivial
  | cons path rest => exact Prog.Only.perform_iff.2 trivial

theorem only_eventExists_idle (key : String) : (eventExists key).Only Eff.Idle := by
  refine Prog.Only.bind (Prog.Only.perform_iff.2 rfl) fun status => ?_
  split
  · trivial
  · exact Prog.Only.bind (Prog.Only.perform_iff.2 rfl) fun _ => trivial

theorem only_takenReason_idle (key : String) : (takenReason key).Only Eff.Idle := by
  refine Prog.Only.bind (Prog.Only.perform_iff.2 rfl) fun status => ?_
  cases status <;> trivial

theorem only_uniqueContentCandidates_idle (seen paths : List String) :
    (uniqueContentCandidates seen paths).Only Eff.Idle := by
  induction paths generalizing seen with
  | nil => trivial
  | cons path rest ih =>
      refine Prog.Only.bind (Prog.Only.perform_iff.2 trivial) fun digest => ?_
      split
      · exact ih _
      · exact Prog.Only.bind (ih _) fun _ => trivial

/-- The row that a duplicate is given does not wait. -/
theorem ensure_obeys {cfg : Config} {paths : List String} {eventId : Nat} {rest : Proc β}
    {Q : Debt → Except Exc β → Prop} (hrest : Obeys debts Q s rest) (he : ∀ x, Q s (.error x)) :
    Obeys debts Q s (do
      let payload ← GateProcessor.outboxPayload cfg paths
      let _ ← store (.ensureOutbox eventId payload)
      rest) := by
  rw [Obeys.bind_iff]
  refine (outboxPayload_obeys cfg paths false).mono ?_
  rintro s' (x | payload) ⟨rfl, hpayload⟩
  · exact he x
  · have hplain : awaits payload = false := by
      cases ha : awaits payload with
      | false => rfl
      | true => cases (hpayload payload rfl ha).2
    have hqueues : ∀ answer, (StoreOp.ensureOutbox eventId payload).queues answer = none := by
      intro answer
      simp [StoreOp.queues, hplain]
    dsimp only
    rw [Obeys.bind_iff]
    refine Obeys.perform (fun hq => ?_) fun r _ => ?_
    · obtain ⟨answer, hq⟩ := hq
      rw [hqueues] at hq
      cases hq
    · cases r with
      | error x => exact he x
      | ok answer =>
          have hsame : s'.next (.store (.ensureOutbox eventId payload)) (.ok answer) = s' := by
            simp [Debt.next, Debt.answered, hqueues, StoreOp.frees]
          rw [debts_next, hsame]
          exact hrest

/-! ## The calls -/

/-- `record_skipped` owes nothing at its end. -/
theorem recordSkipped_obeys (hcall : call.foreground = true) (cfg : Config) (a : SkipArgs) :
    Obeys debts (fun s' _ => s' = { call }) { call } (recordSkipped cfg a) := by
  unfold recordSkipped
  refine obeys_idle_bind ?_ (fun key => ?_) fun _ => rfl
  · split
    · trivial
    · exact only_eventKey_idle _
  refine obeys_idle_bind (only_eventExists_idle key) (fun found => ?_) fun _ => rfl
  cases found with
  | true =>
      rw [if_pos rfl]
      refine obeys_idle_bind (Prog.Only.perform_iff.2 rfl) (fun eventId => ?_) fun _ => rfl
      have hend : Obeys debts (fun s' _ => s' = { call }) { call } (do
          let reason ← takenReason key
          return { opened := false, reason, eventId } : Proc ProcessingResult) :=
        obeys_idle_bind (only_takenReason_idle key) (fun _ => rfl) fun _ => rfl
      split
      · exact ensure_obeys hend fun _ => rfl
      · exact hend
  | false =>
      rw [if_neg (by simp)]
      refine obeys_idle_bind ?_ (fun receivedAt => ?_) fun _ => rfl
      · cases a.receivedAt with
        | some at_ => trivial
        | none => exact Prog.Only.perform_iff.2 trivial
      refine obeys_idle_bind (Prog.Only.perform_iff.2 trivial) (fun decisionAt => ?_) fun _ => rfl
      exact record_obeys hcall fun _ => rfl

/-- What follows a part that may have queued a row. -/
theorem obeys_queued_return {payload : Option Fields} {eventId : α → Option Nat}
    {answer : β → Option Nat} {p : Proc α} {f : α → β}
    (hp : Obeys debts (Queued call payload eventId) { call } p)
    (hf : ∀ a, answer (f a) = eventId a) :
    Obeys debts (Queued call payload answer) { call } (do
      let a ← p
      return f a) := by
  refine Obeys.bind hp (fun s' a h => ?_) fun s' x h => h
  rcases h with h | ⟨h, hawaits⟩
  · exact .inl h
  · exact .inr ⟨by rw [h, hf], hawaits⟩

/-- The outcome is stored, with the row of its event. -/
theorem finalized_obeys (hcall : call.foreground = true) {f : FinalizeArgs} {answer : Nat → ActuationExecution}
    (hanswer : ∀ eventId, (answer eventId).eventId = some eventId) :
    Obeys debts (Queued call f.outboxPayload ActuationExecution.eventId) { call }
      (exceptException (do
        let eventId ← store (.finalizeActuation f)
        return answer eventId) (return indeterminate)) := by
  refine obeys_except (Obeys.mono (obeys_queued_return
    (obeys_queue hcall (fun _ => rfl) rfl) hanswer) ?_)
  rintro s' (x | e) h
  · cases (show s' = { call } from h)
    exact ⟨fun _ => .inl rfl, fun _ => rfl⟩
  · exact h

/-- A row of an answered key is queued for the event of the answer. -/
theorem replay_obeys (hcall : call.foreground = true) {a : ActuateArgs} (hack : a.commandAck = none) (terminal : TerminalOutcome) :
    Obeys debts (Queued call a.outboxPayload ActuationExecution.eventId) { call }
      (replay a terminal) := by
  unfold replay
  rw [hack]
  cases hid : terminal.eventId with
  | none => exact .inl rfl
  | some eventId =>
      cases hpayload : a.outboxPayload with
      | none => exact .inl rfl
      | some payload =>
          exact obeys_queued_return
            (obeys_queued_return
              (obeys_queue hcall (fun _ => rfl) rfl) fun _ => rfl) fun _ => rfl

section Actuate

variable {a : ActuateArgs} {key : String}

theorem refuse_obeys (hcall : call.foreground = true) (claimTime : DateTime) :
    Obeys debts (Queued call a.outboxPayload ActuationExecution.eventId) { call }
      (refuse a claimTime) :=
  obeys_queued_return (obeys_queue hcall (fun _ => rfl) rfl) fun _ => rfl

theorem settle_obeys (hcall : call.foreground = true) (claim : ActuationClaim) (result : RelayResult) :
    Obeys debts (Queued call a.outboxPayload ActuationExecution.eventId) { call }
      (settle a claim result) := by
  have hconclude : ∀ inhibition, Obeys debts
      (Queued call a.outboxPayload ActuationExecution.eventId) { call }
        (ActuationCoordinator.conclude a claim result inhibition) := by
    intro inhibition
    cases inhibition with
    | none => exact finalized_obeys hcall fun _ => rfl
    | some i =>
        exact obeys_idle_bind (Prog.Only.perform_iff.2 trivial)
          (fun _ => finalized_obeys hcall fun _ => rfl) fun _ => rfl
  unfold settle
  refine obeys_idle_bind (Prog.Only.perform_iff.2 trivial) (fun inhibition => ?_) fun _ => rfl
  dsimp only
  split
  · refine obeys_idle_bind (Prog.Only.perform_iff.2 trivial) (fun _ => ?_) fun _ => rfl
    exact obeys_idle_bind (Prog.Only.perform_iff.2 trivial) (fun _ => hconclude _) fun _ => rfl
  · exact hconclude _

theorem activate_obeys (hcall : call.foreground = true) (owner : CallId) (cfg : Config) (claimTime : DateTime) (now : ℚ)
    (bootId : Option String) (claim : ActuationClaim) :
    Obeys debts (Queued call a.outboxPayload ActuationExecution.eventId) { call }
      (activate owner cfg a key claimTime now bootId claim) := by
  refine obeys_idle_bind (Prog.Only.attempt (Prog.Only.perform_iff.2 rfl)) (fun r => ?_) fun _ => rfl
  cases r with
  | error x =>
      dsimp only
      split
      · exact .inl rfl
      · rfl
  | ok u =>
      refine obeys_idle_bind (Prog.Only.perform_iff.2 trivial) (fun _ => ?_) fun _ => rfl
      exact obeys_idle_bind ((only_pulse owner cfg a key).mono fun _ h => h.idle)
        (fun result => settle_obeys hcall claim result) fun _ => rfl

theorem afterClaim_obeys (hcall : call.foreground = true) (owner : CallId) (cfg : Config) (claimTime : DateTime) (now : ℚ)
    (bootId : Option String) (claim : ActuationClaim) :
    Obeys debts (Queued call a.outboxPayload ActuationExecution.eventId) { call }
      (afterClaim owner cfg a key claimTime now bootId claim) := by
  have hactivate := @activate_obeys _ a key hcall owner cfg claimTime now
    bootId claim
  unfold afterClaim
  split
  · exact refuse_obeys hcall claimTime
  · refine obeys_idle_bind (Prog.Only.perform_iff.2 trivial) (fun last => ?_) fun _ => rfl
    cases last with
    | none => exact hactivate
    | some value =>
        dsimp only
        split
        · exact finalized_obeys hcall fun _ => rfl
        · exact hactivate
  · exact .inl rfl

/-- `actuate` may owe the row of the event that it answers. -/
theorem actuate_obeys (hcall : call.foreground = true) (owner : CallId) (cfg : Config) (hack : a.commandAck = none) :
    Obeys debts (Queued call a.outboxPayload ActuationExecution.eventId) { call }
      (actuate owner cfg a) := by
  unfold actuate
  split
  · rfl
  · split
    · rfl
    · refine obeys_locked ?_
      refine obeys_idle_bind (Prog.Only.perform_iff.2 rfl) (fun terminal => ?_) fun _ => rfl
      cases terminal with
      | some terminal => exact replay_obeys hcall hack terminal
      | none =>
          refine obeys_idle_bind ?_ (fun claimTime => ?_) fun _ => rfl
          · cases a.event.decisionAt with
            | some at_ => trivial
            | none => exact Prog.Only.perform_iff.2 trivial
          · refine obeys_idle_bind (Prog.Only.attempt ?_) (fun r => ?_) fun _ => rfl
            · refine Prog.Only.bind (Prog.Only.perform_iff.2 trivial) fun now => ?_
              refine Prog.Only.bind (by simp) fun cutoff => ?_
              refine Prog.Only.bind (Prog.Only.perform_iff.2 trivial) fun bootId => ?_
              exact Prog.Only.bind (Prog.Only.perform_iff.2 rfl) fun _ => trivial
            · cases r with
              | error x =>
                  dsimp only
                  split
                  · exact .inl rfl
                  · rfl
              | ok claimed => exact afterClaim_obeys hcall owner cfg claimTime _ _ _

end Actuate

section Process

variable {cfg : Config}

theorem only_ocrLoop_idle (started : ℚ) (authorised paths : List String) (s : OcrState) :
    (ocrLoop cfg started authorised paths s).Only Eff.Idle := by
  induction paths generalizing s with
  | nil => trivial
  | cons path rest ih =>
      refine Prog.Only.bind (Prog.Only.perform_iff.2 trivial) fun now => ?_
      split
      · trivial
      refine Prog.Only.bind (Prog.Only.perform_iff.2 trivial) fun now => ?_
      split
      · trivial
      refine Prog.Only.bind (Prog.Only.attempt (Prog.Only.perform_iff.2 trivial)) fun r => ?_
      match r with
      | .error x =>
          dsimp only
          split
          · exact ih _
          · trivial
      | .ok .busy => trivial
      | .ok .deadlineExceeded => trivial
      | .ok (.observed plate confidence) =>
          refine Prog.Only.bind (Prog.Only.perform_iff.2 trivial) fun now => ?_
          split
          · trivial
          · split
            · trivial
            · exact ih _

theorem open_obeys (hcall : call.foreground = true) (owner : CallId) (key : String) (receivedAt decisionAt : DateTime)
    (activationDeadline : ℚ) (decision : MatchDecision) {payload : Option Fields}
    (hpayload : awaits payload = true → cfg.outboxEnabled = true) :
    Obeys debts (fun s' _ => s' = { call }) { call }
      (open_ owner cfg key receivedAt decisionAt activationDeadline decision payload) := by
  unfold open_
  refine obeys_idle_bind (Prog.Only.perform_iff.2 trivial) (fun actuationAt => ?_) fun _ => rfl
  split
  · exact recordEvent_obeys hcall hpayload fun _ => rfl
  · exact finish_obeys
      (obeys_locked (actuate_obeys hcall owner cfg rfl)) hpayload fun _ => rfl

theorem conclude_obeys (hcall : call.foreground = true) (owner : CallId) (paths : List String) (key : String)
    (receivedAt : DateTime) (activationDeadline : ℚ) (s : OcrState) (decision : MatchDecision) :
    Obeys debts (fun s' _ => s' = { call }) { call }
      (GateProcessor.conclude owner cfg paths key receivedAt activationDeadline s decision) := by
  unfold GateProcessor.conclude
  refine obeys_idle_bind (Prog.Only.perform_iff.2 trivial) (fun decisionAt => ?_) fun _ => rfl
  split
  · exact record_obeys hcall fun _ => rfl
  · split
    · exact record_obeys hcall fun _ => rfl
    · rw [Obeys.bind_iff]
      refine (outboxPayload_obeys cfg paths true).mono ?_
      rintro s' (x | payload) ⟨rfl, hpayload⟩
      · rfl
      · have hp := fun ha => (hpayload payload rfl ha).1
        dsimp only
        split
        · exact open_obeys hcall owner key receivedAt decisionAt activationDeadline decision hp
        · exact recordEvent_obeys hcall hp fun _ => rfl

theorem decideBurst_obeys (hcall : call.foreground = true) (owner : CallId) (a : ProcessArgs) (paths : List String) (key : String)
    (started : ℚ) : Obeys debts (fun s' _ => s' = { call }) { call }
      (decideBurst owner cfg a paths key started) := by
  unfold decideBurst
  refine obeys_idle_bind ?_ (fun receivedAt => ?_) fun _ => rfl
  · cases a.receivedAt with
    | some at_ => trivial
    | none => exact Prog.Only.perform_iff.2 trivial
  refine obeys_idle_bind (Prog.Only.perform_iff.2 trivial) (fun now => ?_) fun _ => rfl
  refine obeys_idle_bind (Prog.Only.perform_iff.2 trivial) (fun elapsed => ?_) fun _ => rfl
  split
  · exact recordSkipped_obeys hcall cfg _
  split
  · exact recordSkipped_obeys hcall cfg _
  refine obeys_idle_bind (Prog.Only.attempt (Prog.Only.perform_iff.2 trivial)) (fun r => ?_)
    fun _ => rfl
  cases r with
  | error x =>
      dsimp only
      split
      · exact recordSkipped_obeys hcall cfg _
      · rfl
  | ok authorised =>
      refine obeys_idle_bind (only_ocrLoop_idle _ _ _ _) (fun s => ?_) fun _ => rfl
      refine obeys_idle_bind ?_ (fun s => ?_) fun _ => rfl
      · split
        · trivial
        · refine Prog.Only.bind (Prog.Only.perform_iff.2 trivial) fun now => ?_
          split <;> trivial
      · cases s.decision with
        | none => exact recordSkipped_obeys hcall cfg _
        | some decision => exact conclude_obeys hcall owner paths key receivedAt _ s decision

/-- `process` owes nothing at its end. -/
theorem process_obeys (hcall : call.foreground = true) (owner : CallId) (a : ProcessArgs) :
    Obeys debts (fun s' _ => s' = { call }) { call } (process owner cfg a) := by
  unfold process
  refine obeys_idle_bind ?_ (fun started => ?_) fun _ => rfl
  · cases a.decisionStartedAt with
    | some started => trivial
    | none => exact Prog.Only.perform_iff.2 trivial
  refine obeys_idle_bind (only_uniqueContentCandidates_idle _ _) (fun candidates => ?_) fun _ => rfl
  refine obeys_idle_bind (only_eventExists_idle _) (fun found => ?_) fun _ => rfl
  cases found with
  | false =>
      rw [if_neg (by simp)]
      exact decideBurst_obeys hcall owner a _ _ started
  | true =>
      rw [if_pos rfl]
      have hend : ∀ key, Obeys debts (fun s' _ => s' = { call }) { call } (do
          let reason ← takenReason key
          return { opened := false, reason } : Proc ProcessingResult) := fun key =>
        obeys_idle_bind (only_takenReason_idle key) (fun _ => rfl) fun _ => rfl
      dsimp only
      split
      · refine obeys_idle_bind ?_ (fun eventId => ?_) fun _ => rfl
        · refine Prog.Only.bind (Prog.Only.perform_iff.2 rfl) fun terminal => ?_
          cases terminal with
          | some terminal => trivial
          | none => exact Prog.Only.perform_iff.2 rfl
        · cases eventId with
          | some eventId => exact ensure_obeys (hend _) fun _ => rfl
          | none => exact hend _
      · exact hend _

end Process

end Debt

end GateController

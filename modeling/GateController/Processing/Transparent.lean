import GateController.Effects.Erase
import GateController.Effects.Outcome
import GateController.Effects.Trace
import GateController.Processing.Traced

/-!
# The trace decides nothing

`untraced` is the view of the processor in which the trace is not there: a call of one of its
methods is not seen, and of the others what the gate gets of them.  Function by function, what is
seen of `TracedProcessor` is `GateProcessor`.
-/

namespace GateController

open Data Effects LocalStore ActuationCoordinator EventTelemetry GateProcessor

namespace TracedProcessor

variable {α : Type}

/-! ## What is seen -/

/-- What the relay hears of its callback. -/
def heard : Except Exc Called → Except Exc Unit
  | .ok _ => .ok ()
  | .error x => if x.isException then .ok () else .error x

/-- What is stored of the trace. -/
def wired (r : Except Exc (Called × Option EventTelemetry)) : Except Exc (Option Fields) :=
  r.map fun f => f.2.map toWire

/-- Of the operations of the processor, those of the trace are not seen.  They may raise any
`Exception`. -/
def untraced : View TracedEff TracedEff.Ans Eff Eff.Ans Exc where
  expect
    | .gate _, _ => True
    | .onActivation, _ => True
    | .finish, _ => True
    | .recognise _, _ => True
    | _, .ok _ => True
    | .disable, .error _ => False
    | _, .error x => x.isException = true
  see
    | .gate e => some ⟨e, id⟩
    | .onActivation => some ⟨.env .onActivation, heard⟩
    | .finish => some ⟨.env .finishTrace, wired⟩
    | .recognise path => some ⟨.env (.recognise path), fun r => r.bind Recognised.outcome⟩
    | _ => none

variable {β γ : Type} {g : α → β}

/-- An operation of the gate is seen as it is. -/
theorem erases_perform (e : Eff) :
    Erases untraced id (Prog.perform (TracedEff.gate e)) (Prog.perform e) := by
  refine Erases.seen (V := untraced) (e := TracedEff.gate e) (s := ⟨e, id⟩) rfl fun r _ => ?_
  cases r with
  | ok a => exact Erases.ret a
  | error x => exact Erases.raise x

theorem erases_onActivation :
    Erases untraced id (traced.program () (.env .onActivation))
      (Prog.perform (Eff.env .onActivation)) := by
  refine Erases.seen (V := untraced) (e := TracedEff.onActivation)
    (s := ⟨Eff.env .onActivation, heard⟩) rfl fun r _ => ?_
  cases r with
  | ok a => exact Erases.ret ()
  | error x =>
      change Erases untraced id (if x.isException then _ else _)
        (Prog.ofExcept (if x.isException then _ else _))
      split
      · exact Erases.ret ()
      · exact Erases.raise x

/-- The two programs handle the same exceptions. -/
theorem erases_handler {x : Exc} {p : TracedProc α} {q : Proc β} (hp : Erases untraced g p q) :
    Erases untraced g (if x.isException then p else .raise x)
      (if x.isException then q else .raise x) := by
  split
  · exact hp
  · exact Erases.raise x

/-- A program of the gate is seen as it is. -/
theorem erases_gate (p : Proc α) : Erases untraced id (gate p) p := by
  refine Erases.expand (fun t e => ?_) p ()
  cases e with
  | env op =>
      cases op with
      | onActivation => exact erases_onActivation
      | _ => exact erases_perform _
  | _ => exact erases_perform _

/-- A program of which nothing is seen. -/
def Unseen (p : TracedProc Unit) : Prop := Erases untraced id p (.ret ())

theorem Unseen.then {p : TracedProc Unit} {f : Unit → TracedProc α} {q : Proc β} (hp : Unseen p)
    (h : Erases untraced g (f ()) q) : Erases untraced g (p >>= f) q := by
  change Erases untraced g (p >>= f) (Prog.ret () >>= fun _ => q)
  exact Erases.bind hp fun _ => h

theorem Unseen.bind {p : TracedProc Unit} {f : Unit → TracedProc Unit} (hp : Unseen p)
    (hf : Unseen (f ())) : Unseen (p >>= f) := hp.then hf

theorem Unseen.handler {x : Exc} {p : TracedProc Unit} (hx : x.isException = true)
    (hp : Unseen p) : Unseen (if x.isException then p else .raise x) := by
  rw [if_pos hx]
  exact hp

theorem unseen_return : Unseen (return ()) := Erases.ret ()

theorem unseen_call (c : TraceCall) : Unseen (call c) := by
  refine Erases.unseen rfl fun r hr => ?_
  cases r with
  | ok a => exact Erases.ret ()
  | error x => exact Unseen.handler hr unseen_return

theorem unseen_newTrace : Unseen newTrace := by
  refine Erases.unseen rfl fun r hr => ?_
  cases r with
  | ok a => exact Erases.ret ()
  | error x => exact Unseen.handler hr unseen_return

theorem unseen_seed (receivedAt : Option DateTime) (decisionStartedAt : Option ℚ)
    (processingStartedAt : Option DateTime) :
    Unseen (seed receivedAt decisionStartedAt processingStartedAt) := by
  unfold seed
  split
  · exact unseen_call _
  · exact unseen_return

theorem unseen_markBurst (decisionStartedAt : Option ℚ) : Unseen (markBurst decisionStartedAt) := by
  unfold markBurst
  split
  · exact unseen_call _
  · exact unseen_return

theorem unseen_skipTrace (a : SkipArgs) : Unseen (skipTrace a) := by
  unfold skipTrace
  split
  · exact unseen_return
  · exact unseen_newTrace.bind ((unseen_seed _ _ _).bind
      ((unseen_markBurst _).bind (unseen_call _)))

theorem unseen_addStarted (r : Recognised) (sequence : Nat) (status : String) :
    Unseen (addStarted r sequence status) := by
  unfold addStarted
  split
  · exact unseen_call _
  · exact unseen_return

theorem unseen_disable : Unseen (Prog.perform TracedEff.disable) := by
  refine Erases.unseen rfl fun r hr => ?_
  cases r with
  | ok a => exact Erases.ret ()
  | error x => exact absurd hr id

theorem unseen_measureFrame (sequence : Nat) (path digest : String) :
    Unseen (measureFrame sequence path digest) := by
  refine Erases.unseen rfl fun r hr => ?_
  cases r with
  | ok quality => exact unseen_call _
  | error x => exact Unseen.handler hr unseen_disable

theorem unseen_tellExecution (execution : ActuationExecution) :
    Unseen (tellExecution execution) := by
  unfold tellExecution
  split
  · exact (unseen_call _).bind (unseen_call _)
  · exact unseen_return.bind (unseen_call _)

/-! ## Function by function -/

theorem erases_finish :
    Erases untraced (Option.map toWire) finish
      (Proc.exceptException (Proc.env .finishTrace) (return none)) := by
  refine Erases.seen (V := untraced) (e := TracedEff.finish)
    (s := ⟨Eff.env .finishTrace, wired⟩) rfl fun r _ => ?_
  cases r with
  | ok f => exact Erases.ret f.2
  | error x => exact erases_handler (Erases.ret none)

theorem erases_recognise (path : String) :
    Erases untraced Recognised.outcome (recognise path)
      (Proc.env (.recognise path)).attempt := by
  refine Erases.seen (V := untraced) (e := TracedEff.recognise path)
    (s := ⟨Eff.env (.recognise path), fun r => r.bind Recognised.outcome⟩) rfl fun r _ => ?_
  cases r with
  | ok r =>
      rcases r with ⟨started, outcome, make, colour⟩
      cases outcome with
      | ok o => exact Erases.ret (V := untraced) _
      | error x => exact Erases.ret (V := untraced) _
  | error x => exact Erases.ret (V := untraced) _

theorem erases_finishResult (cfg : Config) (result : ProcessingResult) :
    Erases untraced TracedResult.result (finishResult cfg result)
      (GateProcessor.finishResult cfg result) := by
  refine erases_finish.bind fun telemetry => ?_
  cases telemetry with
  | none => exact (erases_gate _).bind fun _ => Erases.ret (V := untraced) _
  | some telemetry =>
      rcases result with ⟨opened, reason, eventId, decision⟩
      cases eventId with
      | none => exact Erases.ret (V := untraced) _
      | some eventId => exact (erases_gate _).bind fun _ => Erases.ret (V := untraced) _

theorem erases_record (cfg : Config) (event : GateEvent) (paths : List String)
    {result : Nat → ProcessingResult} :
    Erases untraced TracedResult.result
      (do
        let eventId ← gate (record cfg event paths)
        finishResult cfg (result eventId))
      (do
        let eventId ← record cfg event paths
        GateProcessor.finishResult cfg (result eventId)) :=
  (erases_gate _).bind fun _ => erases_finishResult _ _

theorem erases_recordSkipped (cfg : Config) (a : SkipArgs) :
    Erases untraced TracedResult.result (recordSkipped cfg a)
      (GateProcessor.recordSkipped cfg a.toSkipArgs) := by
  refine (erases_gate _).bind fun key => (erases_gate _).bind fun taken => ?_
  cases taken with
  | true =>
      refine (erases_perform _).bind fun eventId => ?_
      have hreason : Erases untraced TracedResult.result
          (do
            let reason ← gate (takenReason key)
            return ⟨⟨false, reason, eventId, none⟩, none⟩)
          (do
            let reason ← takenReason key
            return ⟨false, reason, eventId, none⟩) :=
        (erases_gate _).bind fun _ => Erases.ret (V := untraced) _
      dsimp only [id_eq, if_true]
      cases cfg.outboxEnabled with
      | false => exact hreason
      | true =>
          cases eventId with
          | none => exact hreason
          | some eventId =>
              exact (erases_gate _).bind fun _ => (erases_perform _).bind fun _ => hreason
  | false =>
      refine (unseen_skipTrace a).then ((unseen_call _).then ?_)
      cases hreceived : a.receivedAt with
      | some receivedAt => exact (erases_perform _).bind fun _ => erases_record _ _ _
      | none =>
          exact (erases_perform _).bind fun _ => (erases_perform _).bind fun _ =>
            erases_record _ _ _

theorem erases_ocrLoop (cfg : Config) (started : ℚ) (authorised : List String)
    (frames : List (String × String)) (sequence : Nat) (s : OcrState) :
    Erases untraced id (ocrLoop cfg started authorised sequence frames s)
      (GateProcessor.ocrLoop cfg started authorised (frames.map Prod.fst) s) := by
  induction frames generalizing sequence s with
  | nil => exact Erases.ret s
  | cons frame rest ih =>
      refine (erases_perform _).bind fun early => ?_
      dsimp only [id_eq]
      split
      · exact Erases.ret _
      · refine (unseen_measureFrame _ _ _).then ((erases_perform _).bind fun late => ?_)
        dsimp only [id_eq]
        split
        · exact Erases.ret _
        · refine (erases_recognise _).bind fun r => ?_
          rcases r with ⟨startedAt, outcome, make, colour⟩
          cases outcome with
          | error x => exact erases_handler ((unseen_addStarted _ _ _).then (ih _ _))
          | ok outcome =>
              cases outcome with
              | busy => exact (unseen_call _).then (Erases.ret _)
              | deadlineExceeded => exact (unseen_addStarted _ _ _).then (Erases.ret _)
              | observed plate confidence =>
                  refine (unseen_call _).then ((erases_perform _).bind fun now => ?_)
                  dsimp only [id_eq]
                  split
                  · exact Erases.ret _
                  · split
                    · exact Erases.ret _
                    · exact ih _ _

theorem erases_open (owner : CallId) (cfg : Config) (key : String)
    (receivedAt decisionAt : DateTime) (activationDeadline : ℚ) (decision : MatchDecision)
    (payload : Option Fields) :
    Erases untraced TracedResult.result
      (open_ owner cfg key receivedAt decisionAt activationDeadline decision payload)
      (GateProcessor.open_ owner cfg key receivedAt decisionAt activationDeadline decision
        payload) := by
  refine (erases_perform _).bind fun actuationAt => ?_
  dsimp only [id_eq]
  split
  · exact (erases_perform _).bind fun _ => erases_finishResult _ _
  · exact (erases_gate _).bind fun execution =>
      (unseen_tellExecution execution).then (erases_finishResult _ _)

theorem erases_conclude (owner : CallId) (cfg : Config) (paths : List String) (key : String)
    (receivedAt : DateTime) (activationDeadline : ℚ) (s : OcrState) (decision : MatchDecision) :
    Erases untraced TracedResult.result
      (conclude owner cfg paths key receivedAt activationDeadline s decision)
      (GateProcessor.conclude owner cfg paths key receivedAt activationDeadline s decision) := by
  refine (erases_perform _).bind fun decisionAt => ?_
  dsimp only [id_eq]
  split
  · exact (unseen_call _).then (erases_record _ _ _)
  · split
    · exact (unseen_call _).then (erases_record _ _ _)
    · cases hallowed : decision.allowed with
      | true =>
          exact (unseen_call _).then ((erases_gate _).bind fun _ => erases_open _ _ _ _ _ _ _ _)
      | false =>
          exact (unseen_call _).then ((erases_gate _).bind fun _ =>
            (erases_perform _).bind fun _ => erases_finishResult _ _)

theorem erases_decideReceived (owner : CallId) (cfg : Config) (a : GateProcessor.ProcessArgs)
    (candidates : List (String × String)) (key : String) (started : ℚ) (receivedAt : DateTime) :
    Erases untraced TracedResult.result
      (decideReceived owner cfg candidates key started receivedAt)
      (GateProcessor.decideBurst owner cfg { a with receivedAt := some receivedAt }
        (candidates.map Prod.fst) key started) := by
  have hskip (reason : String) := erases_recordSkipped cfg
    { paths := candidates.map Prod.fst, reason, receivedAt := some receivedAt
      idempotencyKey := some key, traceGiven := true }
  refine (erases_perform _).bind fun now => (erases_perform _).bind fun clock => ?_
  dsimp only [id_eq]
  split
  · exact hskip _
  · split
    · exact hskip _
    · refine (erases_perform _).attempt.bind fun r => ?_
      cases r with
      | error x => exact erases_handler (hskip _)
      | ok authorised =>
          have hloop := erases_ocrLoop cfg started authorised (candidates.take maxOcrFrames) 0 {}
          rw [List.map_take] at hloop
          refine hloop.bind fun s => ?_
          refine Erases.bind (f := id) ?_ fun s => ?_
          · dsimp only [id_eq]
            split
            · exact Erases.ret _
            · refine (erases_perform _).bind fun _ => ?_
              dsimp only [id_eq]
              split
              · exact Erases.ret _
              · exact Erases.ret _
          · rcases s with ⟨observations, failureReason, decision, timedOut⟩
            cases decision with
            | none => exact hskip _
            | some decision => exact erases_conclude _ _ _ _ _ _ _ _

theorem erases_decideBurst (owner : CallId) (cfg : Config) (a : ProcessArgs)
    (candidates : List (String × String)) (key : String) (started : ℚ) :
    Erases untraced TracedResult.result (decideBurst owner cfg a candidates key started)
      (GateProcessor.decideBurst owner cfg a.toProcessArgs (candidates.map Prod.fst) key
        started) := by
  refine unseen_newTrace.then ((unseen_call _).then ((unseen_seed _ _ _).then
    ((unseen_markBurst _).then ?_)))
  rcases a with ⟨⟨paths, receivedAt, decisionStartedAt, idempotencyKey⟩, processingStartedAt,
    trigger⟩
  cases receivedAt with
  | some receivedAt => exact erases_decideReceived _ _ ⟨paths, none, none, none⟩ _ _ _ _
  | none =>
      exact (erases_perform _).bind fun receivedAt =>
        erases_decideReceived _ _ ⟨paths, none, none, none⟩ _ _ _ _

/-- The known outcome of a key. -/
theorem erases_taken (key : String) :
    Erases untraced TracedResult.result
      (do
        let reason ← gate (takenReason key)
        return ⟨⟨false, reason, none, none⟩, none⟩)
      (do
        let reason ← takenReason key
        return ⟨false, reason, none, none⟩) :=
  (erases_gate _).bind fun _ => Erases.ret (V := untraced) _

theorem erases_process (owner : CallId) (cfg : Config) (a : ProcessArgs) :
    Erases untraced TracedResult.result (process owner cfg a)
      (GateProcessor.process owner cfg a.toProcessArgs) := by
  refine Erases.bind (f := id) ?_ fun started => (erases_gate _).bind fun candidates =>
    (erases_gate _).bind fun taken => ?_
  · cases a.decisionStartedAt with
    | some started => exact Erases.ret started
    | none => exact erases_perform _
  cases taken with
  | false => exact erases_decideBurst _ _ _ _ _ _
  | true =>
      dsimp only [id_eq, if_true]
      by_cases henabled : cfg.outboxEnabled = true
      · rw [if_pos henabled, if_pos henabled]
        refine Erases.bind (f := id) ?_ fun eventId => ?_
        · refine (erases_perform _).bind fun terminal => ?_
          cases terminal with
          | some terminal => exact Erases.ret _
          | none => exact erases_perform _
        · cases eventId with
          | some eventId =>
              exact (erases_gate _).bind fun _ => (erases_perform _).bind fun _ => erases_taken _
          | none => exact erases_taken _
      · rw [if_neg henabled, if_neg henabled]
        exact erases_taken _

/-- The trace decides nothing.  Whatever its methods do, `process` and `record_skipped` do what
they would do without it, and come to the same result. -/
theorem trace_decides_nothing (cfg : Config) :
    (∀ owner a t r, (process owner cfg a).Yields t r → (∀ o ∈ t, untraced.expect o.1 o.2) →
      (GateProcessor.process owner cfg a.toProcessArgs).Yields (untraced.seen t)
        (r.map TracedResult.result)) ∧
    ∀ a t r, (recordSkipped cfg a).Yields t r → (∀ o ∈ t, untraced.expect o.1 o.2) →
      (GateProcessor.recordSkipped cfg a.toSkipArgs).Yields (untraced.seen t)
        (r.map TracedResult.result) :=
  ⟨fun owner a _ _ h hexpect => (erases_process owner cfg a).yields h hexpect,
    fun a _ _ h hexpect => (erases_recordSkipped cfg a).yields h hexpect⟩

/-! ### A gate that opens -/

/-- One frame of a vehicle. -/
def daytime : DateTime := ⟨⟨63072000000000000, by decide⟩, some 0⟩

def frame : ProcessArgs := { paths := ["a.jpg"], receivedAt := some daytime }

/-- Nothing is known of the frame, its plate is authorised, and the relay works. -/
def openGate : (e : Eff) → Except Exc e.Ans
  | .acquire _ => .ok ()
  | .release _ => .ok ()
  | .mark _ => .ok ()
  | .env .clock => .ok daytime
  | .env .decisionClock => .ok 0
  | .env .sleep => .ok ()
  | .env .closed => .ok false
  | .env .authorised => .ok ["AB12"]
  | .env (.contentDigest path) => .ok path
  | .env (.preparePayload _) => .ok []
  | .device .monotonicClock => .ok 0
  | .store (.terminalOutcome _) => .ok none
  | .store (.actuationClaimStatus _) => .ok none
  | .store (.eventId _) => .ok none
  | .store (.claimActuation a) => .ok ⟨a.idempotencyKey, .claimed, some daytime, some 1⟩
  | .store (.markActuationAttempt _) => .ok ()
  | .store (.finalizeActuation _) => .ok 1
  | .store (.recordEventWithOutbox _ _) => .ok 1
  | .store (.attachEventTelemetry _ _) => .ok ()
  | .store (.releaseOutboxWithoutTelemetry _) => .ok ()
  | .mem .bootId => .ok none
  | .mem .lastAttempt => .ok none
  | .mem (.setLastAttempt _) => .ok ()
  | .mem .inhibition => .ok none
  | .mem (.setInhibition _) => .ok ()
  | .relay .shutdownIsSet => .ok false
  | .relay .isLatched => .ok false
  | .relay (.setLatched _) => .ok ()
  | .relay .high => .ok ()
  | .relay .low => .ok ()
  | .relay (.setCallback _) => .ok ()
  | .relay .takeCallback => .ok none
  | .relay (.setOutcome _) => .ok ()
  | .relay (.setOutcomeAt _) => .ok ()
  | .relay .setActivationNotified => .ok ()
  | .relay (.setNotified _) => .ok ()
  | .relay (.waitNotified _) => .ok ()
  | .relay (.startReport _) => .ok ()
  | .relay (.waitActivation _) => .ok ()
  | .relay (.activationReady _) => .ok true
  | _ => .error .other

/-- Every method of the trace raises once it is there. -/
def raising : (e : TracedEff) → Except Exc e.Ans
  | .gate e => openGate e
  | .newTrace => .ok ("trace", daytime, 0)
  | .disable => .ok ()
  | .recognise _ => .ok ⟨some (.error .other), .ok (.observed (some "AB12") 1), "", ""⟩
  | _ => .error .other

/-- The gate is opened, as it is without a trace. -/
theorem trace_decides_nothing_raising :
    ∃ x, (process ⟨0, 0⟩ {} frame).Yields ((process ⟨0, 0⟩ {} frame).trace raising) (.ok x) ∧
      x.result.opened = true ∧ x.telemetry = none ∧
      (GateProcessor.process ⟨0, 0⟩ {} frame.toProcessArgs).Yields
        (untraced.seen ((process ⟨0, 0⟩ {} frame).trace raising)) (.ok x.result) := by
  have hyields := Prog.yields_trace raising (process ⟨0, 0⟩ {} frame)
  have hopened : ((process ⟨0, 0⟩ {} frame).outcome raising).toOption.any
      (fun x => x.result.opened && x.telemetry.isNone) = true := by decide +kernel
  have hexpect : ∀ e, untraced.expect e (raising e) := by
    intro e
    cases e with
    | gate e => trivial
    | onActivation => trivial
    | finish => trivial
    | recognise path => trivial
    | newTrace => trivial
    | disable => trivial
    | trace c => rfl
    | measure path digest => rfl
  obtain ⟨x, hx, hopened⟩ := exists_ok_of_any hopened
  rw [hx] at hyields
  obtain ⟨hopen, hnone⟩ := Bool.and_eq_true_iff.1 hopened
  refine ⟨x, hyields, hopen, Option.isNone_iff_eq_none.1 hnone, ?_⟩
  refine (trace_decides_nothing {}).1 _ _ _ _ hyields fun o ho => ?_
  rw [Prog.answer_of_mem_trace raising _ o ho]
  exact hexpect o.1

end TracedProcessor

end GateController

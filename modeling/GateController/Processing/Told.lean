import GateController.Processing.Transparent

/-!
# The trace tells the decision

`tracing` follows the trace of a call: what every method makes of it, and what `finish` returns.
A trace says which decision was marked last and which outcome of the actuation first (`Says`).
Each method changes this in its own way, `TraceCall.decides` and `TraceCall.acts`, or raises, and
then the trace is gone.

`Told` is what a telemetry has to do with the result it comes with.  There are four cases: the
burst was denied before the coordinator was asked, its last check inhibited the pulse, the
coordinator came to another result, or the burst was too old just before the coordinator was to be
asked.  In this last case the telemetry says that access was allowed, and the result says why
nothing was opened.
-/

namespace GateController

open Data Effects LocalStore ActuationCoordinator EventTelemetry GateProcessor

/-! ## The trace of a call -/

namespace BestEffortTrace

/-- The reports of `mark_relay_finished` since the last call. -/
def reported (trace : BestEffortTrace) (reports : List ClockReading) : BestEffortTrace :=
  reports.foldl (fun trace clock => trace.call .markRelayFinished clock) trace

/-- A call of a method, and the reports before it. -/
def called (trace : BestEffortTrace) (c : TraceCall) : Except Exc Called → BestEffortTrace
  | .ok answer => (trace.reported answer.reports).call c (.ok answer.reading)
  | .error x => trace.call c (.error x)

/-- A call of `finish`, and the reports before it. -/
def finished (trace : BestEffortTrace) (answer : Called) :
    Option EventTelemetry × BestEffortTrace :=
  (trace.reported answer.reports).finish (.ok answer.reading)

end BestEffortTrace

/-- The trace of a call after each of its operations. -/
def tracing : Protocol TracedEff TracedEff.Ans Exc Unit BestEffortTrace where
  start _ := none
  next
    | _, .newTrace, .ok (traceId, wallClock, clock) =>
        some (ProcessingTrace.new traceId wallClock clock)
    | _, .newTrace, .error _ => none
    | _, .disable, _ => none
    | trace, .trace c, r => trace.called c r
    | trace, .onActivation, r => trace.called .markRelayActivation r
    | trace, .recognise _, .ok ⟨some started, _, _, _⟩ => trace.called .markOcrStart started
    | trace, .finish, .ok answer => (trace.finished answer.1).2
    | trace, .finish, .error x => (trace.finish (.error x)).2
    | trace, _, _ => trace
  allow _ _ := True
  expect
    | trace, .finish, .ok answer => answer.2 = (trace.finished answer.1).1
    | _, _, _ => True

/-! ## What a trace says -/

/-- The decision after a call. -/
def TraceCall.decides (c : TraceCall) (decision : Option (String × String)) :
    Option (String × String) :=
  match c with
  | .markDecision outcome reason => some (decision.getD (outcome, reason))
  | .reviseDecision outcome reason => some (outcome, reason)
  | _ => decision

/-- The outcome of the actuation after a call. -/
def TraceCall.acts (c : TraceCall) (actuation : Option (String × Bool × String)) :
    Option (String × Bool × String) :=
  match c with
  | .setActuationOutcome claim attempted relayOutcome =>
      some (actuation.getD (claim, attempted, relayOutcome))
  | _ => actuation

/-- The actuation of a telemetry whose trace heard nothing of it. -/
def notRequested : String × Bool × String := ("not_requested", false, "not_attempted")

/-- The trace says this, and was not finished. -/
structure Says (decision : Option (String × String)) (actuation : Option (String × Bool × String))
    (t : ProcessingTrace) : Prop where
  decision : t.decision.map (fun _ => (t.decisionOutcome, t.decisionReason)) = decision
  marked : t.actuationDetailsMarked = actuation.isSome
  actuation : (t.actuationClaim, t.actuationAttempted, t.relayOutcome) =
    actuation.getD notRequested
  unfinished : t.finishedTelemetry = none

variable {decision : Option (String × String)} {actuation : Option (String × Bool × String)}
  {t t' : ProcessingTrace} {trace : BestEffortTrace}

theorem Says.new (traceId : String) (wallClock : DateTime) (clock : ℚ) :
    Says none none (ProcessingTrace.new traceId wallClock clock) := ⟨rfl, rfl, rfl, rfl⟩

/-- A reading of the clock that was used. -/
theorem clock_read {clock : ClockReading} {f : ℚ → ProcessingTrace}
    (ht : (do return f (← clock) : Except Exc ProcessingTrace) = .ok t') : ∃ now, f now = t' := by
  cases clock with
  | ok now => exact ⟨now, Except.ok.inj ht⟩
  | error x => cases ht

theorem Says.markDecision {outcome reason : String} {clock : ClockReading}
    (h : Says decision actuation t) (ht : t.markDecision outcome reason clock = .ok t') :
    Says (some (decision.getD (outcome, reason))) actuation t' := by
  obtain ⟨hdecision, hmarked, hactuation, hunfinished⟩ := h
  unfold ProcessingTrace.markDecision at ht
  cases hmade : t.decision with
  | none =>
      rw [hmade] at ht hdecision
      obtain ⟨now, rfl⟩ := clock_read ht
      cases hdecision
      exact ⟨rfl, hmarked, hactuation, hunfinished⟩
  | some now =>
      rw [hmade] at ht hdecision
      cases ht
      cases hdecision
      exact ⟨by rw [hmade]; rfl, hmarked, hactuation, hunfinished⟩

theorem Says.reviseDecision {outcome reason : String} {clock : ClockReading}
    (h : Says decision actuation t)
    (ht : t.apply (.reviseDecision outcome reason) clock = .ok t') :
    Says (some (outcome, reason)) actuation t' := by
  have hdecision := h.decision
  change (if t.decision.isNone then t.markDecision outcome reason clock else _) = _ at ht
  cases hmade : t.decision with
  | none =>
      rw [hmade] at ht hdecision
      have := h.markDecision ht
      rwa [← hdecision] at this
  | some now =>
      rw [hmade] at ht
      cases ht
      exact ⟨rfl, h.marked, h.actuation, h.unfinished⟩

theorem Says.setActuationOutcome {claim relayOutcome : String} {attempted : Bool}
    {clock : ClockReading} (h : Says decision actuation t)
    (ht : t.apply (.setActuationOutcome claim attempted relayOutcome) clock = .ok t') :
    Says decision (some (actuation.getD (claim, attempted, relayOutcome))) t' := by
  have hmarked := h.marked
  change Except.ok (if t.actuationDetailsMarked then t else _) = _ at ht
  cases actuation with
  | none =>
      rw [hmarked] at ht
      cases ht
      exact ⟨h.decision, rfl, rfl, h.unfinished⟩
  | some told =>
      rw [hmarked] at ht
      cases ht
      exact ⟨h.decision, hmarked, h.actuation, h.unfinished⟩

/-- A trace that agrees on what it says. -/
theorem Says.same (h : Says decision actuation t)
    (hdecision : (t'.decision, t'.decisionOutcome, t'.decisionReason) =
      (t.decision, t.decisionOutcome, t.decisionReason))
    (hmarked : t'.actuationDetailsMarked = t.actuationDetailsMarked)
    (hactuation : (t'.actuationClaim, t'.actuationAttempted, t'.relayOutcome) =
      (t.actuationClaim, t.actuationAttempted, t.relayOutcome))
    (hfinished : t'.finishedTelemetry = t.finishedTelemetry) : Says decision actuation t' := by
  simp only [Prod.mk.injEq] at hdecision
  obtain ⟨hmade, houtcome, hreason⟩ := hdecision
  obtain ⟨h₁, h₂, h₃, h₄⟩ := h
  exact ⟨by rw [hmade, houtcome, hreason, h₁], hmarked.trans h₂, hactuation.trans h₃,
    hfinished.trans h₄⟩

/-- A method that takes a time only once. -/
theorem Says.stamped {p : Prop} [Decidable p] {clock : ClockReading} {f : ℚ → ProcessingTrace}
    (h : Says decision actuation t) (hf : ∀ now, Says decision actuation (f now))
    (ht : (if p then .ok t else do return f (← clock) : Except Exc ProcessingTrace) = .ok t') :
    Says decision actuation t' := by
  split at ht
  · cases ht
    exact h
  · obtain ⟨now, rfl⟩ := clock_read ht
    exact hf now

theorem Says.seedUpstream {receivedAt processingStartedAt : Option DateTime}
    {decisionStartedAt : Option ℚ} (h : Says decision actuation t)
    (ht : t.seedUpstream receivedAt decisionStartedAt processingStartedAt = .ok t') :
    Says decision actuation t' := by
  unfold ProcessingTrace.seedUpstream at ht
  cases hcapture : wallToMonotonic receivedAt t.wallAnchor t.captured with
  | error x =>
      rw [hcapture] at ht
      cases ht
  | ok capture =>
      cases hburst : upstreamMonotonic decisionStartedAt t.captured with
      | error x =>
          rw [hcapture, hburst] at ht
          cases ht
      | ok burst =>
          rw [hcapture, hburst] at ht
          have hsame {captured : Option ℚ} {ingress startedAt : Option DateTime}
              {burst : Option ℚ} : Says decision actuation
                { t with captured, filesystemIngressAt := ingress, burst
                         burstProcessingStartedAt := startedAt } :=
            h.same rfl rfl rfl rfl
          cases capture with
          | none =>
              cases ht
              exact hsame
          | some capture =>
              cases burst with
              | none =>
                  cases ht
                  exact hsame
              | some burst =>
                  change (if capture ≤ burst then _ else if _ then _ else _) = _ at ht
                  split at ht
                  · cases ht
                    exact hsame
                  · split at ht
                    · cases ht
                      exact hsame
                    · cases ht
                      exact hsame

/-- What a method makes of what the trace says. -/
theorem Says.apply {c : TraceCall} {clock : ClockReading} (h : Says decision actuation t)
    (ht : t.apply c clock = .ok t') : Says (c.decides decision) (c.acts actuation) t' := by
  cases c with
  | markDecision outcome reason => exact h.markDecision ht
  | reviseDecision outcome reason => exact h.reviseDecision ht
  | setActuationOutcome claim attempted relayOutcome => exact h.setActuationOutcome ht
  | seedUpstream receivedAt decisionStartedAt processingStartedAt => exact h.seedUpstream ht
  | setTrigger trigger =>
      cases ht
      exact h.same rfl rfl rfl rfl
  | addFrame frame =>
      change Except.ok (if t.frames.length < maxItems then _ else t) = _ at ht
      cases ht
      split
      · exact h.same rfl rfl rfl rfl
      · exact h
  | addOcrRejection attempt =>
      change Except.ok (if t.ocrAttempts.length < maxItems then _ else t) = _ at ht
      cases ht
      split
      · exact h.same rfl rfl rfl rfl
      · exact h
  | markBurst =>
      refine h.stamped ?_ ht
      exact fun now => h.same rfl rfl rfl rfl
  | markRelayActivation =>
      refine h.stamped ?_ ht
      exact fun now => h.same rfl rfl rfl rfl
  | markRelayFinished =>
      change (if t.actuation.isSome ∧ t.relayFinished.isNone then _ else _) = _ at ht
      split at ht
      · obtain ⟨now, rfl⟩ := clock_read ht
        exact h.same rfl rfl rfl rfl
      · cases ht
        exact h
  | markOcrStart =>
      refine h.stamped ?_ ht
      exact fun now => h.same rfl rfl rfl rfl
  | addOcrAttempt attempt =>
      change t.addOcrAttempt attempt clock = _ at ht
      unfold ProcessingTrace.addOcrAttempt at ht
      split at ht
      · cases ht
        exact h
      · split at ht
        · cases ht
        · obtain ⟨now, rfl⟩ := clock_read ht
          exact h.same rfl rfl rfl rfl

/-! ## What is kept of a trace -/

/-- The trace says this, if it is still kept. -/
def TraceSays (decision : Option (String × String)) (actuation : Option (String × Bool × String))
    (trace : BestEffortTrace) : Prop := ∀ t, trace = some t → Says decision actuation t

theorem TraceSays.none : TraceSays decision actuation none := by
  intro t ht
  cases ht

theorem TraceSays.call (h : TraceSays decision actuation trace) (c : TraceCall)
    (clock : ClockReading) :
    TraceSays (c.decides decision) (c.acts actuation) (trace.call c clock) := by
  intro t' ht'
  cases trace with
  | none => cases ht'
  | some t =>
      change (t.apply c clock).toOption = some t' at ht'
      cases happly : t.apply c clock with
      | error x =>
          rw [happly] at ht'
          cases ht'
      | ok t₁ =>
          rw [happly] at ht'
          cases ht'
          exact (h t rfl).apply happly

theorem TraceSays.reported (h : TraceSays decision actuation trace) (reports : List ClockReading) :
    TraceSays decision actuation (trace.reported reports) := by
  induction reports generalizing trace with
  | nil => exact h
  | cons clock rest ih => exact ih (h.call .markRelayFinished clock)

theorem TraceSays.called (h : TraceSays decision actuation trace) (c : TraceCall)
    (r : Except Exc Called) :
    TraceSays (c.decides decision) (c.acts actuation) (trace.called c r) := by
  cases r with
  | ok answer => exact (h.reported answer.reports).call c _
  | error x => exact h.call c _

/-- What a telemetry says of the decision and of the actuation. -/
structure Reported (outcome reason : String) (actuation : String × Bool × String)
    (telemetry : EventTelemetry) : Prop where
  outcome : telemetry.decisionOutcome = outcome
  reason : telemetry.decisionReason = reason
  actuation : (telemetry.actuationClaim, telemetry.actuationAttempted, telemetry.relayOutcome) =
    actuation

theorem Says.telemetry {outcome reason : String} {now : ℚ} {telemetry : EventTelemetry}
    (h : Says (some (outcome, reason)) actuation t) (ht : t.telemetry now = .ok telemetry) :
    Reported outcome reason (actuation.getD notRequested) telemetry := by
  have hdecision := h.decision
  unfold ProcessingTrace.telemetry at ht
  cases hstamps : t.stageTimestamps now with
  | error x =>
      rw [hstamps] at ht
      cases ht
  | ok stamps =>
      rw [hstamps] at ht
      cases ht
      cases hmade : t.decision with
      | none =>
          rw [hmade] at hdecision
          cases hdecision
      | some at_ =>
          rw [hmade] at hdecision
          cases hdecision
          exact ⟨rfl, rfl, h.actuation⟩

theorem finish_unfinished (h : t.finishedTelemetry = none) (now : ℚ) :
    t.finish (.ok now) = (t.telemetry now).map fun telemetry =>
      (telemetry, { t with finishedTelemetry := some telemetry }) := by
  unfold ProcessingTrace.finish
  rw [h]
  cases htelemetry : t.telemetry now with
  | ok telemetry =>
      dsimp only [bind, Except.bind]
      rw [htelemetry]
      rfl
  | error x =>
      dsimp only [bind, Except.bind]
      rw [htelemetry]
      rfl

/-- The telemetry of a trace that says this. -/
theorem TraceSays.finished {outcome reason : String} {answer : Called} {telemetry : EventTelemetry}
    (h : TraceSays (some (outcome, reason)) actuation trace)
    (htelemetry : (trace.finished answer).1 = some telemetry) :
    Reported outcome reason (actuation.getD notRequested) telemetry := by
  have hkept := h.reported answer.reports
  unfold BestEffortTrace.finished BestEffortTrace.finish at htelemetry
  cases hreported : trace.reported answer.reports with
  | none =>
      rw [hreported] at htelemetry
      cases htelemetry
  | some t =>
      have hsays := hkept t hreported
      rw [hreported, Option.bind_some, finish_unfinished hsays.unfinished] at htelemetry
      cases hmade : t.telemetry answer.reading with
      | error x =>
          rw [hmade] at htelemetry
          cases htelemetry
      | ok made =>
          rw [hmade] at htelemetry
          cases htelemetry
          exact hsays.telemetry hmade

/-! ## Programs that leave the trace -/

namespace TracedProcessor

variable {α β : Type} {R : α → Prop} {R' : β → Prop}

/-- The program leaves a trace that says this, and returns something with the property. -/
def Leaves (decision : Option (String × String)) (actuation : Option (String × Bool × String))
    (R : α → Prop) (trace : BestEffortTrace) (p : TracedProc α) : Prop :=
  Obeys tracing (fun trace r => TraceSays decision actuation trace ∧ ∀ a, r = .ok a → R a) trace p

/-- Whatever the program returns has the property, if `finish` returns what it makes of the
trace. -/
def Ends (R : α → Prop) (trace : BestEffortTrace) (p : TracedProc α) : Prop :=
  Obeys tracing (fun _ r => ∀ a, r = .ok a → R a) trace p

theorem Leaves.ret {a : α} (h : TraceSays decision actuation trace) (ha : R a) :
    Leaves decision actuation R trace (.ret a) := by
  refine ⟨h, fun b hb => ?_⟩
  cases hb
  exact ha

theorem Leaves.raise {x : Exc} (h : TraceSays decision actuation trace) :
    Leaves decision actuation R trace (.raise x) := by
  refine ⟨h, fun b hb => ?_⟩
  cases hb

theorem Leaves.bind {p : TracedProc α} {f : α → TracedProc β}
    (hp : Leaves decision actuation R trace p)
    (hf : ∀ trace a, TraceSays decision actuation trace → R a →
      Leaves decision actuation R' trace (f a)) :
    Leaves decision actuation R' trace (p >>= f) := by
  refine Obeys.bind hp (fun trace a h => hf trace a h.1 (h.2 a rfl)) fun trace x h => ?_
  refine ⟨h.1, fun b hb => ?_⟩
  cases hb

theorem Leaves.ends {p : TracedProc α} {f : α → TracedProc β}
    (hp : Leaves decision actuation R trace p)
    (hf : ∀ trace a, TraceSays decision actuation trace → R a → Ends R' trace (f a)) :
    Ends R' trace (p >>= f) := by
  refine Obeys.bind hp (fun trace a h => hf trace a h.1 (h.2 a rfl)) fun trace x h b hb => ?_
  cases hb

/-- What a program returns in any case, it returns here. -/
theorem ends_of_gives {p : TracedProc α} (hp : p.Gives R) : Ends R trace p := by
  induction p generalizing trace with
  | ret a =>
      intro b hb
      cases hb
      exact hp
  | raise x =>
      intro b hb
      cases hb
  | call e k ih => exact ⟨trivial, fun r _ => ih r (hp r)⟩

/-- A handler of the exceptions that are no `BaseException`. -/
theorem Leaves.handler {x : Exc} {p : TracedProc α} (h : TraceSays decision actuation trace)
    (hp : Leaves decision actuation R trace p) :
    Leaves decision actuation R trace (if x.isException then p else .raise x) := by
  split
  · exact hp
  · exact Leaves.raise h

/-- One operation. -/
theorem leaves_perform {e : TracedEff} {R : e.Ans → Prop}
    (hkeep : ∀ r, tracing.expect trace e r → TraceSays decision actuation (tracing.next trace e r))
    (hR : ∀ a, R a) : Leaves decision actuation R trace (Prog.perform e) :=
  Obeys.perform trivial fun r hr => ⟨hkeep r hr, fun a _ => hR a⟩

theorem leaves_attempt {p : TracedProc α} (hp : Leaves decision actuation R trace p) :
    Leaves decision actuation (fun r => ∀ a, r = .ok a → R a) trace p.attempt := by
  refine Obeys.attempt_iff.2 (Obeys.mono hp fun trace r h => ⟨h.1, fun r' hr' => ?_⟩)
  cases hr'
  exact h.2

/-- An operation of the gate. -/
theorem leaves_op (e : Eff) (h : TraceSays decision actuation trace) :
    Leaves decision actuation (fun _ => True) trace (Prog.perform (TracedEff.gate e)) :=
  leaves_perform (fun _ _ => h) fun _ => trivial

theorem leaves_bestEffort {p : TracedProc α} {default : α}
    (hp : Leaves decision actuation R trace p) (hdefault : R default) :
    Leaves decision actuation R trace (bestEffort p default) := by
  refine (leaves_attempt hp).bind fun trace r h hr => ?_
  cases r with
  | ok a => exact Leaves.ret h (hr a rfl)
  | error x => exact Leaves.handler h (Leaves.ret h hdefault)

theorem leaves_call (c : TraceCall) (h : TraceSays decision actuation trace) :
    Leaves (c.decides decision) (c.acts actuation) (fun _ => True) trace (call c) := by
  refine leaves_bestEffort ?_ trivial
  refine Leaves.bind (R := fun _ => True) ?_ fun _ _ h _ => Leaves.ret h trivial
  exact leaves_perform (fun r _ => h.called c r) fun _ => trivial

theorem leaves_onActivation (h : TraceSays decision actuation trace) :
    Leaves decision actuation (fun _ => True) trace
      (traced.program () (.env .onActivation)) := by
  have hcall : Leaves decision actuation (fun _ => True) trace
      (Prog.perform TracedEff.onActivation) :=
    leaves_perform (fun r _ => h.called .markRelayActivation r) fun _ => trivial
  refine (leaves_attempt hcall).bind fun trace r h _ => ?_
  cases r with
  | ok a => exact Leaves.ret h trivial
  | error x => exact Leaves.handler h (Leaves.ret h trivial)

theorem leaves_program (e : Eff) (h : TraceSays decision actuation trace) :
    Leaves decision actuation (fun _ => True) trace (traced.program () e) := by
  cases e with
  | env op =>
      cases op with
      | onActivation => exact leaves_onActivation h
      | _ => exact leaves_op _ h
  | _ => exact leaves_op _ h

/-- A program of the gate tells the trace nothing of this. -/
theorem leaves_gate {p : Proc α} (hp : p.Gives R) (h : TraceSays decision actuation trace) :
    Leaves decision actuation R trace (gate p) := by
  induction p generalizing trace with
  | ret a => exact Leaves.ret h hp
  | raise x => exact Leaves.raise h
  | call e k ih =>
      refine (leaves_attempt (leaves_program e h)).bind fun trace r h _ => ?_
      exact ih r (hp r) h

theorem leaves_gate_any (p : Proc α) (h : TraceSays decision actuation trace) :
    Leaves decision actuation (fun _ => True) trace (gate p) :=
  leaves_gate (Prog.Gives.any p) h

/-! ## Until the decision -/

theorem leaves_seed (receivedAt : Option DateTime) (decisionStartedAt : Option ℚ)
    (processingStartedAt : Option DateTime) (h : TraceSays decision actuation trace) :
    Leaves decision actuation (fun _ => True) trace
      (seed receivedAt decisionStartedAt processingStartedAt) := by
  unfold seed
  split
  · exact leaves_call _ h
  · exact Leaves.ret h trivial

theorem leaves_markBurst (decisionStartedAt : Option ℚ) (h : TraceSays decision actuation trace) :
    Leaves decision actuation (fun _ => True) trace (markBurst decisionStartedAt) := by
  unfold markBurst
  split
  · exact leaves_call .markBurst h
  · exact Leaves.ret h trivial

/-- A new trace says nothing yet. -/
theorem leaves_newTrace : Leaves none none (fun _ => True) trace newTrace := by
  have hnew : Leaves none none (fun _ => True) trace (Prog.perform TracedEff.newTrace) := by
    refine leaves_perform (fun r _ => ?_) fun _ => trivial
    cases r with
    | ok clocks =>
        intro t ht
        cases ht
        exact Says.new _ _ _
    | error x => exact TraceSays.none
  exact leaves_bestEffort (hnew.bind fun _ _ h _ => Leaves.ret h trivial) trivial

theorem leaves_skipTrace {a : SkipArgs} (h : a.traceGiven = true → TraceSays none none trace) :
    Leaves none none (fun _ => True) trace (skipTrace a) := by
  unfold skipTrace
  split
  · exact Leaves.ret (h ‹_›) trivial
  · refine leaves_newTrace.bind fun _ _ h _ => ?_
    refine (leaves_seed _ _ _ h).bind fun _ _ h _ => ?_
    refine (leaves_markBurst _ h).bind fun _ _ h _ => ?_
    exact leaves_call (.setTrigger _) h

theorem leaves_measureFrame (sequence : Nat) (path digest : String)
    (h : TraceSays decision actuation trace) :
    Leaves decision actuation (fun _ => True) trace (measureFrame sequence path digest) := by
  have hmeasure : Leaves decision actuation (fun _ => True) trace
      (Prog.perform (TracedEff.measure path digest)) :=
    leaves_perform (fun r _ => h) fun _ => trivial
  refine (leaves_attempt hmeasure).bind fun trace r h _ => ?_
  cases r with
  | ok quality => exact leaves_call (.addFrame _) h
  | error x =>
      exact Leaves.handler h (leaves_perform (fun r _ => TraceSays.none) fun _ => trivial)

theorem leaves_recognise (path : String) (h : TraceSays decision actuation trace) :
    Leaves decision actuation (fun _ => True) trace (recognise path) := by
  have hrecognise : Leaves decision actuation (fun _ => True) trace
      (Prog.perform (TracedEff.recognise path)) := by
    refine leaves_perform (fun r _ => ?_) fun _ => trivial
    cases r with
    | ok r =>
        rcases r with ⟨started, outcome, make, colour⟩
        cases started with
        | none => exact h
        | some started => exact h.called .markOcrStart started
    | error x => exact h
  refine (leaves_attempt hrecognise).bind fun trace r h _ => ?_
  cases r with
  | ok r => exact Leaves.ret h trivial
  | error x => exact Leaves.ret h trivial

theorem leaves_addStarted (r : Recognised) (sequence : Nat) (status : String)
    (h : TraceSays decision actuation trace) :
    Leaves decision actuation (fun _ => True) trace (addStarted r sequence status) := by
  unfold addStarted
  split
  · exact leaves_call (.addOcrAttempt _) h
  · exact Leaves.ret h trivial

/-- The decision, if there is one, is one of the frames that were read. -/
def Judged (s : OcrState) : Prop :=
  ∀ decision, s.decision = some decision →
    ∃ observations authorised, decision = decideAccess observations authorised

theorem leaves_ocrLoop (cfg : Config) (started : ℚ) (authorised : List String)
    (frames : List (String × String)) (sequence : Nat) (s : OcrState) (hs : Judged s)
    (h : TraceSays decision actuation trace) :
    Leaves decision actuation Judged trace
      (ocrLoop cfg started authorised sequence frames s) := by
  induction frames generalizing sequence s trace with
  | nil => exact Leaves.ret h hs
  | cons frame rest ih =>
      refine (leaves_op _ h).bind fun trace early h _ => ?_
      dsimp only
      split
      · exact Leaves.ret h hs
      · refine (leaves_measureFrame _ _ _ h).bind fun trace _ h _ => ?_
        refine (leaves_op _ h).bind fun trace late h _ => ?_
        split
        · exact Leaves.ret h hs
        · refine (leaves_recognise _ h).bind fun trace r h _ => ?_
          rcases r with ⟨startedAt, outcome, make, colour⟩
          cases outcome with
          | error x =>
              refine Leaves.handler h ?_
              refine (leaves_addStarted _ _ _ h).bind fun trace _ h _ => ?_
              exact ih _ _ hs h
          | ok outcome =>
              cases outcome with
              | busy =>
                  refine (leaves_call (.addOcrRejection _) h).bind fun trace _ h _ => ?_
                  exact Leaves.ret h hs
              | deadlineExceeded =>
                  refine (leaves_addStarted _ _ _ h).bind fun trace _ h _ => ?_
                  exact Leaves.ret h hs
              | observed plate confidence =>
                  refine (leaves_call (.addOcrAttempt _) h).bind fun trace _ h _ => ?_
                  refine (leaves_op _ h).bind fun trace now h _ => ?_
                  have hjudged (timedOut : Bool) : Judged
                      { s with observations := s.observations ++ [⟨plate, confidence⟩]
                               decision := some (decideAccess
                                 (s.observations ++ [⟨plate, confidence⟩]) authorised)
                               timedOut } := by
                    intro decision hdecision
                    cases hdecision
                    exact ⟨_, _, rfl⟩
                  split
                  · exact Leaves.ret h (hjudged _)
                  · split
                    · exact Leaves.ret h (hjudged _)
                    · exact ih _ _ (hjudged _) h

/-! ## What the coordinator answers -/

/-- An execution that opened the gate has the reason of the decision. -/
def ReasonKept (reason : String) (execution : ActuationExecution) : Prop :=
  execution.opened = true → execution.reason = reason

theorem ReasonKept.closed {reason : String} {execution : ActuationExecution}
    (h : execution.opened = false) : ReasonKept reason execution := by
  intro hopened
  rw [h] at hopened
  cases hopened

theorem gives_handler {x : Exc} {handler : Proc α} (hhandler : handler.Gives R) :
    (if x.isException then handler else .raise x : Proc α).Gives R := by
  split
  · exact hhandler
  · exact Prog.Gives.raise

theorem gives_exceptException {p handler : Proc α} (hp : p.Gives R) (hhandler : handler.Gives R) :
    (Proc.exceptException p handler).Gives R := by
  refine hp.attempt.bind fun r hr => ?_
  cases r with
  | ok a => exact Prog.Gives.ret (hr a rfl)
  | error x => exact gives_handler hhandler

theorem gives_withLock {lock : LockId} {body : Proc α} (hbody : body.Gives R) :
    (Proc.withLock lock body).Gives R :=
  Prog.Gives.after fun _ => hbody.attempt.bind fun _ hr => Prog.Gives.after fun _ =>
    Prog.Gives.ofExcept hr

theorem gives_finalize (a : ActuateArgs) (claim : ActuationClaim) (result : RelayResult)
    (inhibition : Option Inhibition) (decisionAt : Option DateTime) :
    (finalize a claim result inhibition decisionAt).Gives (ReasonKept a.event.reason) := by
  refine gives_exceptException (Prog.Gives.after fun eventId => Prog.Gives.ret ?_)
    (Prog.Gives.ret (ReasonKept.closed rfl))
  intro hopened
  exact if_pos hopened

theorem gives_activate (owner : CallId) (cfg : Config) (a : ActuateArgs) (key : String)
    (claimTime : DateTime) (monotonicNow : ℚ) (bootId : Option String) (claim : ActuationClaim) :
    (activate owner cfg a key claimTime monotonicNow bootId claim).Gives
      (ReasonKept a.event.reason) := by
  refine Prog.Gives.after fun r => ?_
  cases r with
  | error x => exact gives_handler (Prog.Gives.ret (ReasonKept.closed rfl))
  | ok _ =>
      refine Prog.Gives.after fun _ => Prog.Gives.after fun result => Prog.Gives.after fun
        inhibition => ?_
      have hconclude : (ActuationCoordinator.conclude a claim result inhibition).Gives
          (ReasonKept a.event.reason) := by
        cases inhibition with
        | some _ => exact Prog.Gives.after fun _ => gives_finalize _ _ _ _ _
        | none => exact gives_finalize _ _ _ _ _
      dsimp only
      split
      · exact Prog.Gives.after fun _ => Prog.Gives.after fun _ => hconclude
      · exact hconclude

theorem gives_afterClaim (owner : CallId) (cfg : Config) (a : ActuateArgs) (key : String)
    (claimTime : DateTime) (monotonicNow : ℚ) (bootId : Option String) (claim : ActuationClaim) :
    (afterClaim owner cfg a key claimTime monotonicNow bootId claim).Gives
      (ReasonKept a.event.reason) := by
  unfold afterClaim
  split
  · exact Prog.Gives.after fun _ => Prog.Gives.ret (ReasonKept.closed rfl)
  · refine Prog.Gives.after fun lastAttempt => ?_
    cases lastAttempt with
    | none => exact gives_activate _ _ _ _ _ _ _ _
    | some lastAttempt =>
        dsimp only
        split
        · exact gives_exceptException
            (Prog.Gives.after fun _ => Prog.Gives.ret (ReasonKept.closed rfl))
            (Prog.Gives.ret (ReasonKept.closed rfl))
        · exact gives_activate _ _ _ _ _ _ _ _
  · exact Prog.Gives.ret (ReasonKept.closed rfl)

theorem gives_replay (a : ActuateArgs) (terminal : TerminalOutcome) :
    (replay a terminal).Gives (ReasonKept a.event.reason) := by
  refine Prog.Gives.after fun _ => ?_
  cases a.commandAck with
  | some ack => exact Prog.Gives.after fun _ => Prog.Gives.ret (ReasonKept.closed rfl)
  | none => exact Prog.Gives.ret (ReasonKept.closed rfl)

theorem gives_actuate (owner : CallId) (cfg : Config) (a : ActuateArgs) :
    (actuate owner cfg a).Gives (ReasonKept a.event.reason) := by
  unfold actuate
  split
  · exact Prog.Gives.raise
  · split
    · exact Prog.Gives.raise
    · refine gives_withLock (Prog.Gives.after fun terminal => ?_)
      cases terminal with
      | some terminal => exact gives_replay a terminal
      | none =>
          refine Prog.Gives.after fun claimTime => Prog.Gives.after fun r => ?_
          cases r with
          | error x => exact gives_handler (Prog.Gives.ret (ReasonKept.closed rfl))
          | ok claimed =>
              rcases claimed with ⟨monotonicNow, bootId, claim⟩
              exact gives_afterClaim _ _ _ _ _ _ _ _

/-! ## What the telemetry tells -/

/-- What a telemetry has to do with the result it comes with. -/
inductive Told (r : ProcessingResult) (telemetry : EventTelemetry) : Prop where
  /-- The burst was denied before the coordinator was asked. -/
  | denied (opened : r.opened = false)
      (reported : Reported "denied" r.reason notRequested telemetry)
  /-- The last check before the pulse, or an earlier call for this key, inhibited it. -/
  | inhibited (opened : r.opened = false) (reason : r.reason ∈ finalInhibitionReasons)
      (reported : Reported "denied" r.reason ("claimed", false, "inhibited") telemetry)
  /-- The coordinator came to another result. -/
  | actuated (decision : MatchDecision) (made : r.decision = some decision)
      (allowed : decision.allowed = true)
      (opened : r.opened = true → r.reason = decision.reason)
      (reason : r.reason ∉ finalInhibitionReasons)
      (reported : Reported "allowed" decision.reason
        (actuationTelemetry { opened := r.opened, reason := r.reason }) telemetry)
  /-- The burst was too old just before the coordinator was to be asked. -/
  | tooLate (decision : MatchDecision) (made : r.decision = some decision)
      (allowed : decision.allowed = true) (opened : r.opened = false)
      (reason : r.reason = "stale_burst")
      (reported : Reported "allowed" decision.reason notRequested telemetry)

/-- The telemetry of a result, if it has one, tells its decision. -/
def Agrees (x : TracedResult) : Prop :=
  ∀ telemetry, x.telemetry = some telemetry → Told x.result telemetry

theorem Agrees.untold {result : ProcessingResult} : Agrees ⟨result, none⟩ := by
  intro telemetry htelemetry
  cases htelemetry

/-- What `finish` returns, it makes of the trace. -/
theorem obeys_finish {outcome reason : String}
    (h : TraceSays (some (outcome, reason)) actuation trace) :
    Ends (fun telemetry : Option EventTelemetry => ∀ tel, telemetry = some tel →
      Reported outcome reason (actuation.getD notRequested) tel) trace finish := by
  refine ⟨trivial, fun r hr => ?_⟩
  cases r with
  | ok answer =>
      intro telemetry htelemetry tel htel
      cases htelemetry
      have hmade : answer.2 = (trace.finished answer.1).1 := hr
      exact h.finished (hmade.symm.trans htel)
  | error x =>
      change Obeys _ _ _ (if x.isException then _ else _)
      split
      · intro telemetry htelemetry tel htel
        cases htelemetry
        cases htel
      · intro telemetry htelemetry
        cases htelemetry

theorem ends_finishResult (cfg : Config) {result : ProcessingResult} {outcome reason : String}
    (h : TraceSays (some (outcome, reason)) actuation trace)
    (htold : ∀ telemetry,
      Reported outcome reason (actuation.getD notRequested) telemetry → Told result telemetry) :
    Ends Agrees trace (finishResult cfg result) := by
  refine Obeys.bind (obeys_finish h) (fun trace telemetry htelemetry => ?_) ?_
  · cases telemetry with
    | none => exact ends_of_gives (Prog.Gives.after fun _ => Prog.Gives.ret Agrees.untold)
    | some telemetry =>
        have hagrees : Agrees ⟨result, some telemetry⟩ := by
          intro tel htel
          cases htel
          exact htold _ (htelemetry _ rfl _ rfl)
        apply ends_of_gives
        cases result.eventId with
        | none => exact Prog.Gives.ret hagrees
        | some eventId => exact Prog.Gives.after fun _ => Prog.Gives.ret hagrees
  · intro _ x _ b hb
    cases hb

/-- Nothing was asked of the coordinator. -/
theorem ends_denied (cfg : Config) {result : ProcessingResult}
    (h : TraceSays (some ("denied", result.reason)) none trace) (hopened : result.opened = false) :
    Ends Agrees trace (finishResult cfg result) :=
  ends_finishResult cfg h fun _ hreported => .denied hopened hreported

theorem ends_record (cfg : Config) (event : GateEvent) (paths : List String) {reason : String}
    {result : Nat → ProcessingResult} (h : TraceSays (some ("denied", reason)) none trace)
    (hreason : ∀ eventId, (result eventId).reason = reason)
    (hopened : ∀ eventId, (result eventId).opened = false) :
    Ends Agrees trace (do
      let eventId ← gate (record cfg event paths)
      finishResult cfg (result eventId)) := by
  refine (leaves_gate_any _ h).ends fun trace eventId h _ => ?_
  rw [← hreason eventId] at h
  exact ends_denied cfg h (hopened eventId)

/-- After any program, if nothing is known of the trace. -/
theorem ends_after {p : TracedProc α} {f : α → TracedProc β}
    (hf : ∀ trace a, Ends R' trace (f a)) : Ends R' trace (p >>= f) := by
  induction p generalizing trace with
  | ret a => exact hf trace a
  | raise x =>
      intro b hb
      cases hb
  | call e k ih => exact ⟨trivial, fun r _ => ih r⟩

/-- A program of the gate, for a trace of which something is known if it was handed over. -/
theorem ends_gate_given {given : Bool} {p : Proc α} {f : α → TracedProc β}
    (h : given = true → TraceSays decision actuation trace)
    (hf : ∀ trace a, (given = true → TraceSays decision actuation trace) → Ends R' trace (f a)) :
    Ends R' trace (gate p >>= f) := by
  cases given with
  | true => exact (leaves_gate_any p (h rfl)).ends fun trace a h _ => hf trace a fun _ => h
  | false => exact ends_after fun trace a => hf trace a fun h => by cases h

theorem ends_recordSkipped (cfg : Config) (a : SkipArgs)
    (h : a.traceGiven = true → TraceSays none none trace) :
    Ends Agrees trace (recordSkipped cfg a) := by
  refine ends_gate_given h fun trace key h => ends_gate_given h fun trace taken h => ?_
  cases taken with
  | true =>
      refine ends_after fun trace eventId => ends_of_gives ?_
      have hreason : (do
          let reason ← gate (takenReason key)
          return ⟨⟨false, reason, eventId, none⟩, none⟩ : TracedProc TracedResult).Gives Agrees :=
        Prog.Gives.after fun _ => Prog.Gives.ret Agrees.untold
      cases cfg.outboxEnabled with
      | false => exact hreason
      | true =>
          cases eventId with
          | none => exact hreason
          | some eventId => exact Prog.Gives.after fun _ => Prog.Gives.after fun _ => hreason
  | false =>
      refine (leaves_skipTrace h).ends fun trace _ h _ => ?_
      refine (leaves_call (.markDecision "denied" a.reason) h).ends fun trace _ h _ => ?_
      have hrest (receivedAt : DateTime) {trace : BestEffortTrace}
          (h : TraceSays (some ("denied", a.reason)) none trace) :
          Ends Agrees trace (do
            let decisionAt ← env .clock
            let eventId ← gate (record cfg {
              source := "ocr", reason := a.reason, opened := false, idempotencyKey := some key
              receivedAt, decisionAt := some decisionAt } a.paths)
            finishResult cfg ⟨false, a.reason, some eventId, none⟩) :=
        (leaves_op _ h).ends fun _ _ h _ => ends_record cfg _ _ h (fun _ => rfl) fun _ => rfl
      cases a.receivedAt with
      | some receivedAt => exact hrest receivedAt h
      | none => exact (leaves_op _ h).ends fun _ receivedAt h _ => hrest receivedAt h

/-! ## From the decision on -/

/-- The decision is not denied for a reason of the last check. -/
def Sound (decision : MatchDecision) : Prop :=
  decision.allowed = true → decision.reason ∉ finalInhibitionReasons

theorem sound_decideCandidate {readings : List (String × PlateObservation)}
    {authorised : List String} {plate : String} {decision : MatchDecision}
    (h : decideCandidate readings authorised plate = some decision) : Sound decision := by
  unfold decideCandidate at h
  dsimp only at h
  split at h
  · cases h
  · split at h
    · cases h
    · cases h
      intro _
      change "two_frame_ocr_confusion" ∉ finalInhibitionReasons
      decide
    · cases h
      intro hallowed
      cases hallowed

theorem sound_decideAccess (observations : List PlateObservation) (authorised : List String) :
    Sound (decideAccess observations authorised) := by
  unfold decideAccess
  dsimp only
  split
  · intro _
    change "exact_match" ∉ finalInhibitionReasons
    decide
  · cases hfound : List.findSome? _ _ with
    | none =>
        intro hallowed
        cases hallowed
    | some decision =>
        obtain ⟨plate, _, hplate⟩ := List.exists_of_findSome?_eq_some hfound
        exact sound_decideCandidate hplate

/-- What the trace says after it was told the coordinator's answer. -/
theorem obeys_tellExecution {execution : ActuationExecution} {reason : String}
    (h : TraceSays (some ("allowed", reason)) none trace) :
    Obeys tracing (fun trace r => r = .ok () →
      TraceSays (some (if execution.reason ∈ finalInhibitionReasons
          then ("denied", execution.reason) else ("allowed", reason)))
        (some (actuationTelemetry execution)) trace) trace
      (tellExecution execution) := by
  unfold tellExecution
  split
  · refine Obeys.bind (leaves_call (.reviseDecision "denied" execution.reason) h) ?_ ?_
    · exact fun trace _ h =>
        Obeys.mono (leaves_call (.setActuationOutcome _ _ _) h.1) fun _ _ h _ => h.1
    · intro _ x _ hx
      cases hx
  · exact Obeys.mono (leaves_call (.setActuationOutcome _ _ _) h) fun _ _ h _ => h.1

theorem actuationTelemetry_eq (execution : ActuationExecution) :
    actuationTelemetry execution =
      actuationTelemetry { opened := execution.opened, reason := execution.reason } := rfl

theorem actuationTelemetry_inhibited {execution : ActuationExecution}
    (hopened : execution.opened = false) (hreason : execution.reason ∈ finalInhibitionReasons) :
    actuationTelemetry execution = ("claimed", false, "inhibited") := by
  have hne (text : String) (htext : text ∉ finalInhibitionReasons) : execution.reason ≠ text := by
    rintro rfl
    exact htext hreason
  unfold actuationTelemetry
  rw [hopened, if_neg Bool.false_ne_true, if_neg (hne _ (by decide)), if_neg (hne _ (by decide)),
    if_neg (hne _ (by decide)), if_pos hreason]

theorem ends_open (owner : CallId) (cfg : Config) (key : String)
    (receivedAt decisionAt : DateTime) (activationDeadline : ℚ) {decision : MatchDecision}
    (payload : Option Fields) (hallowed : decision.allowed = true) (hsound : Sound decision)
    (h : TraceSays (some ("allowed", decision.reason)) none trace) :
    Ends Agrees trace
      (open_ owner cfg key receivedAt decisionAt activationDeadline decision payload) := by
  refine (leaves_op _ h).ends fun trace actuationAt h _ => ?_
  dsimp only
  split
  · refine (leaves_op _ h).ends fun trace eventId h _ => ?_
    exact ends_finishResult cfg h fun telemetry hreported =>
      .tooLate decision rfl hallowed rfl rfl hreported
  · refine (leaves_gate (gives_withLock (gives_actuate owner cfg _)) h).ends
      fun trace execution h hkept => ?_
    have hkept : ReasonKept decision.reason execution := hkept
    refine Obeys.bind (obeys_tellExecution h) (fun trace _ h => ?_) fun _ x _ b hb => by cases hb
    have h := h rfl
    by_cases hreason : execution.reason ∈ finalInhibitionReasons
    · have hopened : execution.opened = false := by
        cases hopened : execution.opened with
        | false => rfl
        | true =>
            rw [hkept hopened] at hreason
            exact absurd hreason (hsound hallowed)
      rw [if_pos hreason, actuationTelemetry_inhibited hopened hreason] at h
      exact ends_finishResult cfg h fun telemetry hreported =>
        .inhibited hopened hreason hreported
    · rw [if_neg hreason, actuationTelemetry_eq] at h
      exact ends_finishResult cfg h fun telemetry hreported =>
        .actuated decision rfl hallowed hkept hreason hreported

theorem ends_conclude (owner : CallId) (cfg : Config) (paths : List String) (key : String)
    (receivedAt : DateTime) (activationDeadline : ℚ) (s : OcrState) {decision : MatchDecision}
    (hsound : Sound decision) (h : TraceSays none none trace) :
    Ends Agrees trace
      (conclude owner cfg paths key receivedAt activationDeadline s decision) := by
  refine (leaves_op _ h).ends fun trace decisionAt h _ => ?_
  dsimp only
  split
  · exact (leaves_call (.markDecision "denied" "decision_timeout") h).ends fun _ _ h _ =>
      ends_record cfg _ _ h (fun _ => rfl) fun _ => rfl
  · split
    · exact (leaves_call (.markDecision "denied" "stale_burst") h).ends fun _ _ h _ =>
        ends_record cfg _ _ h (fun _ => rfl) fun _ => rfl
    · cases hallowed : decision.allowed with
      | true =>
          refine (leaves_call (.markDecision "allowed" decision.reason) h).ends
            fun _ _ h _ => ?_
          exact (leaves_gate_any _ h).ends fun _ payload h _ =>
            ends_open _ _ _ _ _ _ _ hallowed hsound h
      | false =>
          refine (leaves_call (.markDecision "denied" _) h).ends fun _ _ h _ => ?_
          refine (leaves_gate_any _ h).ends fun _ payload h _ => ?_
          exact (leaves_op _ h).ends fun _ eventId h _ => ends_denied cfg h rfl

theorem ends_decideReceived (owner : CallId) (cfg : Config) (candidates : List (String × String))
    (key : String) (started : ℚ) (receivedAt : DateTime) (h : TraceSays none none trace) :
    Ends Agrees trace (decideReceived owner cfg candidates key started receivedAt) := by
  have hskip (reason : String) {trace : BestEffortTrace} (h : TraceSays none none trace) :
      Ends Agrees trace (recordSkipped cfg
        { paths := candidates.map Prod.fst, reason, receivedAt := some receivedAt
          idempotencyKey := some key, traceGiven := true }) :=
    ends_recordSkipped cfg _ fun _ => h
  refine (leaves_op _ h).ends fun trace now h _ => (leaves_op _ h).ends fun trace clock h _ => ?_
  dsimp only
  split
  · exact hskip _ h
  · split
    · exact hskip _ h
    · refine (leaves_attempt (leaves_op _ h)).ends fun trace r h _ => ?_
      cases r with
      | error x =>
          change Ends _ _ (if x.isException then _ else _)
          split
          · exact hskip _ h
          · exact ends_of_gives Prog.Gives.raise
      | ok authorised =>
          have hnone : Judged {} := by
            intro decision hdecision
            cases hdecision
          refine (leaves_ocrLoop _ _ _ _ _ _ hnone h).ends fun trace s h hs => ?_
          refine Leaves.ends (?_ : Leaves none none Judged trace _) fun trace s h hs => ?_
          · split
            · exact Leaves.ret h hs
            · refine (leaves_op _ h).bind fun trace now h _ => ?_
              split
              · exact Leaves.ret h hs
              · exact Leaves.ret h hs
          · rcases s with ⟨observations, failureReason, decision, timedOut⟩
            cases decision with
            | none => exact hskip _ h
            | some decision =>
                obtain ⟨observations, authorised, rfl⟩ := hs decision rfl
                exact ends_conclude _ _ _ _ _ _ _ (sound_decideAccess _ _) h

theorem ends_decideBurst (owner : CallId) (cfg : Config) (a : ProcessArgs)
    (candidates : List (String × String)) (key : String) (started : ℚ) :
    Ends Agrees trace (decideBurst owner cfg a candidates key started) := by
  refine leaves_newTrace.ends fun trace _ h _ => ?_
  refine (leaves_call (.setTrigger a.trigger) h).ends fun trace _ h _ => ?_
  refine (leaves_seed _ _ _ h).ends fun trace _ h _ => ?_
  refine (leaves_markBurst _ h).ends fun trace _ h _ => ?_
  rcases a with ⟨⟨paths, receivedAt, decisionStartedAt, idempotencyKey⟩, processingStartedAt,
    trigger⟩
  cases receivedAt with
  | some receivedAt => exact ends_decideReceived _ _ _ _ _ _ h
  | none => exact (leaves_op _ h).ends fun _ _ h _ => ends_decideReceived _ _ _ _ _ _ h

theorem ends_process (owner : CallId) (cfg : Config) (a : ProcessArgs) :
    Ends Agrees trace (process owner cfg a) := by
  refine ends_after fun trace started => ends_after fun trace candidates =>
    ends_after fun trace taken => ?_
  cases taken with
  | false => exact ends_decideBurst _ _ _ _ _ _
  | true =>
      have hreason (key : String) : (do
          let reason ← gate (takenReason key)
          return ⟨⟨false, reason, none, none⟩, none⟩ : TracedProc TracedResult).Gives Agrees :=
        Prog.Gives.after fun _ => Prog.Gives.ret Agrees.untold
      refine ends_of_gives ?_
      dsimp only [if_true]
      by_cases henabled : cfg.outboxEnabled = true
      · rw [if_pos henabled]
        refine Prog.Gives.after fun eventId => ?_
        cases eventId with
        | some eventId => exact Prog.Gives.after fun _ => Prog.Gives.after fun _ => hreason _
        | none => exact hreason _
      · rw [if_neg henabled]
        exact hreason _

/-- In every complete execution of `process` or `record_skipped` in which `finish` returns what
the trace has collected, a telemetry tells the decision of the result it comes with. -/
theorem telemetry_tells_decision (cfg : Config) :
    (∀ owner a t x telemetry, (process owner cfg a).Yields t (.ok x) →
      tracing.Expected none t → x.telemetry = some telemetry → Told x.result telemetry) ∧
    ∀ a t x telemetry, (recordSkipped cfg a).Yields t (.ok x) →
      tracing.Expected none t → x.telemetry = some telemetry → Told x.result telemetry := by
  constructor
  · intro owner a t x telemetry ht hexpect
    exact (ends_process owner cfg a).yields ht hexpect x rfl telemetry
  · intro a t x telemetry ht hexpect
    have hkeeps : a.traceGiven = true → TraceSays none none none := fun _ => TraceSays.none
    exact (ends_recordSkipped cfg a hkeeps).yields ht hexpect x rfl telemetry

/-- Every method of the trace returns. -/
def heeded (trace : BestEffortTrace) : (e : TracedEff) → Except Exc e.Ans
  | .gate e => openGate e
  | .newTrace => .ok ("trace", daytime, 0)
  | .disable => .ok ()
  | .trace _ => .ok ⟨[], 0⟩
  | .onActivation => .ok ⟨[], 0⟩
  | .finish => .ok (⟨[], 0⟩, (trace.finished ⟨[], 0⟩).1)
  | .measure _ digest => .ok ⟨none, digest, none, none, none, none, none, none, "ok"⟩
  | .recognise _ => .ok ⟨some (.ok ⟨[], 0⟩), .ok (.observed (some "AB12") 1), "", ""⟩

theorem expect_heeded (trace : BestEffortTrace) (e : TracedEff) :
    tracing.expect trace e (heeded trace e) := by
  cases e with
  | finish => rfl
  | _ => trivial

/-- A frame that is not looked at. -/
def dropped : SkipArgs := { paths := ["a.jpg"], reason := "queue_coalesced" }

/-- The gate is opened for one frame, and another is dropped. -/
theorem telemetry_tells_decision_opened :
    (∃ x telemetry, tracing.outcome heeded none (process ⟨0, 0⟩ {} frame) = .ok x ∧
      x.telemetry = some telemetry ∧ x.result.opened = true ∧ Told x.result telemetry) ∧
    ∃ x telemetry, tracing.outcome heeded none (recordSkipped {} dropped) = .ok x ∧
      x.telemetry = some telemetry ∧ x.result.reason = "queue_coalesced" ∧
      Told x.result telemetry := by
  constructor
  · have hyields := tracing.yields_trace heeded none (process ⟨0, 0⟩ {} frame)
    have hopened : (tracing.outcome heeded none (process ⟨0, 0⟩ {} frame)).toOption.any
        (fun x => x.result.opened && x.telemetry.isSome) = true := by decide +kernel
    obtain ⟨x, hx, hopened⟩ := exists_ok_of_any hopened
    rw [hx] at hyields
    obtain ⟨hopen, hsome⟩ := Bool.and_eq_true_iff.1 hopened
    obtain ⟨telemetry, htelemetry⟩ := Option.isSome_iff_exists.1 hsome
    exact ⟨x, telemetry, hx, htelemetry, hopen, (telemetry_tells_decision {}).1 _ _ _ x
      telemetry hyields (tracing.expected_trace heeded expect_heeded none _) htelemetry⟩
  · have hyields := tracing.yields_trace heeded none (recordSkipped {} dropped)
    have htold : (tracing.outcome heeded none (recordSkipped {} dropped)).toOption.any
        (fun x => x.result.reason == "queue_coalesced" && x.telemetry.isSome) = true := by
      decide +kernel
    obtain ⟨x, hx, htold⟩ := exists_ok_of_any htold
    rw [hx] at hyields
    obtain ⟨hreason, hsome⟩ := Bool.and_eq_true_iff.1 htold
    obtain ⟨telemetry, htelemetry⟩ := Option.isSome_iff_exists.1 hsome
    exact ⟨x, telemetry, hx, htelemetry, beq_iff_eq.1 hreason,
      (telemetry_tells_decision {}).2 _ _ x telemetry hyields
        (tracing.expected_trace heeded expect_heeded none _) htelemetry⟩

end TracedProcessor

end GateController

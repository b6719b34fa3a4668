import GateController.Relay.Shutdown

/-!
# The last word before the output goes high

Whatever was asked before, the output goes high only if the check was asked once
more inside the activation boundary, did not object, and the shutdown flag was
unset there.  The watch keeps the last evaluation of the check: whether the
boundary was held from its beginning to now, what the outside has answered, and
its verdict.  The checks of `process` and `execute` are known programs, so their
verdict tells what was so at that moment.
-/

namespace GateController

open Data Effects Proc LocalStore ActuationCoordinator

variable {cfg : Nat → Config} {log : Log}

/-! ## What a check that did not object has found -/

/-- The check of `process` found the processor open, the frame fresh, the plate
authorised and time left. -/
theorem finalInhibition_none {cfg : Config} {receivedAt : DateTime} {plate : String}
    {deadline : ℚ} {answers : List (Σ op : EnvOp, Except Exc op.Ans)}
    (h : (GateProcessor.finalInhibition cfg receivedAt plate deadline).Yields answers (.ok none)) :
    ∃ now authorised clock, answers = [⟨.closed, .ok false⟩, ⟨.clock, .ok now⟩,
        ⟨.authorised, .ok authorised⟩, ⟨.decisionClock, .ok clock⟩] ∧
      GateProcessor.isFresh now receivedAt cfg.maxImageAge = true ∧
      normalisePlate plate ∈ authorised.map normalisePlate ∧ clock < deadline := by
  unfold GateProcessor.finalInhibition at h
  cases h with
  | call _ _ closed h =>
  cases closed with
  | error x => cases h
  | ok closed =>
  cases closed with
  | true => cases h
  | false =>
  cases h with
  | call _ _ now h =>
  cases now with
  | error x => cases h
  | ok now =>
  change Prog.Yields (if !GateProcessor.isFresh now receivedAt cfg.maxImageAge then _ else _) _ _ at h
  split at h
  · cases h
  next hfresh =>
  cases h with
  | call _ _ authorised h =>
  cases authorised with
  | error x =>
      change Prog.Yields (if x.isException then _ else _) _ _ at h
      split at h <;> cases h
  | ok authorised =>
  change Prog.Yields (if normalisePlate plate ∉ authorised.map normalisePlate then _ else _) _ _ at h
  split at h
  · cases h
  next hplate =>
  cases h with
  | call _ _ clock h =>
  cases clock with
  | error x => cases h
  | ok clock =>
  change Prog.Yields (if clock ≥ deadline then _ else _) _ _ at h
  split at h
  · cases h
  next hclock =>
  cases h
  exact ⟨now, authorised, clock, rfl, by simpa using hfresh, not_not.1 hplate, not_le.1 hclock⟩

/-- The time that a command's window allows. -/
theorem expiryAt_none {cfg : Config} {expiresAt now : DateTime}
    (h : DirectCommandExecutor.expiryAt cfg expiresAt now = none) :
    0 < (expiresAt.utc.val - now.utc.val : Int) ∧
      (expiresAt.utc.val - now.utc.val : Int) ≤ cfg.maxCommandLifetime := by
  unfold DirectCommandExecutor.expiryAt at h
  split at h
  · cases h
  · dsimp only at h
    split at h
    · cases h
    · split at h
      · cases h
      · omega

/-- The check of `execute` found the command inside its window. -/
theorem expiryInhibition_none {cfg : Config} {expiresAt : DateTime} {given : Option DateTime}
    {answers : List (Σ op : EnvOp, Except Exc op.Ans)}
    (h : (DirectCommandExecutor.expiryInhibition cfg expiresAt given).Yields answers (.ok none)) :
    ∃ now, (given = some now ∨ given = none ∧ answers = [⟨.clock, .ok now⟩]) ∧
      0 < (expiresAt.utc.val - now.utc.val : Int) ∧
      (expiresAt.utc.val - now.utc.val : Int) ≤ cfg.maxCommandLifetime := by
  unfold DirectCommandExecutor.expiryInhibition at h
  cases given with
  | some now =>
      exact ⟨now, .inl rfl, expiryAt_none (Except.ok.inj (Prog.yields_ret_iff.1 h).2).symm⟩
  | none =>
      cases h with
      | call _ _ now h =>
      cases now with
      | error x => cases x <;> cases h
      | ok now =>
          obtain ⟨rfl, hnone⟩ := Prog.yields_ret_iff.1 h
          exact ⟨now, .inr ⟨rfl, rfl⟩, expiryAt_none (Except.ok.inj hnone).symm⟩

/-! ## The moment of activation -/

/-- What was so in `process` when the check was asked for the last time. -/
def ProcessAllowed (cfg : Config) (s : Watch) (e : Evaluation) : Prop :=
  ∃ m plate started now authorised clock, s.store.marked = some m ∧
    m.event.authorisedPlate = some plate ∧ s.started = some started ∧
    e.answers = [⟨.closed, .ok false⟩, ⟨.clock, .ok now⟩, ⟨.authorised, .ok authorised⟩,
      ⟨.decisionClock, .ok clock⟩] ∧
    GateProcessor.isFresh now m.event.receivedAt cfg.maxImageAge = true ∧
    normalisePlate plate ∈ authorised.map normalisePlate ∧
    clock < started + cfg.decisionTimeout - cfg.activationGuardSeconds

/-- What was so in `execute` when the check was asked for the last time. -/
def CommandAllowed (cfg : Config) (s : Watch) (given : Option DateTime) (e : Evaluation) : Prop :=
  ∃ command now, s.call.command? cfg = some command ∧
    (given = some now ∨ given = none ∧ e.answers = [⟨.clock, .ok now⟩]) ∧
    0 < (command.expiresAt.utc.val - now.utc.val : Int) ∧
    (command.expiresAt.utc.val - now.utc.val : Int) ≤ cfg.maxCommandLifetime

/-- The check was asked inside the boundary that is still held, and has passed. -/
structure Cleared (cfg : Config) (s : Watch) : Prop where
  boundary : s.holds .boundary = true
  asked : ∀ check, s.relay.inhibit = some check → ∃ e, s.relay.evaluation = some e ∧
    e.inside = true ∧ e.verdict = some none ∧ check.Yields e.answers (.ok none)
  process : ∀ a, s.call = .process a → ∃ e, s.relay.evaluation = some e ∧ ProcessAllowed cfg s e
  execute : ∀ payload given, s.call = .execute payload given →
    ∃ e, s.relay.evaluation = some e ∧ CommandAllowed cfg s given e

theorem Watch.Coherent.evaluated {cfg : Config} {s : Watch} (h : s.Coherent cfg)
    (hcl : s.relay.cleared = true) {check : Asking (Option Inhibition)}
    (hcheck : s.relay.inhibit = some check) : ∃ e, s.relay.evaluation = some e ∧ e.inside = true ∧
      e.verdict = some none ∧ check.Yields e.answers (.ok none) := by
  have hpassed := (h.cleared hcl).2
  simp only [RelayWatch.passed, hcheck] at hpassed
  cases hev : s.relay.evaluation with
  | none =>
      rw [hev] at hpassed
      cases hpassed
  | some e =>
      simp only [hev, Bool.and_eq_true, beq_iff_eq] at hpassed
      exact ⟨e, rfl, hpassed.1, hpassed.2, h.verdict check e none hcheck hev hpassed.2⟩

theorem Watch.Coherent.authority {cfg : Config} {s : Watch} (h : s.Coherent cfg)
    (hallow : s.AllowRelay .high) : Cleared cfg s := by
  obtain ⟨⟨-, hentitled⟩, -, hheld, -, hcl, -⟩ := hallow
  have hcalled : s.call.isTrigger = false → s.InhibitOf cfg s.relay.inhibit := fun ht => by
    rcases hentitled with htrue | ⟨-, hc, -⟩
    · exact absurd (ht.symm.trans htrue) Bool.false_ne_true
    · exact (h.called hc).2
  refine ⟨hheld, fun check => h.evaluated hcl, fun a hcall => ?_, fun payload given hcall => ?_⟩
  · have hof := hcalled (by rw [hcall]; rfl)
    simp only [Watch.InhibitOf, hcall] at hof
    obtain ⟨m, plate, started, hm, hplate, hstarted, hinh⟩ := hof
    obtain ⟨e, he, -, -, hyields⟩ := h.evaluated hcl hinh
    obtain ⟨now, authorised, clock, hanswers, hfresh, hin, hclock⟩ := finalInhibition_none hyields
    exact ⟨e, he, m, plate, started, now, authorised, clock, hm, hplate, hstarted, hanswers, hfresh,
      hin, hclock⟩
  · have hof := hcalled (by rw [hcall]; rfl)
    unfold Watch.InhibitOf at hof
    simp only [hcall] at hof
    obtain ⟨command, hcommand, hinh⟩ := hof
    obtain ⟨e, he, -, -, hyields⟩ := h.evaluated hcl hinh
    obtain ⟨now, hnow, hwindow⟩ := expiryInhibition_none hyields
    refine ⟨e, he, command, now, ?_, hnow, hwindow⟩
    rw [hcall]
    exact hcommand

/-- In every run, when a call drives the output high: the last evaluation of its
check was inside the boundary that it holds and did not object, and the shutdown flag
of its process was never set.  Whatever the call stores at its end is about its own
claim and says that the activation was attempted.  A call of the coordinator that
came back from the relay and has ended did store it, unless the clock has failed. -/
theorem last_moment_authority (cfg : Nat → Config) (db : Db) (boot : Option String)
    (l : List (Choice Env Call)) (c : CallId) (r : Except Exc Unit) (earlier : Log)
    (h : .did c (.relay .high) r :: earlier <:+ ((gate cfg).run (gateInit db boot) l).log) :
    ∃ s, ghost (watch cfg) c earlier = some s ∧ Cleared (cfg c.proc) s ∧
      (∀ d r', .did d (.relay .setShutdown) r' ∈ earlier → d.proc ≠ c.proc) ∧
      (∀ a r', .did c (.store (.finalizeActuation a)) r' ∈
          ((gate cfg).run (gateInit db boot) l).log →
        a.retainActivationAttempt = true ∧ ∃ ca, .did c (.store (.claimActuation ca)) (.ok a.claim) ∈
          ((gate cfg).run (gateInit db boot) l).log) ∧
      ∀ result r₁ r₂ before, s.call.isTrigger = false →
        .did c (.mark (.triggerReturned result)) r₁ ∈ before →
        .ended c r₂ :: before <:+ ((gate cfg).run (gateInit db boot) l).log →
        (∃ a r', .did c (.store (.finalizeActuation a)) r' ∈ before) ∨
          ∃ x, .did c (.device .monotonicClock) (.error x) ∈ before := by
  obtain ⟨hsound, -, hsealed⟩ := gate_run (sealed_keeps cfg) (Sealed.init db boot)
    ((gate cfg).admits_true (gateInit db boot) l) rfl
  have hlaw := hsound.lawful
  obtain ⟨s, s', hs, hallow, -, hs', hlater⟩ := later_of_did hlaw h
  have hsuffix := (List.suffix_cons _ _).trans h
  have hcoh := coherent_of_lawful (hlaw.suffix hsuffix) c s hs
  have hlit : s'.relay.lit = true := hlater.lit rfl
  refine ⟨s, hs, hcoh.authority hallow, fun d r' => hsealed.high.at h c r rfl d r',
    fun a r' hmem => ?_, fun result r₁ r₂ before htrigger hreturned hended => ?_⟩
  · obtain ⟨later, before, hsplit⟩ := List.append_of_mem hmem
    have hfinal : .did c (.store (.finalizeActuation a)) r' :: before <:+
        ((gate cfg).run (gateInit db boot) l).log := ⟨later, hsplit.symm⟩
    obtain ⟨t, t', ht, hallow', -, ht', hlater'⟩ := later_of_did hlaw hfinal
    rw [hs'] at ht'
    cases ht'
    -- What was stored is about a call that has lit the output in the end.
    have hstored := hlater'.finalized (a, isOk r') rfl
    obtain ⟨⟨ca, hown, -⟩, -, hkept⟩ := (coherent_of_lawful hlaw c s' hs').finalized a _ hstored
    exact ⟨(hkept hlit).1, ca, claimed_event hlaw hs' hown⟩
  · -- At its end the call is as it is at the end of the run.
    obtain ⟨-, t, ht, hconcluded⟩ := hlaw.ended hended
    have hsame : t = s' := Option.some.inj (ht.symm.trans ((hlaw.settled hended).1.symm.trans hs'))
    subst hsame
    have hbefore := hlaw.suffix ((List.suffix_cons _ _).trans hended)
    obtain ⟨middle, start, hsplit⟩ := List.append_of_mem hreturned
    have hmark : .did c (.mark (.triggerReturned result)) r₁ :: start <:+ before :=
      ⟨middle, hsplit.symm⟩
    obtain ⟨u, u', -, -, -, hu', hback⟩ := later_of_did hbefore hmark
    rw [ht] at hu'
    cases hu'
    obtain ⟨result', hresult⟩ := Option.isSome_iff_exists.1 (hback.returned rfl)
    have hcoordinated : t.call.isTrigger = false := by
      rw [hlater.call]
      exact htrigger
    rcases hconcluded.finalized hcoordinated result' hresult hlit with hfinal | hclock
    · obtain ⟨⟨a, done⟩, hfinal⟩ := Option.isSome_iff_exists.1 hfinal
      obtain ⟨r', hmem⟩ := finalized_event hbefore ht hfinal
      exact .inl ⟨a, r', hmem⟩
    · exact .inr (clockFailed_event hbefore ht hclock)

/-! ## A command that opens the gate -/

/-- A moment in the year 1997. -/
def noon : DateTime := ⟨⟨63000000000000000, by decide⟩, some 0⟩

/-- The outside at that moment, with nothing in the way. -/
def calm : Env where
  now := noon
  answer
    | .clock => .ok noon
    | .decisionClock => .ok 1
    | .ask => .ok none
    | .onActivation => .ok ()
    | .onDeactivation _ => .ok ()
    | .sleep => .ok ()
    | .closed => .ok false
    | .authorised => .ok []
    | .contentDigest path => .ok path
    | .recognise _ => .ok .busy
    | .preparePayload _ => .ok []
    | .finishTrace => .ok none
  monotonic := .ok 100
  played := .ok true

/-- A command to open the gate that is valid for five seconds. -/
def openCommand (key : String) : Json := .obj [
  ("controller_id", .str "gate"),
  ("command", .str "open_gate"),
  ("idempotency_key", .str key),
  ("expires_at", .str "1997-05-23T16:00:05+00:00")]

/-- A process is started, and a call of it makes a number of steps. -/
def startThen (call : Call) (steps : Nat) : List (Choice Env Call) :=
  .begin ⟨0, 0⟩ .start :: List.replicate 10 (.step ⟨0, 0⟩ calm) ++
    .begin ⟨0, 1⟩ call :: List.replicate steps (.step ⟨0, 1⟩ calm)

/-- The log of a command that opens the gate, from the moment of activation to its end. -/
def openLog : Log :=
  ((gate fun _ => {}).run (gateInit Db.fresh)
    (startThen (.execute (openCommand "k") (some noon)) 60)).log

set_option maxRecDepth 4000 in
theorem openLog_high : openLog.drop 20 = .did ⟨0, 1⟩ (.relay .high) (.ok ()) :: openLog.drop 21 := by
  rfl

set_option maxRecDepth 4000 in
theorem openLog_ended : ∃ r, openLog = .ended ⟨0, 1⟩ r :: openLog.tail := ⟨_, rfl⟩

set_option maxRecDepth 4000 in
theorem openLog_returned : ∃ result, .did ⟨0, 1⟩ (.mark (.triggerReturned result)) (.ok ()) ∈
    openLog.tail :=
  ⟨_, List.mem_of_getElem? (i := 5) rfl⟩

/-- The clock is never the one to fail. -/
theorem openLog_clock : openLog.all (fun
    | .did _ (.device .monotonicClock) (.error _) => false
    | _ => true) = true := by
  decide +kernel

theorem last_moment_authority_command :
    ∃ s, ghost (watch fun _ => {}) ⟨0, 1⟩ (openLog.drop 21) = some s ∧ Cleared {} s ∧
      ∃ a r, .did ⟨0, 1⟩ (.store (.finalizeActuation a)) r ∈ openLog ∧
        a.retainActivationAttempt = true ∧
        ∃ ca, .did ⟨0, 1⟩ (.store (.claimActuation ca)) (.ok a.claim) ∈ openLog := by
  obtain ⟨r, hended⟩ := openLog_ended
  obtain ⟨result, hreturned⟩ := openLog_returned
  obtain ⟨s, hs, hcleared, -, hfinal, hstored⟩ := last_moment_authority (fun _ => {}) Db.fresh none
    _ ⟨0, 1⟩ (.ok ()) (openLog.drop 21) (openLog_high ▸ List.drop_suffix 20 openLog)
  have hcommand : s.call.isTrigger = false := by
    have hcall : (ghost (watch fun _ => {}) ⟨0, 1⟩ (openLog.drop 21)).map
        (fun s => s.call.isTrigger) = some false := by
      decide +kernel
    rw [hs] at hcall
    exact Option.some.inj hcall
  refine ⟨s, hs, hcleared, ?_⟩
  rcases hstored result (.ok ()) r openLog.tail hcommand hreturned (hended ▸ List.suffix_rfl) with
    ⟨a, r', hmem⟩ | ⟨x, hmem⟩
  · have hlog := List.mem_of_mem_tail hmem
    exact ⟨a, r', hlog, hfinal a r' hlog⟩
  · exact absurd (List.all_eq_true.1 openLog_clock _ (List.mem_of_mem_tail hmem)) (by simp)

end GateController

import GateController.Runtime.Watch

/-!
# The relay controller keeps to the rules

What each part of `RelayController` does to the watch of its call.  A part that
turns the output off says whether it succeeded, and `trigger` as a whole says
what its result tells about the output.
-/

namespace GateController

open Data Effects Proc

variable {cfg : Nat → Config} {c : CallId} {s : Watch}

/-! ## Operations without a rule -/

/-- Nothing changed but the answers noted for a check, and perhaps the start. -/
structure Quiet (s s' : Watch) : Prop where
  call : s'.call = s.call
  holds : s'.holds = s.holds
  store : s'.store = s.store
  started : ∀ value, s.started = some value → s'.started = some value
  relay : ∃ evaluation, s'.relay = { s.relay with evaluation }

theorem Quiet.refl (s : Watch) : Quiet s s := ⟨rfl, rfl, rfl, fun _ h => h, s.relay.evaluation, rfl⟩

theorem Quiet.trans {s₁ s₂ s₃ : Watch} (h₁ : Quiet s₁ s₂) (h₂ : Quiet s₂ s₃) : Quiet s₁ s₃ := by
  obtain ⟨e₁, he₁⟩ := h₁.relay
  obtain ⟨e₂, he₂⟩ := h₂.relay
  refine ⟨h₂.call.trans h₁.call, h₂.holds.trans h₁.holds, h₂.store.trans h₁.store,
    fun v hv => h₂.started v (h₁.started v hv), e₂, ?_⟩
  rw [he₂, he₁]

/-- The operations that only answer, or that touch fields no rule is about. -/
def QuietOp : Eff → Prop
  | .env _ => True
  | .relay op =>
      match op with
      | .setCallback _ => True
      | .takeCallback => True
      | .setOutcome _ => True
      | .setOutcomeAt _ => True
      | .setActivationNotified => True
      | .waitActivation _ => True
      | .activationReady _ => True
      | .setNotified _ => True
      | .waitNotified _ => True
      | .startReport _ => True
      | _ => False
  | _ => False

theorem quiet_answer (s : Watch) (op : EnvOp) (r : Except Exc op.Ans) :
    Quiet s (s.next (.env op) r) := by
  refine ⟨rfl, rfl, rfl, fun v hv => ?_, ?_⟩
  · simp only [Watch.next, hv]
    unfold nextStarted
    split <;> rfl
  · simp only [Watch.next, RelayWatch.answer]
    split
    · split
      · exact ⟨_, rfl⟩
      · exact ⟨_, rfl⟩
    · exact ⟨_, rfl⟩

theorem QuietOp.allow {e : Eff} (h : QuietOp e) (cfg : Config) (s : Watch) : s.allow cfg e := by
  cases e with
  | env op => trivial
  | relay op => cases op <;> first | exact h.elim | trivial
  | _ => exact h.elim

theorem QuietOp.next {e : Eff} (h : QuietOp e) (s : Watch) (r : Except Exc e.Ans) :
    Quiet s (s.next e r) := by
  cases e with
  | env op => exact quiet_answer s op r
  | relay op => cases op <;> first | exact h.elim | exact Quiet.refl _
  | _ => exact h.elim

/-- A program of such operations. -/
theorem obeys_quiet {α : Type} {p : Proc α} (hp : p.Only QuietOp) :
    Obeys (watch cfg c) (fun s' _ => Quiet s s') s p := by
  induction p generalizing s with
  | ret a => exact Quiet.refl s
  | raise x => exact Quiet.refl s
  | call e k ih =>
      obtain ⟨he, hk⟩ := hp
      exact ⟨he.allow _ s, fun r _ => (ih r (hk r)).mono fun _ _ h => (he.next s r).trans h⟩

theorem only_env (op : EnvOp) : (env op).Only QuietOp := Prog.Only.perform_iff.2 trivial

theorem only_asking {α : Type} (p : Asking α) : (asking p).Only QuietOp := by
  induction p with
  | ret a => trivial
  | raise x => trivial
  | call e k ih => exact ⟨trivial, ih⟩

/-- `with lock:` around a body. -/
theorem obeys_withLock {α : Type} {lock : LockId} {body : Proc α}
    {Q R : Watch → Except Exc α → Prop} (hfree : s.AllowAcquire (cfg c.proc) lock)
    (hbody : Obeys (watch cfg c) R { s with holds := Function.update s.holds lock true } body)
    (hleave : ∀ s' r, R s' r → s'.AllowRelease lock ∧ Q (s'.next (.release lock) (.ok ())) r) :
    Obeys (watch cfg c) Q s (withLock lock body) := by
  unfold withLock
  rw [Obeys.bind_iff]
  refine Obeys.perform hfree fun r hr => ?_
  cases (show r = .ok () from hr.1)
  dsimp only
  rw [Obeys.bind_iff, Obeys.attempt_iff]
  refine hbody.mono fun s' r h => ?_
  obtain ⟨hrelease, hQ⟩ := hleave s' r h
  dsimp only
  rw [Obeys.bind_iff]
  refine Obeys.perform hrelease fun r' hr' => ?_
  cases (show r' = .ok () from hr'.1)
  dsimp only
  rw [Obeys.ofExcept_iff]
  exact hQ

/-- Only the locks of the coordinator and of the prompts have a rule of their own. -/
theorem Watch.allowAcquire_of_free {cfg : Config} {lock : LockId} (hfree : s.holds lock = false)
    (hc : lock ≠ .coordinator) (hp : lock ≠ .prompt) : s.AllowAcquire cfg lock :=
  ⟨hfree, fun h => absurd h (by simp [hc, hp])⟩

namespace RelayController

theorem only_recordOutcome (outcome : String) (observedAt : Option DateTime) :
    (recordOutcome outcome observedAt).Only QuietOp := by
  refine Prog.Only.bind (Prog.Only.perform_iff.2 trivial) fun _ => ?_
  cases observedAt with
  | some at_ => exact Prog.Only.perform_iff.2 trivial
  | none =>
      exact Prog.Only.bind (Prog.Only.perform_iff.2 trivial) fun _ =>
        Prog.Only.perform_iff.2 trivial

theorem only_notify (callback : Option CallId) : (notify callback).Only QuietOp := by
  cases callback with
  | none => trivial
  | some owner =>
      refine only_exceptException ?_ trivial
      refine Prog.Only.bind (Prog.Only.perform_iff.2 trivial) fun _ => ?_
      refine Prog.Only.bind (Prog.Only.attempt (Prog.Only.perform_iff.2 trivial)) fun _ => ?_
      exact Prog.Only.bind (Prog.Only.perform_iff.2 trivial) fun _ => by simp

theorem only_notifyWithoutWaiting (callback : Option CallId) :
    (notifyWithoutWaiting callback).Only QuietOp := by
  cases callback with
  | none => trivial
  | some owner =>
      refine Prog.Only.bind (Prog.Only.perform_iff.2 trivial) fun ready => ?_
      split
      · exact only_notify _
      · exact only_exceptException (Prog.Only.perform_iff.2 trivial) (Prog.Only.perform_iff.2 trivial)

/-! ## Turning the output off -/

end RelayController

/-- The watch after an `off()` that succeeded. -/
def Watch.off (s : Watch) : Watch := s.next (.relay .low) (.ok ())

namespace RelayController

theorem deenergizeAtBoundary_obeys (n : Nat) (h : s.holds .boundary = true) :
    Obeys (watch cfg c) (fun s' r => (r = .ok true ∧ s' = s.off) ∨ (r = .ok false ∧ s' = s)) s
      (deenergizeAtBoundary n) := by
  induction n with
  | zero => exact .inr ⟨rfl, rfl⟩
  | succ n ih =>
      rw [deenergizeAtBoundary, Obeys.bind_iff, Obeys.attempt_iff]
      refine Obeys.perform h fun r hr => ?_
      rcases hr.1 with rfl | rfl
      · exact .inl ⟨rfl, rfl⟩
      · exact ih

theorem offAtBoundary_obeys (n : Nat) (h : s.holds .boundary = true) :
    Obeys (watch cfg c)
      (fun s' r => (∃ callback, r = .ok (true, callback) ∧ s' = s.off) ∨
        (r = .ok (false, none) ∧ s' = s)) s (offAtBoundary n) := by
  rw [offAtBoundary, Obeys.bind_iff]
  refine (deenergizeAtBoundary_obeys n h).mono fun s' r hr => ?_
  rcases hr with ⟨rfl, rfl⟩ | ⟨rfl, rfl⟩
  · dsimp only
    rw [if_pos rfl, Obeys.bind_iff]
    refine Obeys.perform trivial fun r hr => ?_
    obtain ⟨callback, rfl⟩ := hr.1
    exact .inl ⟨callback, rfl, rfl⟩
  · exact .inr ⟨rfl, rfl⟩

/-- Taking the boundary and leaving it again. -/
theorem release_boundary (s' : Watch) (hfree : s.holds .boundary = false)
    (hcleared : s'.relay.cleared = false)
    (hholds : s'.holds = Function.update s.holds .boundary true) :
    Quiet { s' with holds := s.holds } (s'.next (.release .boundary) (.ok ())) := by
  have hrelay : s'.relay.leave .boundary = { s'.relay with
      evaluation := s'.relay.evaluation.map fun e => { e with inside := false } } := by
    simp only [RelayWatch.leave, ← hcleared]
  have hback : Function.update s'.holds .boundary false = s.holds := by
    rw [hholds, Function.update_idem, ← hfree, Function.update_eq_self]
  exact ⟨rfl, hback, rfl, fun _ h => h, _, hrelay⟩

/-- `_deenergize` turns the output off, or answers false and changes nothing. -/
theorem deenergize_obeys (n : Nat) (hfree : s.holds .boundary = false)
    (hcleared : s.relay.cleared = false) :
    Obeys (watch cfg c)
      (fun s' r => (Quiet s.off s' ∧ r ≠ .ok false) ∨ (Quiet s s' ∧ r = .ok false)) s
      (deenergize n) := by
  rw [deenergize, Obeys.bind_iff]
  refine obeys_withLock (Watch.allowAcquire_of_free hfree (by simp) (by simp))
    (offAtBoundary_obeys n (by simp)) fun s' r hr => ?_
  rcases hr with ⟨callback, rfl, rfl⟩ | ⟨rfl, rfl⟩
  · refine ⟨⟨by simp [Watch.off, Watch.next], by simp, by simp⟩, ?_⟩
    have hleft := release_boundary (Watch.off { s with
      holds := Function.update s.holds .boundary true }) hfree
      (by simpa [Watch.off, Watch.next, RelayWatch.next]) rfl
    dsimp only
    rw [Obeys.bind_iff]
    refine (obeys_quiet (only_notify callback)).mono fun s' r hr => ?_
    cases r with
    | ok u => exact .inl ⟨hleft.trans hr, by simp⟩
    | error x => exact .inl ⟨hleft.trans hr, by simp⟩
  · refine ⟨⟨by simp, by simp, by simp⟩, .inr ⟨?_, rfl⟩⟩
    exact release_boundary { s with holds := Function.update s.holds .boundary true } hfree hcleared
      rfl

end RelayController

/-! ## Pulses -/

/-- A check that asks what the inhibitor asks, and leaves its answer in the
variable of the coordinator if there is one. -/
def Faithful (cfg : Nat → Config) (c : CallId) (inhibit : Asking (Option Inhibition))
    (check : Proc (Option Inhibition)) : Prop :=
  ∀ (s : Watch) (e : Evaluation), s.relay.evaluation = some e → e.verdict = none →
    s.store.inhibition = none →
    Obeys (watch cfg c) (fun s' r =>
      s'.call = s.call ∧ s'.holds = s.holds ∧
      (∀ value, s.started = some value → s'.started = some value) ∧
      (∃ i, s'.store = { s.store with inhibition := i }) ∧
      ∃ answers, s'.relay = { s.relay with
          evaluation := some { e with answers := e.answers ++ answers } } ∧
        inhibit.Yields answers r ∧ (r = .ok none → s'.store.inhibition = none)) s check

/-- What the outside answers to a check is noted. -/
theorem obeys_asking {α : Type} (p : Asking α) (e : Evaluation)
    (he : s.relay.evaluation = some e) (hv : e.verdict = none) :
    Obeys (watch cfg c) (fun s' r =>
      s'.call = s.call ∧ s'.holds = s.holds ∧
      (∀ value, s.started = some value → s'.started = some value) ∧ s'.store = s.store ∧
      ∃ answers, s'.relay = { s.relay with
          evaluation := some { e with answers := e.answers ++ answers } } ∧
        p.Yields answers r) s (asking p) := by
  induction p generalizing s e with
  | ret a =>
      refine ⟨rfl, rfl, fun _ h => h, rfl, [], ?_, .ret a⟩
      simp [← he]
  | raise x =>
      refine ⟨rfl, rfl, fun _ h => h, rfl, [], ?_, .raise x⟩
      simp [← he]
  | call op k ih =>
      refine ⟨trivial, fun r _ => ?_⟩
      have hq := quiet_answer s op r
      have hrelay : (s.next (.env op) r).relay = { s.relay with
          evaluation := some { e with answers := e.answers ++ [⟨op, r⟩] } } := by
        simp [Watch.next, RelayWatch.answer, he, hv]
      have hnext := ih r (s := s.next (.env op) r) { e with answers := e.answers ++ [⟨op, r⟩] }
        (by rw [hrelay]) hv
      refine hnext.mono fun s' r' h => ?_
      obtain ⟨hcall, hholds, hstart, hstore, answers, hrel, hy⟩ := h
      refine ⟨hcall, hholds, fun v hv => hstart v (hq.started v hv), hstore, ⟨op, r⟩ :: answers,
        ?_, .call op k r hy⟩
      rw [hrel, hrelay]
      simp

theorem faithful_asking (inhibit : Asking (Option Inhibition)) :
    Faithful cfg c inhibit (asking inhibit) := by
  intro s e he hv hnone
  refine (obeys_asking inhibit e he hv).mono fun s' r h => ?_
  obtain ⟨hcall, hholds, hstart, hstore, answers, hrel, hy⟩ := h
  exact ⟨hcall, hholds, hstart, ⟨none, by rw [hstore, ← hnone]⟩, answers, hrel, hy,
    fun _ => by rw [hstore, hnone]⟩

theorem faithful_checkInhibition (inhibit : Asking (Option Inhibition)) :
    Faithful cfg c inhibit (ActuationCoordinator.checkInhibition inhibit) := by
  intro s e he hv _
  unfold ActuationCoordinator.checkInhibition
  rw [Obeys.bind_iff]
  refine (obeys_asking inhibit e he hv).mono fun s' r h => ?_
  obtain ⟨hcall, hholds, hstart, hstore, answers, hrel, hy⟩ := h
  cases r with
  | error x =>
      exact ⟨hcall, hholds, hstart, ⟨_, by rw [hstore]⟩, answers, hrel, hy, by simp⟩
  | ok v =>
      dsimp only
      rw [Obeys.bind_iff]
      refine Obeys.perform trivial fun r hr => ?_
      obtain ⟨_, rfl⟩ := hr.1
      refine ⟨hcall, hholds, hstart, ⟨v, ?_⟩, answers, hrel, hy, fun h => ?_⟩
      · change { s'.store with inhibition := v } = _
        rw [hstore]
      · cases h
        rfl

/-- The check that `trigger` was given belongs to the inhibitor of the call. -/
def Checks (cfg : Nat → Config) (c : CallId) :
    Option (Asking (Option Inhibition)) → Option (Proc (Option Inhibition)) → Prop
  | none, none => True
  | some inhibit, some check => Faithful cfg c inhibit check
  | _, _ => False

/-- What holds all through `trigger`: only the coordinator's variable and the
relay side of the watch may have changed. -/
structure Stage (s s' : Watch) : Prop where
  call : s'.call = s.call
  holds : s'.holds = s.holds
  started : ∀ value, s.started = some value → s'.started = some value
  store : ∃ i, s'.store = { s.store with inhibition := i }
  inhibit : s'.relay.inhibit = s.relay.inhibit

theorem Stage.refl (s : Watch) : Stage s s := ⟨rfl, rfl, fun _ h => h, ⟨_, rfl⟩, rfl⟩

theorem Stage.trans {s₁ s₂ s₃ : Watch} (h₁ : Stage s₁ s₂) (h₂ : Stage s₂ s₃) : Stage s₁ s₃ := by
  obtain ⟨i₁, hi₁⟩ := h₁.store
  obtain ⟨i₂, hi₂⟩ := h₂.store
  exact ⟨h₂.call.trans h₁.call, h₂.holds.trans h₁.holds,
    fun v hv => h₂.started v (h₁.started v hv), ⟨i₂, by rw [hi₂, hi₁]⟩,
    h₂.inhibit.trans h₁.inhibit⟩

theorem Stage.entitled {s s' : Watch} (h : Stage s s') (he : s.Entitled) : s'.Entitled := by
  obtain ⟨i, hi⟩ := h.store
  simpa [Watch.Entitled, h.call, h.holds, hi] using he

theorem Quiet.stage {s s' : Watch} (h : Quiet s s') : Stage s s' := by
  obtain ⟨e, he⟩ := h.relay
  exact ⟨h.call, h.holds, h.started, ⟨_, h.store⟩, by rw [he]⟩

namespace RelayController

theorem evaluate_obeys {check : Option (Proc (Option Inhibition))}
    (hch : Checks cfg c s.relay.inhibit check) (hnone : s.store.inhibition = none) :
    Obeys (watch cfg c) (fun s' r => Stage s s' ∧
      (∃ ev, s'.relay = { s.relay with evaluation := ev, cleared := false } ∨
        s.relay.inhibit = none ∧ s'.relay = s.relay) ∧
      (r = .ok none → s'.store.inhibition = none ∧ (s.holds .boundary = true → s'.relay.passed)) ∧
      (s.relay.inhibit = none → r = .ok none)) s (evaluate check) := by
  cases hinh : s.relay.inhibit with
  | none =>
      cases check with
      | some check => simp [Checks, hinh] at hch
      | none =>
          exact ⟨Stage.refl s, ⟨none, .inr ⟨rfl, rfl⟩⟩,
            fun _ => ⟨hnone, fun _ => by simp [RelayWatch.passed, hinh]⟩, fun _ => rfl⟩
  | some inhibit =>
      cases check with
      | none => simp [Checks, hinh] at hch
      | some check =>
          simp only [Checks, hinh] at hch
          rw [evaluate, Obeys.bind_iff]
          refine Obeys.perform trivial fun r hr => ?_
          cases (show r = .ok () from hr.1)
          dsimp only
          rw [Obeys.bind_iff]
          refine (hch (s.next (.mark .evaluating) (.ok ())) { inside := s.holds .boundary } rfl rfl
            hnone).mono fun s' r h => ?_
          obtain ⟨hcall, hholds, hstart, ⟨i, hstore⟩, answers, hrel, hy, hinone⟩ := h
          have hstage : Stage s s' := ⟨hcall, hholds, hstart, ⟨i, hstore⟩, by rw [hrel]; rfl⟩
          cases r with
          | error x =>
              exact ⟨hstage, ⟨_, .inl hrel⟩, by simp, by simp⟩
          | ok v =>
              dsimp only
              rw [Obeys.bind_iff]
              refine Obeys.perform ⟨inhibit, _, by rw [hrel]; exact hinh, by rw [hrel], rfl, hy⟩
                fun r hr => ?_
              cases (show r = .ok () from hr.1)
              have hrel' : (s'.next (.mark (.evaluated v)) (.ok ())).relay = { s.relay with
                  evaluation := some { inside := s.holds .boundary, answers, verdict := some v }
                  cleared := false } := by
                simp [Watch.next, Watch.nextMark, hrel]
              refine ⟨⟨hcall, hholds, hstart, ⟨i, hstore⟩, hstage.inhibit⟩, ⟨_, .inl hrel'⟩,
                fun h => ⟨hinone h, fun hb => ?_⟩, by simp⟩
              cases h
              rw [watch_next, hrel']
              simp [RelayWatch.passed, hb, hinh]

/-- The check of `trigger`.  Where it does not object inside the boundary, the
output is cleared. -/
theorem activationInhibition_obeys {check : Option (Proc (Option Inhibition))}
    (hch : Checks cfg c s.relay.inhibit check) (hnone : s.store.inhibition = none)
    (hcleared : s.relay.cleared = false) :
    Obeys (watch cfg c) (fun s' r => Stage s s' ∧
      (∃ ev cl, s'.relay = { s.relay with evaluation := ev, cleared := cl }) ∧
      (r = .ok none → s'.store.inhibition = none ∧ s'.relay.cleared = s.holds .boundary) ∧
      (r ≠ .ok none → s'.relay.cleared = false)) s (activationInhibition check) := by
  rw [activationInhibition, Obeys.bind_iff]
  refine (evaluate_obeys hch hnone).mono fun s' r h => ?_
  obtain ⟨hstage, ⟨ev, hrel⟩, hpass, hno⟩ := h
  have hrel' : ∃ ev, s'.relay = { s.relay with evaluation := ev, cleared := false } := by
    rcases hrel with hrel | ⟨-, hrel⟩
    · exact ⟨ev, hrel⟩
    · exact ⟨s.relay.evaluation, by rw [hrel, ← hcleared]⟩
  obtain ⟨ev, hrel'⟩ := hrel'
  cases r with
  | error x => exact ⟨hstage, ⟨ev, false, hrel'⟩, by simp, fun _ => by rw [hrel']⟩
  | ok v =>
      cases v with
      | some i => exact ⟨hstage, ⟨ev, false, hrel'⟩, by simp, fun _ => by rw [hrel']⟩
      | none =>
          obtain ⟨hinone, hpassed⟩ := hpass rfl
          dsimp only
          rw [Obeys.bind_iff]
          refine Obeys.perform trivial fun r hr => ?_
          obtain ⟨flag, rfl⟩ := hr.1
          have hnext : ({ s'.relay with cleared := s'.holds .boundary && s'.relay.passed &&
              (some flag == some false) } : RelayWatch) =
              { s.relay with evaluation := ev, cleared := s'.holds .boundary && s'.relay.passed &&
                (some flag == some false) } := by
            rw [hrel']
          have hst : Stage s (s'.next (.relay .shutdownIsSet) (.ok flag)) :=
            ⟨hstage.call, hstage.holds, hstage.started, hstage.store, hstage.inhibit⟩
          cases flag with
          | true =>
              exact ⟨hst, ⟨ev, _, hnext⟩, by simp, fun _ => by simp [Watch.next, RelayWatch.next,
                Except.toOption]⟩
          | false =>
              refine ⟨hst, ⟨ev, _, hnext⟩, fun _ => ⟨hinone, ?_⟩, by simp⟩
              cases hb : s.holds .boundary with
              | true =>
                  simp [Watch.next, RelayWatch.next, Except.toOption, hpassed hb, hstage.holds, hb]
              | false =>
                  simp [Watch.next, RelayWatch.next, Except.toOption, hstage.holds, hb]

end RelayController

/-- A quiet program and what follows it. -/
theorem obeys_quiet_bind {α β : Type} {p : Proc α} {f : α → Proc β}
    {Q : Watch → Except Exc β → Prop} (hp : p.Only QuietOp)
    (hf : ∀ s' a, Quiet s s' → Obeys (watch cfg c) Q s' (f a))
    (he : ∀ s' x, Quiet s s' → Q s' (.error x)) : Obeys (watch cfg c) Q s (p >>= f) :=
  (obeys_quiet hp).bind hf he

/-- Between the entry of `pulse` and the first `off()`. -/
structure Drive (s s' : Watch) : Prop extends Stage s s' where
  cleared : s'.relay.cleared = false
  lit : s'.relay.lit = true → s'.store.inhibition = none
  dark : s'.relay.lit = false → s'.relay.energised = false

/-- The end of `pulse`: the output is off or the controller latched. -/
structure Safe (s s' : Watch) : Prop extends Stage s s' where
  safe : s'.relay.energised = true → s'.relay.latchedIt = true
  lit : s'.relay.lit = true → s'.store.inhibition = none

theorem Drive.quiet {s s₁ s₂ : Watch} (h : Drive s s₁) (hq : Quiet s₁ s₂) : Drive s s₂ := by
  obtain ⟨e, he⟩ := hq.relay
  refine ⟨h.toStage.trans hq.stage, ?_, ?_, ?_⟩
  · rw [he]
    exact h.cleared
  · rw [he, hq.store]
    exact h.lit
  · rw [he]
    exact h.dark

theorem Safe.quiet {s s₁ s₂ : Watch} (h : Safe s s₁) (hq : Quiet s₁ s₂) : Safe s s₂ := by
  obtain ⟨e, he⟩ := hq.relay
  refine ⟨h.toStage.trans hq.stage, ?_, ?_⟩
  · rw [he]
    exact h.safe
  · rw [he, hq.store]
    exact h.lit

/-- A successful `off()` makes it safe. -/
theorem Drive.off {s s' : Watch} (h : Drive s s') : Safe s s'.off where
  toStage := ⟨h.call, h.holds, h.started, h.store, h.inhibit⟩
  safe := by simp [Watch.off, Watch.next, RelayWatch.next]
  lit := h.lit

/-- So does latching. -/
theorem Drive.latch {s s' : Watch} (h : Drive s s') :
    Safe s (s'.next (.relay (.setLatched true)) (.ok ())) where
  toStage := ⟨h.call, h.holds, h.started, h.store, h.inhibit⟩
  safe := fun _ => rfl
  lit := h.lit

/-- Leaving the boundary after `energise`. -/
theorem Drive.leave_boundary {s₀ s' : Watch} (hfree : s₀.holds .boundary = false)
    (h : Drive { s₀ with holds := Function.update s₀.holds .boundary true } s') :
    Drive s₀ (s'.next (.release .boundary) (.ok ())) := by
  have hleft := RelayController.release_boundary s' hfree h.cleared h.holds
  refine Drive.quiet ?_ hleft
  exact ⟨⟨h.call, rfl, h.started, h.store, h.inhibit⟩, h.cleared, h.lit, h.dark⟩

/-- What the result of a pulse tells about the output. -/
def Tells (s' : Watch) (r : Except Exc RelayResult) : Prop :=
  ∀ result, r = .ok result →
    (result.activated = true → s'.relay.pulsed = true ∧ s'.relay.lit = true ∧
      result.activatedAt ≠ none) ∧
    (s'.relay.lit = true → result.reason ≠ "relay_latched") ∧
    (s'.relay.lit = false → result.activatedAt = none)

/-- The output was high in this call and is off. -/
structure Pulsed (s s' : Watch) : Prop extends Safe s s' where
  pulsed : s'.relay.pulsed = true
  shone : s'.relay.lit = true

theorem Pulsed.quiet {s s₁ s₂ : Watch} (h : Pulsed s s₁) (hq : Quiet s₁ s₂) : Pulsed s s₂ := by
  obtain ⟨e, he⟩ := hq.relay
  refine ⟨h.toSafe.quiet hq, ?_, ?_⟩
  · rw [he]
    exact h.pulsed
  · rw [he]
    exact h.shone

/-- Reading the shutdown flag after the pulse. -/
theorem Pulsed.flag {s s' : Watch} (h : Pulsed s s') (flag : Bool) :
    Pulsed s (s'.next (.relay .shutdownIsSet) (.ok flag)) where
  toSafe := ⟨⟨h.call, h.holds, h.started, h.store, h.inhibit⟩, h.safe, h.lit⟩
  pulsed := h.pulsed
  shone := h.shone

/-- The end of a pulse: the outcome is recorded and the result returned. -/
theorem Pulsed.outcome_obeys {s₀ : Watch} {p : Proc Unit} {key : Option String} {at_ : DateTime}
    (h : Pulsed s₀ s) (hp : p.Only QuietOp) :
    Obeys (watch cfg c) (fun s' r => Safe s₀ s' ∧ Tells s' r) s (do
      p
      return ⟨true, "activated", key, some at_, false⟩) := by
  refine obeys_quiet_bind hp (fun s' _ hq => ?_) fun s' x hq =>
    ⟨h.toSafe.quiet hq, fun _ h => by cases h⟩
  refine ⟨h.toSafe.quiet hq, fun result hr => ?_⟩
  cases hr
  exact ⟨fun _ => ⟨(h.quiet hq).pulsed, (h.quiet hq).shone, by simp⟩, fun _ => by simp,
    fun hdark => absurd (hdark.symm.trans (h.quiet hq).shone) Bool.false_ne_true⟩

namespace RelayController

variable {a : TriggerArgs} {n : Nat}

theorem turnOn_obeys (kind : RelayKind) (hch : Checks cfg c s.relay.inhibit a.preActivationInhibit)
    (hnone : s.store.inhibition = none) (hcleared : s.relay.cleared = false)
    (hentitled : s.Entitled) (htrigger : s.holds .trigger = true)
    (hboundary : s.holds .boundary = true)
    (hunlatched : s.relay.unlatched = true) (hlit : s.relay.lit = false)
    (hdark : s.relay.energised = false) :
    Obeys (watch cfg c) (fun s' r => Drive s s' ∧ (r = .ok none → s'.relay.lit = true) ∧
      (∀ i, r = .ok (some i) → s'.relay.lit = false)) s
      (turnOn kind (activationInhibition a.preActivationInhibit)) := by
  rw [turnOn_eq, turnOn, Obeys.bind_iff]
  refine (activationInhibition_obeys hch hnone hcleared).mono fun s' r h => ?_
  obtain ⟨hstage, ⟨ev, cl, hrel⟩, hpass, hfail⟩ := h
  have hlit' : s'.relay.lit = false := by rw [hrel]; exact hlit
  have hdark' : s'.relay.energised = false := by rw [hrel]; exact hdark
  have hdrive : r ≠ .ok none → Drive s s' := fun hr =>
    ⟨hstage, hfail hr, fun h => absurd (hlit'.symm.trans h) Bool.false_ne_true, fun _ => hdark'⟩
  cases r with
  | error x => exact ⟨hdrive (by simp), by simp, by simp⟩
  | ok v =>
      cases v with
      | some i => exact ⟨hdrive (by simp), by simp, fun _ _ => hlit'⟩
      | none =>
          obtain ⟨hinone, hcl⟩ := hpass rfl
          dsimp only
          rw [Obeys.bind_iff]
          refine Obeys.perform ⟨hstage.entitled hentitled, ?_, ?_, ?_, ?_, hlit'⟩ fun r hr => ?_
          · rw [hstage.holds]
            exact htrigger
          · rw [hstage.holds]
            exact hboundary
          · rw [hrel]
            exact hunlatched
          · rw [hcl]
            exact hboundary
          · have hdone : Drive s (s'.next (.relay .high) r) :=
              ⟨⟨hstage.call, hstage.holds, hstage.started, hstage.store, hstage.inhibit⟩, rfl,
                fun _ => hinone, fun h => by cases h⟩
            cases r with
            | ok u => exact ⟨hdone, fun _ => rfl, by simp⟩
            | error x => exact ⟨hdone, by simp, by simp⟩

theorem energise_obeys (kind : RelayKind) (hch : Checks cfg c s.relay.inhibit a.preActivationInhibit)
    (hnone : s.store.inhibition = none) (hcleared : s.relay.cleared = false)
    (hentitled : s.Entitled) (htrigger : s.holds .trigger = true)
    (hboundary : s.holds .boundary = true)
    (hunlatched : s.relay.unlatched = true) (hlit : s.relay.lit = false)
    (hdark : s.relay.energised = false) :
    Obeys (watch cfg c) (fun s' r => Drive s s' ∧ (r = .ok none → s'.relay.lit = true) ∧
      (∀ result, r = .ok (some result) → s'.relay.lit = false ∧ result.activated = false ∧
        result.activatedAt = none)) s
      (energise c kind a) := by
  rw [energise, Obeys.bind_iff]
  refine (turnOn_obeys kind hch hnone hcleared hentitled htrigger hboundary hunlatched hlit
    hdark).mono fun s' r h => ?_
  obtain ⟨hdrive, hlit', hsome⟩ := h
  cases r with
  | error x => exact ⟨hdrive, by simp, by simp⟩
  | ok v =>
      cases v with
      | none =>
          dsimp only
          rw [Obeys.bind_iff]
          refine Obeys.perform trivial fun r hr => ?_
          obtain ⟨_, rfl⟩ := hr.1
          exact ⟨hdrive.quiet (Quiet.refl _), fun _ => hlit' rfl, by simp⟩
      | some i =>
          refine obeys_quiet_bind (only_recordOutcome _ _) (fun s'' _ hq => ?_) fun s'' x hq =>
            ⟨hdrive.quiet hq, by simp, by simp⟩
          refine ⟨hdrive.quiet hq, by simp, fun result h => ?_⟩
          cases h
          obtain ⟨e, he⟩ := hq.relay
          exact ⟨by rw [he]; exact hsome i rfl, rfl, rfl⟩

theorem Quiet.lit {s s' : Watch} (h : Quiet s s') : s'.relay.lit = s.relay.lit := by
  obtain ⟨e, he⟩ := h.relay
  rw [he]

theorem failed_obeys {s₀ : Watch} (hdrive : Drive s₀ s) (hfree : s.holds .boundary = false)
    {at_ : Option DateTime} (hat : s.relay.lit = false → at_ = none) (x : Exc) :
    Obeys (watch cfg c) (fun s' r => Safe s₀ s' ∧ Tells s' r) s (failed n a at_ x) := by
  rw [failed, Obeys.bind_iff]
  refine (deenergize_obeys n hfree hdrive.cleared).mono fun s' r h => ?_
  rcases h with ⟨hq, hr⟩ | ⟨hq, rfl⟩
  · have hsafe := hdrive.off.quiet hq
    cases r with
    | error y => exact ⟨hsafe, fun _ h => by cases h⟩
    | ok b =>
        cases b with
        | false => exact absurd rfl hr
        | true =>
            dsimp only
            rw [if_pos rfl]
            refine obeys_quiet_bind (only_recordOutcome _ _) (fun s'' _ hq' => ?_) fun s'' y hq' =>
              ⟨hsafe.quiet hq', fun _ h => by cases h⟩
            cases hx : x.isException with
            | true =>
                refine ⟨hsafe.quiet hq', fun result h => ?_⟩
                cases h
                have hoff : s'.relay.lit = s.relay.lit := (Quiet.lit hq :)
                have hlit : s''.relay.lit = s.relay.lit := (Quiet.lit hq').trans hoff
                exact ⟨fun h => (by cases h), fun _ => by simp, fun hdark => hat (hlit ▸ hdark)⟩
            | false => exact ⟨hsafe.quiet hq', fun _ h => by cases h⟩
  · dsimp only
    rw [if_neg Bool.false_ne_true, Obeys.bind_iff]
    refine Obeys.perform (.inl rfl) fun r hr => ?_
    obtain ⟨_, rfl⟩ := hr.1
    have hsafe := (hdrive.quiet hq).latch
    refine obeys_quiet_bind (only_recordOutcome _ _) (fun s'' _ hq' => ?_) fun s'' y hq' =>
      ⟨hsafe.quiet hq', fun _ h => by cases h⟩
    cases hx : x.isException with
    | true =>
        refine ⟨hsafe.quiet hq', fun result h => ?_⟩
        cases h
        have hoff : s'.relay.lit = s.relay.lit := Quiet.lit hq
        have hlit : s''.relay.lit = s.relay.lit := (Quiet.lit hq').trans hoff
        exact ⟨fun h => (by cases h), fun _ => by simp, fun hdark => hat (hlit ▸ hdark)⟩
    | false => exact ⟨hsafe.quiet hq', fun _ h => by cases h⟩

theorem finish_obeys {s₀ : Watch} (hdrive : Drive s₀ s) (hfree : s.holds .boundary = false)
    (hlit : s.relay.lit = true) (at_ : DateTime) :
    Obeys (watch cfg c) (fun s' r => Safe s₀ s' ∧ Tells s' r) s (finish c n a at_) := by
  rw [finish, Obeys.bind_iff]
  refine (deenergize_obeys n hfree hdrive.cleared).mono fun s' r h => ?_
  rcases h with ⟨hq, hr⟩ | ⟨hq, rfl⟩
  · have hsafe := hdrive.off.quiet hq
    have hpulsed : Pulsed s₀ s' := by
      obtain ⟨e, he⟩ := hq.relay
      refine ⟨hsafe, ?_, ?_⟩ <;> rw [he] <;> simp [Watch.off, Watch.next, RelayWatch.next, hlit]
    cases r with
    | error y => exact ⟨hsafe, fun _ h => by cases h⟩
    | ok b =>
        cases b with
        | false => exact absurd rfl hr
        | true =>
            dsimp only
            rw [if_pos rfl]
            have hwait : ∀ s'', Pulsed s₀ s'' → Obeys (watch cfg c)
                (fun s' r => Safe s₀ s' ∧ Tells s' r) s'' (do
                  if ← relay .shutdownIsSet then recordOutcome "shutdown_safe"
                  else recordOutcome "activated" (some at_)
                  return ⟨true, "activated", a.idempotencyKey, some at_, false⟩) := by
              intro s'' hp
              rw [Obeys.bind_iff]
              refine Obeys.perform trivial fun r hr => ?_
              obtain ⟨flag, rfl⟩ := hr.1
              have hp' := hp.flag flag
              cases flag with
              | true => exact hp'.outcome_obeys (only_recordOutcome _ _)
              | false => exact hp'.outcome_obeys (only_recordOutcome _ _)
            cases hcb : a.onDeactivation with
            | false => exact hwait s' hpulsed
            | true =>
                refine obeys_quiet_bind (Prog.Only.perform_iff.2 trivial)
                  (fun s'' _ hq' => hwait s'' (hpulsed.quiet hq')) fun s'' x hq' =>
                  ⟨hsafe.quiet hq', fun _ h => by cases h⟩
  · dsimp only
    rw [if_neg Bool.false_ne_true, Obeys.bind_iff]
    refine Obeys.perform (.inl rfl) fun r hr => ?_
    obtain ⟨_, rfl⟩ := hr.1
    have hsafe := (hdrive.quiet hq).latch
    refine obeys_quiet_bind (only_recordOutcome _ _) (fun s'' _ hq' => ?_) fun s'' y hq' =>
      ⟨hsafe.quiet hq', fun _ h => by cases h⟩
    refine ⟨hsafe.quiet hq', fun result h => ?_⟩
    cases h
    have hoff : s'.relay.lit = true := (Quiet.lit hq).trans hlit
    have hlit' : s''.relay.lit = true := (Quiet.lit hq').trans hoff
    exact ⟨fun h => (by cases h), fun _ => by simp,
      fun hdark => absurd (hdark.symm.trans hlit') Bool.false_ne_true⟩

/-- The callback of a trigger call only asks the outside. -/
theorem only_hold (hcb : ∀ callback, a.onActivation = some callback → callback.Only QuietOp) :
    (hold a).Only QuietOp := by
  refine Prog.Only.bind (Prog.Only.attempt ?_) fun _ => Prog.Only.bind ?_ fun _ =>
    Prog.Only.bind (by simp) fun _ => Prog.Only.perform_iff.2 trivial
  · cases h : a.onActivation with
    | none => trivial
    | some callback => exact only_exceptException (hcb callback h) trivial
  · exact Prog.Only.perform_iff.2 trivial

theorem pulse_obeys (kind : RelayKind)
    (hcb : ∀ callback, a.onActivation = some callback → callback.Only QuietOp)
    (hch : Checks cfg c s.relay.inhibit a.preActivationInhibit)
    (hnone : s.store.inhibition = none) (hcleared : s.relay.cleared = false)
    (hentitled : s.Entitled) (htrigger : s.holds .trigger = true)
    (hfree : s.holds .boundary = false)
    (hunlatched : s.relay.unlatched = true) (hlit : s.relay.lit = false)
    (hdark : s.relay.energised = false) :
    Obeys (watch cfg c) (fun s' r => Safe s s' ∧ Tells s' r) s (pulse c kind n a) := by
  rw [pulse, Obeys.bind_iff, Obeys.attempt_iff]
  refine obeys_withLock (Watch.allowAcquire_of_free hfree (by simp) (by simp))
    (energise_obeys kind hch hnone hcleared ?_ ?_ ?_ hunlatched hlit hdark) fun s' r h => ?_
  · simpa [Watch.Entitled, Function.update] using hentitled
  · simpa [Function.update] using htrigger
  · simp
  obtain ⟨hdrive, hlit', hrefused⟩ := h
  refine ⟨⟨by simp [hdrive.holds], by simp, by simp⟩, ?_⟩
  have hout := hdrive.leave_boundary hfree
  have hfree' : (s'.next (.release .boundary) (.ok ())).holds .boundary = false := by
    rw [hout.holds]
    exact hfree
  cases r with
  | error x => exact failed_obeys hout hfree' (fun _ => rfl) x
  | ok v =>
      cases v with
      | some refused =>
          obtain ⟨hdark', hres, hat⟩ := hrefused refused rfl
          have hdark'' : (s'.next (.release .boundary) (.ok ())).relay.lit = false := hdark'
          refine ⟨⟨hout.toStage, fun h => ?_, hout.lit⟩, fun result h => ?_⟩
          · rw [hout.dark hdark''] at h
            cases h
          · cases h
            exact ⟨fun h => absurd (hres.symm.trans h) Bool.false_ne_true,
              fun h => absurd (hdark''.symm.trans h) Bool.false_ne_true, fun _ => hat⟩
      | none =>
          have hlit'' : (s'.next (.release .boundary) (.ok ())).relay.lit = true := hlit' rfl
          dsimp only
          rw [Obeys.bind_iff, Obeys.attempt_iff]
          refine (obeys_quiet (only_env .clock)).mono fun s₁ r hq => ?_
          have hd₁ := hout.quiet hq
          have hf₁ : s₁.holds .boundary = false := by rw [hq.holds]; exact hfree'
          cases r with
          | error x =>
              dsimp only
              rw [Obeys.bind_iff]
              refine Obeys.perform trivial fun r hr => ?_
              obtain ⟨_, rfl⟩ := hr.1
              exact failed_obeys (hd₁.quiet (Quiet.refl _)) hf₁ (fun _ => rfl) x
          | ok at_ =>
              dsimp only
              rw [Obeys.bind_iff, Obeys.attempt_iff]
              refine (obeys_quiet (only_hold hcb)).mono fun s₂ r hq₂ => ?_
              have hd₂ := hd₁.quiet hq₂
              have hf₂ : s₂.holds .boundary = false := by rw [hq₂.holds]; exact hf₁
              cases r with
              | error x =>
                  refine failed_obeys hd₂ hf₂ (fun hdark => ?_) x
                  exact absurd (hdark.symm.trans ((Quiet.lit (hq.trans hq₂)).trans hlit''))
                    Bool.false_ne_true
              | ok u => exact finish_obeys hd₂ hf₂ ((Quiet.lit (hq.trans hq₂)).trans hlit'') at_

/-- A call of `trigger` that is about to begin. -/
structure Idle (s : Watch) : Prop where
  entitled : s.Entitled
  trigger : s.holds .trigger = false
  boundary : s.holds .boundary = false
  inhibition : s.store.inhibition = none
  unlatched : s.relay.unlatched = false
  cleared : s.relay.cleared = false
  lit : s.relay.lit = false
  energised : s.relay.energised = false

/-- The result of `trigger`, noted. -/
def Returned (s s' : Watch) (r : Except Exc RelayResult) : Prop :=
  s'.call = s.call ∧ s'.holds = s.holds ∧
  (∀ value, s.started = some value → s'.started = some value) ∧
  (s'.relay.lit = true → s'.store.inhibition = none) ∧
  match r with
  | .ok result => (∃ i, s'.store = { s.store with
        inhibition := i, returned := some result, monotonic := none }) ∧
      (result.activated = true → s'.relay.lit = true ∧ result.activatedAt ≠ none) ∧
      (s'.relay.lit = true → result.reason ≠ "relay_latched") ∧
      (s'.relay.lit = false → result.activatedAt = none)
  | .error _ => ∃ i, s'.store = { s.store with inhibition := i }

theorem triggerLocked_obeys (kind : RelayKind)
    (hcb : ∀ callback, a.onActivation = some callback → callback.Only QuietOp)
    (hch : Checks cfg c s.relay.inhibit a.preActivationInhibit)
    (hnone : s.store.inhibition = none) (hcleared : s.relay.cleared = false)
    (hentitled : s.Entitled) (htrigger : s.holds .trigger = true)
    (hfree : s.holds .boundary = false)
    (hlit : s.relay.lit = false) (hdark : s.relay.energised = false) :
    Obeys (watch cfg c) (fun s' r => Safe s s' ∧ Tells s' r) s (triggerLocked c kind n a) := by
  rw [triggerLocked, Obeys.bind_iff]
  refine (activationInhibition_obeys hch hnone hcleared).mono fun s' r h => ?_
  obtain ⟨hstage, ⟨ev, cl, hrel⟩, hpass, -⟩ := h
  have hlit' : s'.relay.lit = false := by rw [hrel]; exact hlit
  have hdark' : s'.relay.energised = false := by rw [hrel]; exact hdark
  have hsafe : Safe s s' := ⟨hstage, fun h => absurd (hdark'.symm.trans h) Bool.false_ne_true,
    fun h => absurd (hlit'.symm.trans h) Bool.false_ne_true⟩
  have hrefuse : ∀ s₁ detail, Safe s s₁ → s₁.relay.lit = false →
      Obeys (watch cfg c) (fun s' r => Safe s s' ∧ Tells s' r) s₁ (do
        recordOutcome detail
        return refusal a.idempotencyKey detail) := by
    intro s₁ detail hs₁ hl₁
    refine obeys_quiet_bind (only_recordOutcome _ _) (fun s₂ _ hq => ?_) fun s₂ x hq =>
      ⟨hs₁.quiet hq, fun _ h => by cases h⟩
    refine ⟨hs₁.quiet hq, fun result h => ?_⟩
    cases h
    obtain ⟨e, he⟩ := hq.relay
    refine ⟨fun h => (by cases h), fun h => ?_, fun _ => rfl⟩
    rw [he] at h
    exact absurd (hl₁.symm.trans h) Bool.false_ne_true
  cases r with
  | error x => exact ⟨hsafe, fun _ h => by cases h⟩
  | ok v =>
      cases v with
      | some i => exact hrefuse s' i.detail hsafe hlit'
      | none =>
          obtain ⟨hinone, hcl⟩ := hpass rfl
          dsimp only
          rw [Obeys.bind_iff]
          refine Obeys.perform trivial fun r hr => ?_
          obtain ⟨latched, rfl⟩ := hr.1
          have hstage' : Stage s (s'.next (.relay .isLatched) (.ok latched)) :=
            ⟨hstage.call, hstage.holds, hstage.started, hstage.store, hstage.inhibit⟩
          cases latched with
          | true => exact hrefuse _ _ ⟨hstage', hsafe.safe, hsafe.lit⟩ hlit'
          | false =>
              have hp : Obeys (watch cfg c)
                  (fun s₁ r => Safe (s'.next (.relay .isLatched) (.ok false)) s₁ ∧ Tells s₁ r)
                  (s'.next (.relay .isLatched) (.ok false)) (pulse c kind n a) := by
                refine pulse_obeys kind hcb ?_ hinone ?_ (hstage'.entitled hentitled) ?_ ?_ ?_ hlit'
                  hdark'
                · rw [hstage'.inhibit]
                  exact hch
                · exact hcl.trans hfree
                · rw [hstage'.holds]
                  exact htrigger
                · rw [hstage'.holds]
                  exact hfree
                · simp [Watch.next, RelayWatch.next, hstage.holds, htrigger, Except.toOption]
              refine hp.mono fun s₁ r h => ?_
              exact ⟨⟨hstage'.trans h.1.toStage, h.1.safe, h.1.lit⟩, h.2⟩

/-- `trigger`, as its callers see it. -/
theorem trigger_obeys (kind : RelayKind)
    (hcb : ∀ callback, a.onActivation = some callback → callback.Only QuietOp)
    (hch : Checks cfg c s.relay.inhibit a.preActivationInhibit) (hidle : Idle s) :
    Obeys (watch cfg c) (Returned s) s (trigger c kind n a) := by
  rw [trigger, Obeys.bind_iff]
  refine obeys_withLock (Watch.allowAcquire_of_free hidle.trigger (by simp) (by simp))
    (triggerLocked_obeys kind hcb hch hidle.inhibition hidle.cleared ?_ ?_ ?_ hidle.lit
      hidle.energised) fun s' r h => ?_
  · simpa [Watch.Entitled, Function.update] using hidle.entitled
  · simp
  · simpa [Function.update] using hidle.boundary
  obtain ⟨hsafe, htells⟩ := h
  have hholds : (s'.next (.release .trigger) (.ok ())).holds = s.holds := by
    have h := hsafe.holds
    simp only [Watch.next, h, Function.update_idem]
    rw [← hidle.trigger, Function.update_eq_self]
  obtain ⟨i, hi⟩ := hsafe.store
  refine ⟨⟨by simp [hsafe.holds], fun _ => hsafe.safe, by simp⟩, ?_⟩
  cases r with
  | error x => exact ⟨hsafe.call, hholds, hsafe.started, hsafe.lit, i, hi⟩
  | ok result =>
      dsimp only
      rw [Obeys.bind_iff]
      refine Obeys.perform (fun h => ((htells result rfl).1 h).1) fun r hr => ?_
      cases (show r = .ok () from hr.1)
      refine ⟨hsafe.call, hholds, hsafe.started, hsafe.lit, ⟨i, ?_⟩,
        fun h => ((htells result rfl).1 h).2, (htells result rfl).2⟩
      simp only [watch_next, Watch.next, Watch.nextMark, hi]

/-! ## Construction and shutdown -/

/-- The end of `__init__`. -/
theorem constructed_obeys {s₀ : Watch} (outcome : String) (hcall : s.call = .start)
    (hnew : s.relay.constructed = false)
    (hsafe : s.relay.energised = true → s.relay.latchedIt = true) (hstore : s.store = s₀.store)
    (hholds : s.holds = s₀.holds) :
    Obeys (watch cfg c) (fun s' _ => s'.store = s₀.store ∧ s'.holds = s₀.holds) s (do
      recordOutcome outcome
      relay .constructed) := by
  refine obeys_quiet_bind (only_recordOutcome _ _) (fun s' _ hq => ?_) fun _ _ hq =>
    ⟨hq.store.trans hstore, hq.holds.trans hholds⟩
  obtain ⟨e, he⟩ := hq.relay
  refine Obeys.perform ⟨hq.call.trans hcall, ?_, ?_⟩ fun _ _ =>
    ⟨hq.store.trans hstore, hq.holds.trans hholds⟩
  · rw [he]
    exact hnew
  · rw [he]
    exact hsafe

/-- Construction leaves the output off or the controller latched. -/
theorem construct_obeys (hcall : s.call = .start) (hfree : s.holds .boundary = false)
    (hcleared : s.relay.cleared = false) (hnew : s.relay.constructed = false) :
    Obeys (watch cfg c) (fun s' _ => s'.store = s.store ∧ s'.holds = s.holds) s (construct n) := by
  unfold construct
  split
  · exact ⟨rfl, rfl⟩
  · rw [Obeys.bind_iff]
    refine (deenergize_obeys n hfree hcleared).mono fun s' r h => ?_
    rcases h with ⟨hq, hr⟩ | ⟨hq, rfl⟩
    · obtain ⟨e, he⟩ := hq.relay
      have hdark : s'.relay.energised = false := by rw [he]; rfl
      cases r with
      | error x => exact ⟨hq.store, hq.holds⟩
      | ok safe =>
          dsimp only
          rw [Obeys.bind_iff]
          have hnew' : s'.relay.constructed = false := by
            rw [he]
            exact hnew
          refine Obeys.perform (.inr ⟨hq.call.trans hcall, hnew', by simp [hdark]⟩) fun r hr => ?_
          obtain ⟨_, rfl⟩ := hr.1
          refine constructed_obeys _ (hq.call.trans hcall) hnew' (fun h => ?_) hq.store hq.holds
          exact absurd (hdark.symm.trans h) Bool.false_ne_true
    · dsimp only
      rw [Obeys.bind_iff]
      refine Obeys.perform (.inl rfl) fun r hr => ?_
      obtain ⟨_, rfl⟩ := hr.1
      have hnew' : s'.relay.constructed = false := by
        obtain ⟨e, he⟩ := hq.relay
        rw [he]
        exact hnew
      exact constructed_obeys _ (hq.call.trans hcall) hnew' (fun _ => rfl) hq.store hq.holds

/-- `begin_shutdown` answers true only after an `off()` that followed the flag. -/
theorem beginShutdown_obeys (hcall : s.call = .beginShutdown) (hfree : s.holds .boundary = false) :
    Obeys (watch cfg c)
      (fun s' r => s'.store = s.store ∧ s'.holds = s.holds ∧
        (r = .ok true → s'.relay.offAfterShutdown = true)) s
      (beginShutdown n) := by
  rw [beginShutdown, Obeys.bind_iff]
  refine obeys_withLock (R := fun s' r => s'.holds = Function.update s.holds .boundary true ∧
      s'.store = s.store ∧ ∀ callback, r = .ok (true, callback) → s'.relay.offAfterShutdown = true)
    (Watch.allowAcquire_of_free hfree (by simp) (by simp)) ?_
    fun s' r h => ⟨⟨by simp [h.1], by simp, by simp⟩, ?_⟩
  · rw [Obeys.bind_iff]
    refine Obeys.perform ⟨by simp, hcall⟩ fun r hr => ?_
    obtain ⟨_, rfl⟩ := hr.1
    dsimp only
    rw [Obeys.bind_iff]
    refine Obeys.perform (.inl rfl) fun r hr => ?_
    obtain ⟨_, rfl⟩ := hr.1
    refine (offAtBoundary_obeys n (by simp [Watch.next])).mono fun s' r h => ?_
    rcases h with ⟨callback, rfl, rfl⟩ | ⟨rfl, rfl⟩
    · exact ⟨rfl, rfl, fun _ _ => by simp [Watch.off, Watch.next, RelayWatch.next]⟩
    · exact ⟨rfl, rfl, by simp⟩
  · obtain ⟨hheld, hstore, hoff⟩ := h
    have hholds : (s'.next (.release .boundary) (.ok ())).holds = s.holds := by
      simp only [Watch.next, hheld, Function.update_idem]
      rw [← hfree, Function.update_eq_self]
    cases r with
    | error x => exact ⟨hstore, hholds, by simp⟩
    | ok v =>
        obtain ⟨safe, callback⟩ := v
        refine obeys_quiet_bind (only_notifyWithoutWaiting _) (fun s₁ _ hq₁ => ?_) fun s₁ _ hq =>
          ⟨hq.store.trans hstore, hq.holds.trans hholds, by simp⟩
        refine obeys_quiet_bind (only_recordOutcome _ _) (fun s₂ _ hq₂ => ?_) fun s₂ _ hq =>
          ⟨(hq₁.trans hq).store.trans hstore, (hq₁.trans hq).holds.trans hholds, by simp⟩
        refine ⟨(hq₁.trans hq₂).store.trans hstore, (hq₁.trans hq₂).holds.trans hholds,
          fun hsafe => ?_⟩
        cases hsafe
        obtain ⟨e, he⟩ := (hq₁.trans hq₂).relay
        rw [he]
        exact hoff callback rfl

end RelayController

end GateController

import GateController.Processing.Keys

/-!
# Pulses of an open processor

`process` has its pulse made inside its own lock, and hands the relay a check that asks first
whether the processor was closed.  `Gate` is what is watched of this: the lock, and whether the
processor was seen open since the lock was taken.  The output is driven high only after both.

Everything else that a call does has no part in it (`BareOp`).
-/

namespace GateController

open Data Effects Proc LocalStore

/-- How far a call has come towards a pulse. -/
structure Gate where
  /-- The call is in the section of `_actuation_lock`. -/
  acting : Bool := false
  /-- The processor was seen open in this section. -/
  clear : Bool := false
deriving DecidableEq

namespace Gate

/-- The gate after an operation. -/
def next (g : Gate) : (e : Eff) → Except Exc e.Ans → Gate
  | .acquire .actuation, _ => ⟨true, false⟩
  | .release .actuation, _ => ⟨false, false⟩
  | .env .closed, .ok false => { g with clear := g.acting }
  | _, _ => g

/-- The operations at the gate. -/
def allow (g : Gate) : Eff → Prop
  | .acquire .actuation => g.acting = false
  | .release .actuation => g.acting = true
  | .relay .high => g.acting = true ∧ g.clear = true
  | _ => True

/-- Taking and leaving the lock do not fail. -/
def expect : (e : Eff) → Except Exc e.Ans → Prop
  | .acquire .actuation, r => r = .ok ()
  | .release .actuation, r => r = .ok ()
  | _, _ => True

end Gate

/-- The rules of the gate. -/
def gates : Protocol Eff Eff.Ans Exc Call Gate where
  start _ := {}
  next g := g.next
  allow g := g.allow
  expect _ := Gate.expect

@[simp] theorem gates_next (g : Gate) (e : Eff) (r : Except Exc e.Ans) :
    gates.next g e r = g.next e r := rfl

/-- An operation that is not one of the gate. -/
def BareOp : Eff → Prop
  | .acquire .actuation => False
  | .release .actuation => False
  | .relay .high => False
  | _ => True

/-- An operation inside the section. -/
def InnerOp : Eff → Prop
  | .acquire .actuation => False
  | .release .actuation => False
  | _ => True

variable {α β : Type} {g : Gate} {c : CallId}

theorem BareOp.inner (e : Eff) (h : BareOp e) : InnerOp e := by
  cases e with
  | acquire lock => cases lock <;> first | exact h.elim | trivial
  | release lock => cases lock <;> first | exact h.elim | trivial
  | _ => trivial

theorem BareOp.allow {e : Eff} (h : BareOp e) : g.allow e := by
  cases e with
  | acquire lock => cases lock <;> first | exact h.elim | trivial
  | release lock => cases lock <;> first | exact h.elim | trivial
  | relay op => cases op <;> first | exact h.elim | trivial
  | _ => trivial

theorem InnerOp.next {e : Eff} (h : InnerOp e) (r : Except Exc e.Ans) :
    g.next e r = g ∨ g.next e r = { g with clear := g.acting } := by
  cases e with
  | acquire lock => cases lock <;> first | exact h.elim | exact .inl rfl
  | release lock => cases lock <;> first | exact h.elim | exact .inl rfl
  | env op =>
      cases op with
      | closed =>
          match r with
          | .ok false => exact .inr rfl
          | .ok true => exact .inl rfl
          | .error x => exact .inl rfl
      | _ => exact .inl rfl
  | _ => exact .inl rfl

theorem InnerOp.allow {e : Eff} (h : InnerOp e) : Gate.allow ⟨true, true⟩ e := by
  cases e with
  | acquire lock => cases lock <;> first | exact h.elim | trivial
  | release lock => cases lock <;> first | exact h.elim | trivial
  | relay op => cases op <;> first | exact ⟨rfl, rfl⟩ | trivial
  | _ => trivial

/-- Outside the section. -/
theorem obeys_outside {p : Proc α} (hp : p.Only BareOp) :
    Obeys gates (fun g _ => g = {}) {} p := by
  refine Obeys.of_only hp fun e he => ⟨he.allow, fun r => ?_⟩
  obtain h | h := InnerOp.next (g := {}) (BareOp.inner e he) r
  · exact h
  · exact h

/-- Outside the section, and what comes after. -/
theorem obeys_outside_bind {p : Proc α} {f : α → Proc β} {Q : Gate → Except Exc β → Prop}
    (hp : p.Only BareOp) (hf : ∀ a, Obeys gates Q {} (f a)) (he : ∀ x, Q {} (.error x)) :
    Obeys gates Q {} (p >>= f) := by
  refine (obeys_outside hp).bind ?_ ?_
  · rintro g a rfl
    exact hf a
  · rintro g x rfl
    exact he x

/-- Inside the section. -/
theorem obeys_inside {p : Proc α} (hp : p.Only BareOp) (hg : g.acting = true) :
    Obeys gates (fun g' _ => g'.acting = true ∧ (g.clear = true → g'.clear = true)) g p := by
  induction p generalizing g with
  | ret a => exact ⟨hg, id⟩
  | raise x => exact ⟨hg, id⟩
  | call e k ih =>
      obtain ⟨he, hk⟩ := hp
      refine ⟨he.allow, fun r _ => ?_⟩
      rw [gates_next]
      obtain h | h := InnerOp.next (g := g) (BareOp.inner e he) r
      · rw [h]
        exact ih r (hk r) hg
      · rw [h]
        refine (ih (g := { g with clear := g.acting }) r (hk r) hg).mono fun g' _ hg' =>
          ⟨hg'.1, fun _ => hg'.2 hg⟩

/-- Inside the section, once the processor was seen open. -/
theorem obeys_clear {p : Proc α} (hp : p.Only InnerOp) :
    Obeys gates (fun g _ => g = ⟨true, true⟩) ⟨true, true⟩ p := by
  refine Obeys.of_only hp fun e he => ⟨he.allow, fun r => ?_⟩
  obtain h | h := InnerOp.next (g := ⟨true, true⟩) he r
  · exact h
  · exact h

theorem next_of_bare {e : Eff} (h : BareOp e) (r : Except Exc e.Ans) (hne : e ≠ .env .closed) :
    g.next e r = g := by
  cases e with
  | acquire lock => cases lock <;> first | exact h.elim | rfl
  | release lock => cases lock <;> first | exact h.elim | rfl
  | env op =>
      cases op with
      | closed => exact absurd rfl hne
      | _ => rfl
  | _ => rfl

/-- One operation that the gate knows nothing of. -/
theorem obeys_bare {e : Eff} (h : BareOp e) (hne : e ≠ .env .closed) :
    Obeys gates (fun g' _ => g' = g) g (Prog.perform e) :=
  Obeys.perform h.allow fun r _ => next_of_bare h r hne

/-- Such an operation, and what comes after it. -/
theorem obeys_bare_bind {e : Eff} {f : e.Ans → Proc β} {Q : Gate → Except Exc β → Prop}
    (h : BareOp e) (hne : e ≠ .env .closed) (hf : ∀ a, Obeys gates Q g (f a))
    (he : ∀ x, Q g (.error x)) : Obeys gates Q g (Prog.perform e >>= f) := by
  refine (obeys_bare h hne).bind ?_ ?_
  · rintro g' a rfl
    exact hf a
  · rintro g' x rfl
    exact he x

/-- `with lock:` around a body, for another lock. -/
theorem obeys_otherLock {lock : LockId} {body : Proc α} {Φ : Gate → Prop} (hlock : lock ≠ .actuation)
    (hbody : Obeys gates (fun g _ => Φ g) g body) (hg : Φ g) :
    Obeys gates (fun g _ => Φ g) g (withLock lock body) := by
  have hacquire : BareOp (.acquire lock) := by
    cases lock <;> first | exact absurd rfl hlock | trivial
  have hrelease : BareOp (.release lock) := by
    cases lock <;> first | exact absurd rfl hlock | trivial
  rw [withLock]
  refine obeys_bare_bind hacquire (fun h => by cases h) (fun _ => ?_) fun _ => hg
  refine Obeys.bind (R := fun g _ => Φ g) (Obeys.attempt_iff.2 hbody) ?_ fun _ _ h => h
  intro g' r h
  exact obeys_bare_bind hrelease (fun h => by cases h) (fun _ => Obeys.ofExcept_iff.2 h) fun _ => h

/-- The section of `_actuation_lock`. -/
theorem obeys_section {body : Proc α}
    (hbody : Obeys gates (fun g _ => g.acting = true) ⟨true, false⟩ body) :
    Obeys gates (fun g _ => g = {}) {} (withLock .actuation body) := by
  rw [withLock, Obeys.bind_iff]
  refine Obeys.perform rfl fun r hr => ?_
  cases (show r = .ok () from hr)
  dsimp only
  rw [Obeys.bind_iff, Obeys.attempt_iff]
  refine Obeys.mono hbody fun g r hg => ?_
  dsimp only
  rw [Obeys.bind_iff]
  refine Obeys.perform hg fun r' hr' => ?_
  cases (show r' = .ok () from hr')
  exact Obeys.ofExcept_iff.2 rfl

/-! ## Parts of a call -/

theorem BareOp.of_quiet (e : Eff) (h : QuietOp e) : BareOp e := by
  cases e with
  | relay op => cases op <;> first | exact h.elim | trivial
  | env op => trivial
  | _ => exact h.elim

theorem BareOp.of_noEvent (e : Eff) (h : NoEventOp e) : BareOp e := by
  cases e with
  | store op => trivial
  | _ => exact BareOp.of_quiet _ h

theorem BareOp.of_minor (e : Eff) (h : MinorOp e) : BareOp e := by
  cases e with
  | store op => trivial
  | _ => exact BareOp.of_quiet _ h

theorem bare_store (op : StoreOp) : (store op).Only BareOp := Prog.Only.perform_iff.2 trivial

theorem bare_mem (op : MemOp) : (mem op).Only BareOp := Prog.Only.perform_iff.2 trivial

theorem bare_device (op : DeviceOp) : (device op).Only BareOp := Prog.Only.perform_iff.2 trivial

theorem bare_env (op : EnvOp) : (env op).Only BareOp := Prog.Only.perform_iff.2 trivial

theorem bare_asking (p : Asking α) : (asking p).Only BareOp := (only_asking p).mono BareOp.of_quiet

namespace RelayController

variable {owner : CallId} {kind : RelayKind} {attempts : Nat} {a : TriggerArgs}

theorem inner_recordOutcome (outcome : String) (observedAt : Option DateTime) :
    (recordOutcome outcome observedAt).Only InnerOp :=
  (only_recordOutcome outcome observedAt).mono fun e h => (BareOp.of_quiet e h).inner

theorem inner_relay (op : RelayOp) : (relay op).Only InnerOp := Prog.Only.perform_iff.2 trivial

theorem inner_deenergizeAtBoundary (attempts : Nat) :
    (deenergizeAtBoundary attempts).Only InnerOp := by
  induction attempts with
  | zero => trivial
  | succ attempts ih =>
      refine Prog.Only.bind (inner_relay _).attempt fun r => ?_
      cases r with
      | ok u => trivial
      | error x =>
          dsimp only
          split
          · exact ih
          · trivial

theorem inner_deenergize (attempts : Nat) : (deenergize attempts).Only InnerOp := by
  refine Prog.Only.bind (only_withLock trivial trivial ?_) fun r => ?_
  · refine Prog.Only.bind (inner_deenergizeAtBoundary attempts) fun safe => ?_
    split
    · exact Prog.Only.bind (inner_relay _) fun _ => trivial
    · trivial
  · exact Prog.Only.bind ((only_notify r.2).mono fun e h => (BareOp.of_quiet e h).inner)
      fun _ => trivial

theorem inner_failed (activatedAt : Option DateTime) (x : Exc) :
    (failed attempts a activatedAt x).Only InnerOp := by
  refine Prog.Only.bind (inner_deenergize attempts) fun safe => ?_
  split
  · refine Prog.Only.bind (inner_recordOutcome _ _) fun _ => ?_
    split <;> trivial
  · refine Prog.Only.bind (inner_relay _) fun _ => ?_
    refine Prog.Only.bind (inner_recordOutcome _ _) fun _ => ?_
    split <;> trivial

theorem inner_finish (activatedAt : DateTime) :
    (finish owner attempts a activatedAt).Only InnerOp := by
  have hlast : ∀ outcome observedAt, (recordOutcome outcome observedAt >>= fun _ =>
      (pure ⟨true, "activated", a.idempotencyKey, activatedAt, false⟩ : Proc RelayResult)).Only
        InnerOp :=
    fun outcome observedAt => Prog.Only.bind (inner_recordOutcome _ _) fun _ => trivial
  refine Prog.Only.bind (inner_deenergize attempts) fun safe => ?_
  split
  · dsimp only
    split
    · refine Prog.Only.bind (inner_relay _) fun _ => ?_
      refine Prog.Only.bind (inner_relay _) fun set => ?_
      split <;> exact hlast _ _
    · refine Prog.Only.bind (inner_relay _) fun set => ?_
      split <;> exact hlast _ _
  · refine Prog.Only.bind (inner_relay _) fun _ => ?_
    exact Prog.Only.bind (inner_recordOutcome _ _) fun _ => trivial

theorem inner_activationInhibition {check : Option (Proc (Option Inhibition))}
    (hcheck : ∀ p, check = some p → p.Only BareOp) :
    (activationInhibition check).Only InnerOp := by
  refine Prog.Only.bind ?_ fun r => ?_
  · cases check with
    | none => trivial
    | some p =>
        refine Prog.Only.bind (Prog.Only.perform_iff.2 trivial) fun _ => ?_
        refine Prog.Only.bind ((hcheck p rfl).mono BareOp.inner) fun _ => ?_
        exact Prog.Only.bind (Prog.Only.perform_iff.2 trivial) fun _ => trivial
  · cases r with
    | some inhibition => trivial
    | none =>
        refine Prog.Only.bind (inner_relay _) fun set => ?_
        cases set <;> trivial

theorem inner_energise (hcheck : ∀ p, a.preActivationInhibit = some p → p.Only BareOp) :
    (energise owner kind a).Only InnerOp := by
  rw [energise, turnOn_eq]
  refine Prog.Only.bind ?_ fun r => ?_
  · refine Prog.Only.bind (inner_activationInhibition hcheck) fun r => ?_
    cases r with
    | some inhibition => trivial
    | none => exact Prog.Only.bind (inner_relay _) fun _ => trivial
  · cases r with
    | some inhibition => exact Prog.Only.bind (inner_recordOutcome _ _) fun _ => trivial
    | none => exact Prog.Only.bind (inner_relay _) fun _ => trivial

theorem inner_pulse (hcheck : ∀ p, a.preActivationInhibit = some p → p.Only BareOp)
    (hcb : ∀ callback, a.onActivation = some callback → callback.Only QuietOp) :
    (pulse owner kind attempts a).Only InnerOp := by
  refine Prog.Only.bind (only_withLock trivial trivial (inner_energise hcheck)).attempt fun r => ?_
  match r with
  | .error x => exact inner_failed _ _
  | .ok (some refused) => trivial
  | .ok none =>
      refine Prog.Only.bind (Prog.Only.attempt (Prog.Only.perform_iff.2 trivial)) fun r => ?_
      cases r with
      | error x => exact Prog.Only.bind (inner_relay _) fun _ => inner_failed _ _
      | ok activatedAt =>
          refine Prog.Only.bind (Prog.Only.attempt
            ((only_hold hcb).mono fun e h => (BareOp.of_quiet e h).inner)) fun r => ?_
          cases r with
          | error x => exact inner_failed _ _
          | ok u => exact inner_finish _

/-- The check that the gate is about. -/
def Opens (check : Option (Proc (Option Inhibition))) : Prop :=
  ∃ p, check = some p ∧ p.Only BareOp ∧ ∀ g : Gate, g.acting = true →
    Obeys gates (fun g' r => g'.acting = true ∧ (r = .ok none → g'.clear = true)) g p

/-- The check has found the processor open, or objects. -/
theorem activationInhibition_gated {check : Option (Proc (Option Inhibition))}
    (hopens : Opens check) (hg : g.acting = true) :
    Obeys gates (fun g' r => g'.acting = true ∧ (r = .ok none → g'.clear = true)) g
      (activationInhibition check) := by
  obtain ⟨p, rfl, -, hcheck⟩ := hopens
  have hraised : ∀ (g : Gate) (x : Exc), g.acting = true → g.acting = true ∧
      ((.error x : Except Exc (Option Inhibition)) = .ok none → g.clear = true) :=
    fun g x h => ⟨h, fun hr => by cases hr⟩
  rw [activationInhibition]
  refine Obeys.bind (R := fun g' r => g'.acting = true ∧ (r = .ok none → g'.clear = true))
    ?_ ?_ fun _ x h => hraised _ x h.1
  · refine obeys_bare_bind (e := .mark .evaluating) trivial (fun h => by cases h) (fun _ => ?_)
      fun x => hraised _ x hg
    refine (hcheck g hg).bind ?_ fun _ x h => hraised _ x h.1
    intro g' inhibition h
    refine obeys_bare_bind (e := .mark (.evaluated inhibition)) trivial (fun h => by cases h)
      (fun _ => ?_) fun x => hraised _ x h.1
    exact ⟨h.1, fun hr => h.2 hr⟩
  · intro g' inhibition h
    cases inhibition with
    | some inhibition => exact ⟨h.1, fun hr => by cases hr⟩
    | none =>
        refine obeys_bare_bind (e := .relay .shutdownIsSet) trivial (fun h => by cases h)
          (fun set => ?_) fun x => hraised _ x h.1
        split
        · exact ⟨h.1, fun hr => by cases hr⟩
        · exact ⟨h.1, fun _ => h.2 rfl⟩

/-- A pulse is made only after the check has found the processor open. -/
theorem triggerLocked_gated (hopens : Opens a.preActivationInhibit)
    (hcb : ∀ callback, a.onActivation = some callback → callback.Only QuietOp)
    (hg : g.acting = true) :
    Obeys gates (fun g' _ => g'.acting = true) g (triggerLocked owner kind attempts a) := by
  refine (activationInhibition_gated hopens hg).bind ?_ fun _ _ h => h.1
  intro g' inhibition h
  cases inhibition with
  | some inhibition =>
      refine (obeys_inside ((only_recordOutcome _ _).mono BareOp.of_quiet) h.1).bind ?_ ?_
      · exact fun _ _ h' => h'.1
      · exact fun _ _ h' => h'.1
  | none =>
      have hclear : g' = ⟨true, true⟩ := by
        cases g'
        rw [Gate.mk.injEq]
        exact ⟨h.1, h.2 rfl⟩
      obtain ⟨p, hp, hbare, -⟩ := hopens
      rw [hclear]
      refine (obeys_clear (Prog.Only.bind (inner_relay _) fun latched => ?_)).mono ?_
      · split
        · exact Prog.Only.bind (inner_recordOutcome _ _) fun _ => trivial
        · refine inner_pulse (fun q hq => ?_) hcb
          rw [hp] at hq
          cases hq
          exact hbare
      · rintro g₁ r rfl
        rfl

theorem trigger_gated (hopens : Opens a.preActivationInhibit)
    (hcb : ∀ callback, a.onActivation = some callback → callback.Only QuietOp)
    (hg : g.acting = true) :
    Obeys gates (fun g' _ => g'.acting = true) g (trigger owner kind attempts a) := by
  refine Obeys.bind (R := fun g' _ => g'.acting = true)
    (obeys_otherLock (by decide) (triggerLocked_gated hopens hcb hg) hg) ?_ fun _ _ h => h
  intro g' result h
  exact obeys_bare_bind (e := .mark (.triggerReturned result)) trivial (fun h => by cases h)
    (fun _ => h) fun _ => h

end RelayController

namespace ActuationCoordinator

variable {owner : CallId} {cfg : Config} {a : ActuateArgs} {key : String}

/-! ## The coordinator -/

theorem bare_except {body handler : Proc α} (hb : body.Only BareOp) (hh : handler.Only BareOp) :
    (exceptException body handler).Only BareOp := only_exceptException hb hh

theorem bare_replay (terminal : TerminalOutcome) : (replay a terminal).Only BareOp := by
  refine Prog.Only.bind ?_ fun _ => ?_
  · unfold reconcileOutbox
    split
    · exact Prog.Only.bind (bare_store _) fun _ => trivial
    · trivial
  · dsimp only
    cases a.commandAck with
    | some ack => exact Prog.Only.bind (bare_store _) fun _ => trivial
    | none => trivial

theorem bare_claim (claimTime : DateTime) : (claim cfg a key claimTime).Only BareOp :=
  Prog.Only.bind (bare_device _) fun _ => Prog.Only.bind (Prog.Only.ofExcept_iff.2 trivial) fun _ =>
    Prog.Only.bind (bare_mem _) fun _ => Prog.Only.bind (bare_store _) fun _ => trivial

theorem bare_refuse (claimTime : DateTime) : (refuse a claimTime).Only BareOp :=
  Prog.Only.bind (bare_store _) fun _ => trivial

theorem bare_refuseClaimed (claimTime : DateTime) (claim : ActuationClaim) :
    (refuseClaimed a claimTime claim).Only BareOp :=
  bare_except (Prog.Only.bind (bare_store _) fun _ => trivial) trivial

theorem bare_settle (claim : ActuationClaim) (result : RelayResult) :
    (settle a claim result).Only BareOp := by
  have hfinalize : ∀ inhibition decisionAt,
      (finalize a claim result inhibition decisionAt).Only BareOp := fun inhibition decisionAt =>
    bare_except (Prog.Only.bind (bare_store _) fun _ => trivial) trivial
  have hconclude : ∀ inhibition, (conclude a claim result inhibition).Only BareOp := by
    intro inhibition
    cases inhibition with
    | some inhibition => exact Prog.Only.bind (bare_env _) fun _ => hfinalize _ _
    | none => exact hfinalize _ _
  refine Prog.Only.bind (bare_mem _) fun inhibition => ?_
  dsimp only
  split
  · exact Prog.Only.bind (bare_device _) fun _ => Prog.Only.bind (bare_mem _) fun _ => hconclude _
  · exact hconclude _

theorem activate_gated (hopens : RelayController.Opens (triggerArgs a key).preActivationInhibit)
    (claimTime : DateTime) (monotonicNow : ℚ) (bootId : Option String) (claim : ActuationClaim)
    (hg : g.acting = true) :
    Obeys gates (fun g' _ => g'.acting = true) g
      (activate owner cfg a key claimTime monotonicNow bootId claim) := by
  have hcb : ∀ callback, (triggerArgs a key).onActivation = some callback →
      callback.Only QuietOp := by
    intro callback h
    rw [triggerArgs] at h
    dsimp only at h
    split at h
    · cases h
      exact only_exceptException (only_env _) trivial
    · cases h
  refine Obeys.bind (R := fun g' _ => g' = g) (Obeys.attempt_iff.2
    (obeys_bare trivial fun h => by cases h)) ?_ ?_
  · rintro g' r rfl
    cases r with
    | error x =>
        dsimp only
        split
        · exact hg
        · exact hg
    | ok u =>
        refine obeys_bare_bind (e := .mark _) trivial (fun h => by cases h) (fun _ => ?_) fun _ => hg
        refine (RelayController.trigger_gated hopens hcb hg).bind ?_ fun _ _ h => h
        intro g₁ result h
        exact (obeys_inside (bare_settle claim result) h).mono fun _ _ h' => h'.1
  · rintro g' x rfl
    exact hg

theorem actuateLocked_gated
    (hopens : RelayController.Opens (triggerArgs a key).preActivationInhibit)
    (hg : g.acting = true) :
    Obeys gates (fun g' _ => g'.acting = true) g (actuateLocked owner cfg a key) := by
  have hbare : ∀ {α : Type} {p : Proc α} {g : Gate}, p.Only BareOp → g.acting = true →
      Obeys gates (fun g' _ => g'.acting = true) g p :=
    fun hp h => (obeys_inside hp h).mono fun _ _ h' => h'.1
  refine (hbare (bare_store _) hg).bind ?_ fun _ _ h => h
  intro g₁ terminal h₁
  cases terminal with
  | some terminal => exact hbare (bare_replay terminal) h₁
  | none =>
      refine Obeys.bind (R := fun g' _ => g'.acting = true) ?_ ?_ fun _ _ h => h
      · cases a.event.decisionAt with
        | some decisionAt => exact h₁
        | none => exact hbare (bare_env _) h₁
      · intro g₂ claimTime h₂
        refine Obeys.bind (R := fun g' _ => g'.acting = true)
          (Obeys.attempt_iff.2 (hbare (bare_claim claimTime) h₂)) ?_ fun _ _ h => h
        intro g₃ r h₃
        cases r with
        | error x =>
            dsimp only
            split
            · exact h₃
            · exact h₃
        | ok claimed =>
            obtain ⟨monotonicNow, bootId, claim⟩ := claimed
            dsimp only
            unfold afterClaim
            split
            · exact hbare (bare_refuse claimTime) h₃
            · refine (hbare (bare_mem _) h₃).bind ?_ fun _ _ h => h
              intro g₄ lastAttempt h₄
              cases lastAttempt with
              | none => exact activate_gated hopens _ _ _ _ h₄
              | some lastAttempt =>
                  dsimp only
                  split
                  · exact hbare (bare_refuseClaimed _ _) h₄
                  · exact activate_gated hopens _ _ _ _ h₄
            · exact h₃

/-- What the coordinator does of a pulse it does inside the section. -/
theorem actuate_gated
    (hopens : ∀ key, RelayController.Opens (triggerArgs a key).preActivationInhibit)
    (hg : g.acting = true) :
    Obeys gates (fun g' _ => g'.acting = true) g (actuate owner cfg a) := by
  unfold actuate
  split
  · exact hg
  · split
    · exact hg
    · exact obeys_otherLock (by decide) (actuateLocked_gated (hopens _) hg) hg

end ActuationCoordinator

/-! ## The processor -/

namespace GateProcessor

variable {owner : CallId} {cfg : Config}

/-- The check of a burst asks first whether the processor was closed. -/
theorem finalInhibition_gated (receivedAt : DateTime) (plate : String) (activationDeadline : ℚ)
    (hg : g.acting = true) :
    Obeys gates (fun g' r => g'.acting = true ∧ (r = .ok none → g'.clear = true)) g
      (asking (finalInhibition cfg receivedAt plate activationDeadline)) := by
  refine ⟨trivial, fun r _ => ?_⟩
  match r with
  | .error x => exact ⟨hg, fun hr => by cases hr⟩
  | .ok true => exact ⟨hg, fun hr => by cases hr⟩
  | .ok false =>
      exact (obeys_inside (g := { g with clear := g.acting }) (bare_asking _) hg).mono
        fun g' _ h => ⟨h.1, fun _ => h.2 hg⟩

theorem opens_finalInhibition (receivedAt : DateTime) (plate : String) (activationDeadline : ℚ) :
    RelayController.Opens (some (ActuationCoordinator.checkInhibition
      (finalInhibition cfg receivedAt plate activationDeadline))) := by
  refine ⟨_, rfl, ?_, fun g hg => ?_⟩
  · exact Prog.Only.bind (bare_asking _) fun _ => Prog.Only.bind (bare_mem _) fun _ => trivial
  · refine (finalInhibition_gated receivedAt plate activationDeadline hg).bind ?_
      fun _ _ h => ⟨h.1, fun hr => by cases hr⟩
    intro g' inhibition h
    exact obeys_bare_bind (e := .mem (.setInhibition inhibition)) trivial (fun h => by cases h)
      (fun _ => ⟨h.1, fun hr => h.2 hr⟩) fun _ => ⟨h.1, fun hr => by cases hr⟩

theorem bare_finishResult (result : ProcessingResult) : (finishResult cfg result).Only BareOp :=
  (only_finishResult cfg result).mono BareOp.of_noEvent

theorem bare_outboxPayload (paths : List String) (await : Bool) :
    (outboxPayload cfg paths await).Only BareOp :=
  (only_outboxPayload cfg paths await).mono BareOp.of_quiet

theorem bare_record (event : GateEvent) (paths : List String) :
    (record cfg event paths).Only BareOp := (only_record cfg event paths).mono BareOp.of_minor

theorem bare_takenReason (key : String) : (takenReason key).Only BareOp :=
  (only_takenReason key).mono BareOp.of_noEvent

theorem bare_recordSkipped (a : SkipArgs) : (recordSkipped cfg a).Only BareOp := by
  refine Prog.Only.bind ?_ fun key => ?_
  · split
    · trivial
    · exact (only_eventKey a.paths).mono BareOp.of_noEvent
  refine Prog.Only.bind ((only_eventExists key).mono BareOp.of_noEvent) fun found => ?_
  split
  · refine Prog.Only.bind (bare_store _) fun eventId => ?_
    have hend : (do
        let reason ← takenReason key
        return { opened := false, reason, eventId } : Proc ProcessingResult).Only BareOp :=
      Prog.Only.bind (bare_takenReason key) fun _ => trivial
    dsimp only
    split
    · exact Prog.Only.bind (bare_outboxPayload _ _) fun _ =>
        Prog.Only.bind (bare_store _) fun _ => hend
    · exact hend
  · refine Prog.Only.bind ?_ fun receivedAt => ?_
    · cases a.receivedAt with
      | some receivedAt => trivial
      | none => exact bare_env _
    · exact Prog.Only.bind (bare_env _) fun _ => Prog.Only.bind (bare_record _ _) fun _ =>
        bare_finishResult _

theorem bare_ocrLoop (started : ℚ) (authorised paths : List String) (s : OcrState) :
    (ocrLoop cfg started authorised paths s).Only BareOp := by
  induction paths generalizing s with
  | nil => trivial
  | cons path rest ih =>
      refine Prog.Only.bind (bare_env _) fun now => ?_
      split
      · trivial
      refine Prog.Only.bind (bare_env _) fun now => ?_
      split
      · trivial
      refine Prog.Only.bind (Prog.Only.attempt (bare_env _)) fun r => ?_
      match r with
      | .error x =>
          dsimp only
          split
          · exact ih _
          · trivial
      | .ok .busy => trivial
      | .ok .deadlineExceeded => trivial
      | .ok (.observed plate confidence) =>
          refine Prog.Only.bind (bare_env _) fun now => ?_
          split
          · trivial
          · split
            · trivial
            · exact ih _

/-- The pulse of a burst. -/
theorem open_gated (key : String) (receivedAt decisionAt : DateTime) (activationDeadline : ℚ)
    (decision : MatchDecision) (payload : Option Fields) :
    Obeys gates (fun g _ => g = {}) {}
      (open_ owner cfg key receivedAt decisionAt activationDeadline decision payload) := by
  refine obeys_outside_bind (bare_env _) (fun actuationAt => ?_) fun _ => rfl
  split
  · exact obeys_outside (Prog.Only.bind (bare_store _) fun _ => bare_finishResult _)
  · refine Obeys.bind (R := fun g _ => g = {}) (obeys_section ?_) ?_ fun _ _ h => h
    · exact ActuationCoordinator.actuate_gated (fun _ => opens_finalInhibition _ _ _) rfl
    rintro g execution rfl
    exact obeys_outside (bare_finishResult _)

theorem conclude_gated (paths : List String) (key : String) (receivedAt : DateTime)
    (activationDeadline : ℚ) (s : OcrState) (decision : MatchDecision) :
    Obeys gates (fun g _ => g = {}) {}
      (conclude owner cfg paths key receivedAt activationDeadline s decision) := by
  refine obeys_outside_bind (bare_env _) (fun decisionAt => ?_) fun _ => rfl
  split
  · exact obeys_outside (Prog.Only.bind (bare_record _ _) fun _ => bare_finishResult _)
  · split
    · exact obeys_outside (Prog.Only.bind (bare_record _ _) fun _ => bare_finishResult _)
    · refine obeys_outside_bind (bare_outboxPayload _ _) (fun payload => ?_) fun _ => rfl
      split
      · exact open_gated _ _ _ _ _ _
      · exact obeys_outside (Prog.Only.bind (bare_store _) fun _ => bare_finishResult _)

theorem decideBurst_gated (a : ProcessArgs) (paths : List String) (key : String) (started : ℚ) :
    Obeys gates (fun g _ => g = {}) {} (decideBurst owner cfg a paths key started) := by
  refine obeys_outside_bind ?_ (fun receivedAt => ?_) fun _ => rfl
  · cases a.receivedAt with
    | some receivedAt => trivial
    | none => exact bare_env _
  refine obeys_outside_bind (bare_env _) (fun now => ?_) fun _ => rfl
  refine obeys_outside_bind (bare_env _) (fun clock => ?_) fun _ => rfl
  split
  · exact obeys_outside (bare_recordSkipped _)
  split
  · exact obeys_outside (bare_recordSkipped _)
  refine obeys_outside_bind (Prog.Only.attempt (bare_env _)) (fun r => ?_) fun _ => rfl
  cases r with
  | error x =>
      dsimp only
      split
      · exact obeys_outside (bare_recordSkipped _)
      · rfl
  | ok authorised =>
      refine obeys_outside_bind (bare_ocrLoop _ _ _ _) (fun s => ?_) fun _ => rfl
      refine obeys_outside_bind ?_ (fun s => ?_) fun _ => rfl
      · split
        · trivial
        · refine Prog.Only.bind (bare_env _) fun clock => ?_
          split <;> trivial
      · cases s.decision with
        | none => exact obeys_outside (bare_recordSkipped _)
        | some decision => exact conclude_gated _ _ _ _ _ _

/-- A burst drives the output high only inside its section, after it has seen the processor
open. -/
theorem process_gated (a : ProcessArgs) :
    Obeys gates (fun g _ => g = {}) {} (process owner cfg a) := by
  refine obeys_outside_bind ?_ (fun started => ?_) fun _ => rfl
  · cases a.decisionStartedAt with
    | some started => trivial
    | none => exact bare_env _
  refine obeys_outside_bind ((only_uniqueContentCandidates _ _).mono BareOp.of_noEvent)
    (fun candidates => ?_) fun _ => rfl
  refine obeys_outside_bind ((only_eventExists _).mono BareOp.of_noEvent) (fun found => ?_)
    fun _ => rfl
  split
  · have hend : ∀ key, (do
        let reason ← takenReason key
        return { opened := false, reason } : Proc ProcessingResult).Only BareOp :=
      fun key => Prog.Only.bind (bare_takenReason key) fun _ => trivial
    dsimp only
    split
    · refine obeys_outside (Prog.Only.bind ?_ fun eventId => ?_)
      · refine Prog.Only.bind (bare_store _) fun terminal => ?_
        split
        · trivial
        · exact bare_store _
      · cases eventId with
        | none => exact hend _
        | some eventId => exact Prog.Only.bind (bare_outboxPayload _ _) fun _ =>
            Prog.Only.bind (bare_store _) fun _ => hend _
    · exact obeys_outside (hend _)
  · exact decideBurst_gated _ _ _ _

end GateProcessor

end GateController

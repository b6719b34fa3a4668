import GateController.Actuation.Discipline

/-!
# The processor keeps to the rules

`process` and `record_skipped`.  Most of what they do is reading and recording,
which changes little of what is watched.  The one part with an argument is the
way from a decision to the coordinator: a decision that allows names the plate
that it rests on, and the check that is handed down asks about that plate.
-/

namespace GateController

open Data Effects Proc LocalStore ActuationCoordinator

variable {cfg : Nat → Config} {c : CallId} {s : Watch}

/-! ## Reading and recording -/

/-- Nothing changed but what was read of events and outcomes. -/
structure Minor (s s' : Watch) : Prop where
  call : s'.call = s.call
  holds : s'.holds = s.holds
  started : ∀ value, s.started = some value → s'.started = some value
  store : ∃ eventIds terminal, s'.store = { s.store with eventIds, terminal }
  relay : ∃ evaluation, s'.relay = { s.relay with evaluation }

theorem Minor.refl (s : Watch) : Minor s s :=
  ⟨rfl, rfl, fun _ h => h, ⟨_, _, rfl⟩, s.relay.evaluation, rfl⟩

theorem Minor.trans {s₁ s₂ s₃ : Watch} (h₁ : Minor s₁ s₂) (h₂ : Minor s₂ s₃) : Minor s₁ s₃ := by
  obtain ⟨_, _, hs₁⟩ := h₁.store
  obtain ⟨ids, t, hs₂⟩ := h₂.store
  obtain ⟨_, he₁⟩ := h₁.relay
  obtain ⟨e, he₂⟩ := h₂.relay
  exact ⟨h₂.call.trans h₁.call, h₂.holds.trans h₁.holds,
    fun v hv => h₂.started v (h₁.started v hv), ⟨ids, t, by rw [hs₂, hs₁]⟩, e, by rw [he₂, he₁]⟩

theorem Quiet.minor {s s' : Watch} (h : Quiet s s') : Minor s s' :=
  ⟨h.call, h.holds, h.started, ⟨_, _, h.store⟩, h.relay⟩

/-- The operations that a call without a command may always perform. -/
def MinorOp : Eff → Prop
  | .store op =>
      match op with
      | .terminalOutcome _ => True
      | .actuationClaimStatus _ => True
      | .eventId _ => True
      | .recordEventWithOutbox _ _ => True
      | .releaseOutboxWithoutTelemetry _ => True
      | .attachEventTelemetry _ _ => True
      | _ => False
  | e => QuietOp e

theorem MinorOp.of_quiet (e : Eff) (h : QuietOp e) : MinorOp e := by
  cases e with
  | store op => exact h.elim
  | _ => exact h

/-- Those of them that write no event. -/
def NoEventOp : Eff → Prop
  | .store op =>
      match op with
      | .terminalOutcome _ => True
      | .actuationClaimStatus _ => True
      | .eventId _ => True
      | .releaseOutboxWithoutTelemetry _ => True
      | .attachEventTelemetry _ _ => True
      | _ => False
  | e => QuietOp e

theorem NoEventOp.minor (e : Eff) (h : NoEventOp e) : MinorOp e := by
  cases e with
  | store op => cases op <;> first | exact h.elim | trivial
  | _ => exact h

theorem MinorOp.next {e : Eff} (h : MinorOp e) (s : Watch) (r : Except Exc e.Ans) :
    Minor s (s.next e r) := by
  have hsame : ∀ (op : StoreOp) (r : Except Exc op.Ans), (∃ ids t, s.store.nextStore op r =
      { s.store with eventIds := ids, terminal := t }) → Minor s (s.next (.store op) r) :=
    fun op r hop => ⟨rfl, rfl, fun _ h => h, hop, s.relay.evaluation, rfl⟩
  have hquiet : QuietOp e → Minor s (s.next e r) := fun hq => (hq.next s r).minor
  cases e with
  | store op =>
      cases op with
      | terminalOutcome key => cases r <;> exact hsame _ _ ⟨_, _, rfl⟩
      | eventId key => cases r <;> exact hsame _ _ ⟨_, _, rfl⟩
      | actuationClaimStatus key => exact hsame _ _ ⟨_, _, rfl⟩
      | recordEventWithOutbox event payload => exact hsame _ _ ⟨_, _, rfl⟩
      | releaseOutboxWithoutTelemetry id => exact hsame _ _ ⟨_, _, rfl⟩
      | attachEventTelemetry id telemetry => exact hsame _ _ ⟨_, _, rfl⟩
      | _ => exact h.elim
  | _ => exact hquiet h

theorem MinorOp.allow {e : Eff} (h : MinorOp e) {s : Watch} {cfg : Config}
    (hcommand : s.call.command? cfg = none) : s.allow cfg e := by
  have hquiet : QuietOp e → s.allow cfg e := fun hq => hq.allow cfg s
  cases e with
  | store op =>
      cases op with
      | terminalOutcome key =>
          intro command hc
          rw [hcommand] at hc
          cases hc
      | recordEventWithOutbox event payload => exact hcommand
      | actuationClaimStatus key => trivial
      | eventId key => trivial
      | releaseOutboxWithoutTelemetry id => trivial
      | attachEventTelemetry id telemetry => trivial
      | _ => exact h.elim
  | _ => exact hquiet h

theorem obeys_minor {α : Type} {p : Proc α} (hp : p.Only MinorOp)
    (hcommand : s.call.command? (cfg c.proc) = none) :
    Obeys (watch cfg c) (fun s' _ => Minor s s') s p := by
  induction p generalizing s with
  | ret a => exact Minor.refl s
  | raise x => exact Minor.refl s
  | call e k ih =>
      obtain ⟨he, hk⟩ := hp
      have hminor := fun r => he.next s r
      refine ⟨he.allow hcommand, fun r _ => (ih r (hk r) ?_).mono fun _ _ h => (hminor r).trans h⟩
      rw [watch_next, (hminor r).call]
      exact hcommand

theorem obeys_minor_bind {α β : Type} {p : Proc α} {f : α → Proc β}
    {Q : Watch → Except Exc β → Prop} (hp : p.Only MinorOp)
    (hcommand : s.call.command? (cfg c.proc) = none)
    (hf : ∀ s' a, Minor s s' → Obeys (watch cfg c) Q s' (f a))
    (he : ∀ s' x, Minor s s' → Q s' (.error x)) : Obeys (watch cfg c) Q s (p >>= f) :=
  (obeys_minor hp hcommand).bind hf he

namespace GateProcessor

theorem only_env_noEvent (op : EnvOp) : (env op).Only NoEventOp := Prog.Only.perform_iff.2 trivial

theorem only_eventKey (paths : List String) : (eventKey paths).Only NoEventOp := by
  cases paths with
  | nil => trivial
  | cons path rest => exact only_env_noEvent _

theorem only_eventExists (key : String) : (eventExists key).Only NoEventOp := by
  refine Prog.Only.bind (Prog.Only.perform_iff.2 trivial) fun status => ?_
  split
  · trivial
  · exact Prog.Only.bind (Prog.Only.perform_iff.2 trivial) fun _ => trivial

theorem only_outboxPayload (cfg : Config) (paths : List String) (await : Bool) :
    (outboxPayload cfg paths await).Only QuietOp := by
  unfold outboxPayload
  split
  · trivial
  · refine Prog.Only.bind (only_env _) fun payload => ?_
    split <;> trivial

theorem only_record (cfg : Config) (event : GateEvent) (paths : List String) :
    (record cfg event paths).Only MinorOp :=
  Prog.Only.bind ((only_outboxPayload _ _ _).mono MinorOp.of_quiet) fun _ =>
    Prog.Only.perform_iff.2 trivial

theorem only_release (cfg : Config) (eventId : Option Nat) :
    (releaseOutboxWithoutTelemetry cfg eventId).Only NoEventOp := by
  cases eventId with
  | none => trivial
  | some id =>
      rw [releaseOutboxWithoutTelemetry]
      split
      · exact only_exceptException (Prog.Only.perform_iff.2 trivial) trivial
      · trivial

theorem only_finishResult (cfg : Config) (result : ProcessingResult) :
    (finishResult cfg result).Only NoEventOp := by
  refine Prog.Only.bind (only_exceptException (only_env_noEvent _) trivial) fun trace => ?_
  cases trace with
  | none => exact Prog.Only.bind (only_release _ _) fun _ => trivial
  | some telemetry =>
      cases result.eventId with
      | none => trivial
      | some id =>
          exact Prog.Only.bind (only_exceptException (Prog.Only.perform_iff.2 trivial)
            (only_release _ _)) fun _ => trivial

theorem only_takenReason (key : String) : (takenReason key).Only NoEventOp := by
  refine Prog.Only.bind (Prog.Only.perform_iff.2 trivial) fun status => ?_
  cases status <;> trivial

theorem only_uniqueContentCandidates (seen paths : List String) :
    (uniqueContentCandidates seen paths).Only NoEventOp := by
  induction paths generalizing seen with
  | nil => trivial
  | cons path rest ih =>
      refine Prog.Only.bind (only_env_noEvent _) fun digest => ?_
      split
      · exact ih _
      · exact Prog.Only.bind (ih _) fun _ => trivial

/-- The outbox row of an event that the store has told. -/
theorem ensureOutbox_obeys {α : Type} {f : Option Nat → Proc α} {id : Nat} {payload : Option Fields}
    {Q : Watch → Except Exc α → Prop} (hid : id ∈ s.store.eventIds)
    (hf : ∀ answer, Obeys (watch cfg c) Q s (f answer)) (he : ∀ x, Q s (.error x)) :
    Obeys (watch cfg c) Q s (store (.ensureOutbox id payload) >>= f) := by
  rw [Obeys.bind_iff]
  refine Obeys.perform hid fun r _ => ?_
  cases r with
  | error x => exact he x
  | ok answer => exact hf answer

theorem recordSkipped_obeys (a : SkipArgs) (hcommand : s.call.command? (cfg c.proc) = none) :
    Obeys (watch cfg c) (fun s' _ => Minor s s') s (recordSkipped (cfg c.proc) a) := by
  have hkey : (if truthy a.idempotencyKey then pure (a.idempotencyKey.getD "") else
      eventKey a.paths : Proc String).Only MinorOp := by
    split
    · trivial
    · exact (only_eventKey _).mono NoEventOp.minor
  refine obeys_minor_bind hkey hcommand (fun s₁ key h₁ => ?_) fun _ _ h => h
  have hcommand₁ : s₁.call.command? (cfg c.proc) = none := by rw [h₁.call]; exact hcommand
  refine obeys_minor_bind ((only_eventExists key).mono NoEventOp.minor) hcommand₁ (fun s₂ found h₂ => ?_)
    fun _ _ h => h₁.trans h
  have h₁₂ := h₁.trans h₂
  have hcommand₂ : s₂.call.command? (cfg c.proc) = none := by rw [h₁₂.call]; exact hcommand
  cases found with
  | true =>
      rw [if_pos rfl, Obeys.bind_iff]
      refine Obeys.perform trivial fun r _ => ?_
      have h₃ : Minor s (s₂.next (.store (.eventId key)) r) :=
        h₁₂.trans (MinorOp.next (e := .store (.eventId key)) trivial s₂ r)
      have hcommand₃ : (s₂.next (.store (.eventId key)) r).call.command? (cfg c.proc) = none :=
        hcommand₂
      have hend : ∀ s' (eventId : Option Nat), Minor s s' → Obeys (watch cfg c)
          (fun s' _ => Minor s s') s' (do
            let reason ← takenReason key
            return { opened := false, reason, eventId : ProcessingResult }) := by
        intro s' eventId h'
        refine obeys_minor_bind ((only_takenReason key).mono NoEventOp.minor) ?_ (fun s'' _ h'' => h'.trans h'')
          fun _ _ h => h'.trans h
        rw [h'.call]
        exact hcommand
      cases r with
      | error x => exact h₃
      | ok eventId =>
          dsimp only
          cases henabled : (cfg c.proc).outboxEnabled with
          | false => exact hend _ eventId h₃
          | true =>
              cases eventId with
              | none => exact hend _ none h₃
              | some id =>
                  refine obeys_quiet_bind (only_outboxPayload _ _ _) (fun s₄ payload hq => ?_)
                    fun _ _ hq => h₃.trans hq.minor
                  have h₄ := h₃.trans hq.minor
                  refine ensureOutbox_obeys ?_ (fun _ => hend s₄ (some id) h₄) fun _ => h₄
                  rw [hq.store]
                  simp [Watch.next, StoreWatch.nextStore]
  | false =>
      refine obeys_minor_bind ?_ hcommand₂ (fun s₃ receivedAt h₃ => ?_) fun _ _ h => h₁₂.trans h
      · cases a.receivedAt with
        | some receivedAt => trivial
        | none => exact Prog.Only.perform_iff.2 trivial
      have h₁₃ := h₁₂.trans h₃
      refine (obeys_minor ?_ ?_).mono fun s' _ h => h₁₃.trans h
      · refine Prog.Only.bind (Prog.Only.perform_iff.2 trivial) fun decisionAt => ?_
        exact Prog.Only.bind (only_record _ _ _) fun _ =>
          (only_finishResult _ _).mono NoEventOp.minor
      · rw [h₁₃.call]
        exact hcommand

/-! ## Deciding -/

/-- A decision that allows names the plate it rests on. -/
theorem decideAccess_plate {observations : List PlateObservation} {authorised : List String}
    (h : (decideAccess observations authorised).allowed = true) :
    (decideAccess observations authorised).authorisedPlate.isSome := by
  unfold decideAccess at h ⊢
  dsimp only at h ⊢
  split at h
  · rfl
  · next hexact =>
    cases hfuzzy : (candidatePlates (normalisedObservations observations)).findSome?
        (decideCandidate (normalisedObservations observations)
          ((authorised.map normalisePlate).filter (· != ""))) with
    | none => simp [hfuzzy] at h
    | some d =>
        simp only [hfuzzy, Option.getD_some] at h ⊢
        obtain ⟨plate, -, hd⟩ := List.exists_of_findSome?_eq_some hfuzzy
        unfold decideCandidate at hd
        dsimp only at hd
        split at hd
        · cases hd
        · split at hd
          · cases hd
          · cases hd
            rfl
          · cases hd
            cases h

/-- The decision that a state of the OCR loop holds names its plate. -/
def OcrState.Named (st : OcrState) : Prop :=
  ∀ d, st.decision = some d → d.allowed = true → d.authorisedPlate.isSome

theorem ocrLoop_obeys (started : ℚ) (authorised paths : List String) (st : OcrState)
    (hst : st.Named) :
    Obeys (watch cfg c) (fun s' r => Quiet s s' ∧ ∀ st', r = .ok st' → st'.Named) s
      (ocrLoop (cfg c.proc) started authorised paths st) := by
  induction paths generalizing s st with
  | nil => exact ⟨Quiet.refl s, fun st' h => by cases h; exact hst⟩
  | cons path rest ih =>
      have hdone : ∀ s' st', Quiet s s' → OcrState.Named st' →
          Quiet s s' ∧ ∀ st'', (.ok st' : Except Exc OcrState) = .ok st'' → st''.Named :=
        fun s' st' hq hn => ⟨hq, fun st'' h => by cases h; exact hn⟩
      have hraise : ∀ s' x, Quiet s s' →
          Quiet s s' ∧ ∀ st'', (.error x : Except Exc OcrState) = .ok st'' → st''.Named :=
        fun s' x hq => ⟨hq, fun _ h => by cases h⟩
      refine obeys_quiet_bind (only_env _) (fun s₁ now₁ hq₁ => ?_) fun s' x hq => hraise s' x hq
      split
      · exact hdone s₁ _ hq₁ hst
      refine obeys_quiet_bind (only_env _) (fun s₂ now₂ hq₂ => ?_) fun s' x hq =>
        hraise s' x (hq₁.trans hq)
      have hq₂ := hq₁.trans hq₂
      split
      · exact hdone s₂ _ hq₂ hst
      rw [Obeys.bind_iff, Obeys.attempt_iff]
      refine (obeys_quiet (only_env _)).mono fun s₃ r hq₃ => ?_
      have hq₃ := hq₂.trans hq₃
      cases r with
      | error x =>
          dsimp only
          split
          · exact (ih { st with failureReason := some "ocr_error" } hst).mono fun s' r h =>
              ⟨hq₃.trans h.1, h.2⟩
          · exact hraise s₃ x hq₃
      | ok outcome =>
          cases outcome with
          | busy => exact hdone s₃ _ hq₃ hst
          | deadlineExceeded => exact hdone s₃ _ hq₃ hst
          | observed plate confidence =>
              have hnamed : ∀ st' : OcrState, st'.decision =
                  some (decideAccess (st.observations ++ [⟨plate, confidence⟩]) authorised) →
                  st'.Named := by
                intro st' hd d hd' hallowed
                rw [hd] at hd'
                cases hd'
                exact decideAccess_plate hallowed
              refine obeys_quiet_bind (only_env _) (fun s₄ now₄ hq₄ => ?_) fun s' x hq =>
                hraise s' x (hq₃.trans hq)
              have hq₄ := hq₃.trans hq₄
              split
              · exact hdone s₄ _ hq₄ (hnamed _ rfl)
              · split
                · exact hdone s₄ _ hq₄ (hnamed _ rfl)
                · exact (ih _ (hnamed _ rfl)).mono fun s' r h => ⟨hq₄.trans h.1, h.2⟩

end GateProcessor

/-! ## From a decision to the coordinator -/

/-- A call of `process` that has not come to the coordinator. -/
structure Deciding (a : GateProcessor.ProcessArgs) (started : ℚ) (s : Watch) : Prop where
  call : s.call = .process a
  holds : ∀ lock, s.holds lock = false
  started : s.started = some started
  fresh : s.store.Fresh
  inhibition : s.store.inhibition = none
  unlatched : s.relay.unlatched = false
  cleared : s.relay.cleared = false
  lit : s.relay.lit = false
  energised : s.relay.energised = false

theorem Deciding.minor {a : GateProcessor.ProcessArgs} {started : ℚ} {s' : Watch}
    (h : Deciding a started s) (hm : Minor s s') : Deciding a started s' := by
  obtain ⟨ids, t, hs⟩ := hm.store
  obtain ⟨e, he⟩ := hm.relay
  refine ⟨hm.call.trans h.call, ?_, hm.started _ h.started, ?_, ?_, ?_, ?_, ?_, ?_⟩
  · rw [hm.holds]
    exact h.holds
  · rw [hs]
    exact ⟨h.fresh.claimed, h.fresh.marked, h.fresh.called, h.fresh.finalized, h.fresh.refused,
      h.fresh.returned, h.fresh.lastAttempt, h.fresh.monotonic, h.fresh.played, h.fresh.stamped⟩
  · rw [hs]
    exact h.inhibition
  · rw [he]
    exact h.unlatched
  · rw [he]
    exact h.cleared
  · rw [he]
    exact h.lit
  · rw [he]
    exact h.energised

theorem Deciding.command {a : GateProcessor.ProcessArgs} {started : ℚ} {cfg : Config}
    (h : Deciding a started s) : s.call.command? cfg = none := by
  rw [h.call]
  rfl

/-- What `process` leaves behind. -/
structure Processed (a : GateProcessor.ProcessArgs) (s' : Watch) : Prop where
  call : s'.call = .process a
  released : ∀ lock, s'.holds lock = false
  finalized : ∀ result, s'.store.returned = some result → s'.relay.lit = true →
    s'.store.finalized.isSome ∨ s'.store.clockFailed = true

theorem Deciding.processed {a : GateProcessor.ProcessArgs} {started : ℚ}
    (h : Deciding a started s) : Processed a s :=
  ⟨h.call, h.holds, fun _ hr => by simp [h.fresh.returned] at hr⟩

theorem Processed.minor {a : GateProcessor.ProcessArgs} {s' : Watch} (h : Processed a s)
    (hm : Minor s s') : Processed a s' := by
  obtain ⟨ids, t, hs⟩ := hm.store
  obtain ⟨evaluation, hr⟩ := hm.relay
  refine ⟨hm.call.trans h.call, fun lock => ?_, ?_⟩
  · rw [hm.holds]
    exact h.released lock
  · rw [hs, hr]
    exact h.finalized

namespace GateProcessor

variable {a : ProcessArgs} {started : ℚ}

/-- A program that only reads and records. -/
theorem processed_of_only {α : Type} {p : Proc α} (hp : p.Only MinorOp) (h : Processed a s) :
    Obeys (watch cfg c) (fun s' _ => Processed a s') s p := by
  refine (obeys_minor hp ?_).mono fun s' _ hm => h.minor hm
  rw [h.call]
  rfl

theorem open_obeys {key : String} {receivedAt decisionAt : DateTime} {decision : MatchDecision}
    {payload : Option Fields} (h : Deciding a started s) (hplate : decision.authorisedPlate.isSome) :
    Obeys (watch cfg c) (fun s' _ => Processed a s') s
      (open_ c (cfg c.proc) key receivedAt decisionAt
        (started + (cfg c.proc).decisionTimeout - (cfg c.proc).activationGuardSeconds) decision
        payload) := by
  obtain ⟨plate, hplate⟩ := Option.isSome_iff_exists.1 hplate
  refine obeys_quiet_bind (only_env _) (fun s₁ actuationAt hq => ?_) fun s' x hq =>
    (h.minor hq.minor).processed
  have h₁ := h.minor hq.minor
  split
  · refine processed_of_only ?_ h₁.processed
    exact Prog.Only.bind (Prog.Only.perform_iff.2 trivial) fun _ =>
          (only_finishResult _ _).mono NoEventOp.minor
  · have hact : Obeys (watch cfg c) (fun s' _ => Processed a s') s₁
        (withLock .actuation (actuate c (cfg c.proc) {
          event := decidedEvent key receivedAt decisionAt decision
          outboxPayload := payload
          preActivationInhibit := some (finalInhibition (cfg c.proc) receivedAt
            (decision.authorisedPlate.getD "")
            (started + (cfg c.proc).decisionTimeout - (cfg c.proc).activationGuardSeconds))
          onActivation := true
          onDeactivation := true })) := by
      refine obeys_withLock (Watch.allowAcquire_of_free (h₁.holds _) (by simp) (by simp))
        (actuate_obeys ?_) fun s' r hr => ⟨⟨?_, by simp, by simp⟩, ?_⟩
      · refine ⟨h₁.fresh, h₁.inhibition, ?_, ?_, ?_, h₁.unlatched, h₁.cleared, h₁.lit, h₁.energised,
          ?_, fun command hc => ?_, fun s₂ m hcall hstarted hmarked hevent => ?_⟩
        · simpa [Function.update] using h₁.holds .coordinator
        · simpa [Function.update] using h₁.holds .trigger
        · simpa [Function.update] using h₁.holds .boundary
        · change s₁.call.isPrompt _ = false
          simp only [h₁.call]
          rfl
        · change s₁.call.command? _ = some command at hc
          rw [h₁.command] at hc
          cases hc
        · have hcall' : s₂.call = .process a := hcall.trans h₁.call
          simp only [Watch.InhibitOf, hcall']
          refine ⟨m, plate, started, hmarked, ?_, hstarted _ h₁.started, ?_⟩
          · rw [hevent]
            exact hplate
          · rw [hevent, hplate]
            rfl
      · rw [hr.holds]
        simp
      · refine ⟨hr.call.trans h₁.call, fun lock => ?_, hr.finalized⟩
        simp only [Watch.next, hr.holds, Function.update_idem]
        by_cases hl : lock = .actuation
        · simp [hl]
        · simp [Function.update, hl, h₁.holds lock]
    rw [Obeys.bind_iff]
    refine hact.mono fun s' r hr => ?_
    cases r with
    | error x => exact hr
    | ok execution => exact processed_of_only ((only_finishResult _ _).mono NoEventOp.minor) hr

theorem conclude_obeys {paths : List String} {key : String} {receivedAt : DateTime}
    {st : OcrState} {decision : MatchDecision} (h : Deciding a started s)
    (hplate : decision.allowed = true → decision.authorisedPlate.isSome) :
    Obeys (watch cfg c) (fun s' _ => Processed a s') s
      (conclude c (cfg c.proc) paths key receivedAt
        (started + (cfg c.proc).decisionTimeout - (cfg c.proc).activationGuardSeconds) st
        decision) := by
  refine obeys_quiet_bind (only_env _) (fun s₁ decisionAt hq => ?_) fun s' x hq =>
    (h.minor hq.minor).processed
  have h₁ := h.minor hq.minor
  have hdeny : ∀ event (result : Nat → ProcessingResult), Obeys (watch cfg c) (fun s' _ => Processed a s') s₁ (do
      let eventId ← record (cfg c.proc) event paths
      finishResult (cfg c.proc) (result eventId)) := fun event result =>
    processed_of_only (Prog.Only.bind (only_record _ _ _) fun _ =>
          (only_finishResult _ _).mono NoEventOp.minor)
      h₁.processed
  split
  · exact hdeny _ fun id => ⟨false, "decision_timeout", some id, some decision⟩
  · split
    · exact hdeny _ fun id => ⟨false, "stale_burst", some id, some decision⟩
    · refine obeys_quiet_bind (only_outboxPayload _ _ _) (fun s₂ payload hq₂ => ?_) fun s' x hq =>
        (h₁.minor hq.minor).processed
      have h₂ := h₁.minor hq₂.minor
      split
      · next hallowed => exact open_obeys h₂ (hplate hallowed)
      · refine processed_of_only ?_ h₂.processed
        exact Prog.Only.bind (Prog.Only.perform_iff.2 trivial) fun _ =>
          (only_finishResult _ _).mono NoEventOp.minor

theorem decideBurst_obeys {paths : List String} {key : String} (h : Deciding a started s) :
    Obeys (watch cfg c) (fun s' _ => Processed a s') s
      (decideBurst c (cfg c.proc) a paths key started) := by
  have hskip : ∀ s' (args : SkipArgs), Deciding a started s' →
      Obeys (watch cfg c) (fun s' _ => Processed a s') s' (recordSkipped (cfg c.proc) args) :=
    fun s' args h' => (recordSkipped_obeys args h'.command).mono fun _ _ hm => h'.processed.minor hm
  have hraise : ∀ s' (x : Exc), Quiet s s' → Processed a s' := fun s' x hq =>
    (h.minor hq.minor).processed
  refine obeys_quiet_bind ?_ (fun s₁ receivedAt hq₁ => ?_) hraise
  · cases a.receivedAt with
    | some receivedAt => trivial
    | none => exact only_env _
  refine obeys_quiet_bind (only_env _) (fun s₂ now hq₂ => ?_) fun s' x hq => hraise s' x (hq₁.trans hq)
  have hq₂ := hq₁.trans hq₂
  refine obeys_quiet_bind (only_env _) (fun s₃ now₃ hq₃ => ?_) fun s' x hq =>
    hraise s' x (hq₂.trans hq)
  have hq₃ := hq₂.trans hq₃
  have h₃ := h.minor hq₃.minor
  split
  · exact hskip s₃ _ h₃
  split
  · exact hskip s₃ _ h₃
  rw [Obeys.bind_iff, Obeys.attempt_iff]
  refine (obeys_quiet (only_env _)).mono fun s₄ r hq₄ => ?_
  have h₄ := h₃.minor hq₄.minor
  cases r with
  | error x =>
      dsimp only
      split
      · exact hskip s₄ _ h₄
      · exact h₄.processed
  | ok authorised =>
      dsimp only
      rw [Obeys.bind_iff]
      refine (ocrLoop_obeys started authorised _ {} fun d hd => by cases hd).mono fun s₅ r hr => ?_
      obtain ⟨hq₅, hnamed⟩ := hr
      have h₅ := h₄.minor hq₅.minor
      cases r with
      | error x => exact h₅.processed
      | ok st =>
          have hconclude : ∀ decision, st.decision = some decision →
              decision.allowed = true → decision.authorisedPlate.isSome := hnamed st rfl
          dsimp only
          cases hd : st.decision with
          | none =>
              split
              · rw [Prog.pure_eq, Prog.ret_bind, hd]
                exact hskip s₅ _ h₅
              · rw [Obeys.bind_iff]
                refine obeys_quiet_bind (only_env _) (fun s₆ now₆ hq₆ => ?_) fun s' x hq =>
                  (h₅.minor hq.minor).processed
                have h₆ := h₅.minor hq₆.minor
                split
                · rw [Prog.pure_eq, Obeys.ret_iff]
                  dsimp only
                  exact hskip s₆ _ h₆
                · rw [Prog.pure_eq, Obeys.ret_iff]
                  dsimp only
                  rw [hd]
                  exact hskip s₆ _ h₆
          | some decision =>
              have hplate := hconclude decision hd
              split
              · rw [Prog.pure_eq, Prog.ret_bind, hd]
                exact conclude_obeys h₅ hplate
              · rw [Obeys.bind_iff]
                refine obeys_quiet_bind (only_env _) (fun s₆ now₆ hq₆ => ?_) fun s' x hq =>
                  (h₅.minor hq.minor).processed
                have h₆ := h₅.minor hq₆.minor
                split
                · rw [Prog.pure_eq, Obeys.ret_iff]
                  dsimp only
                  exact conclude_obeys h₆ hplate
                · rw [Prog.pure_eq, Obeys.ret_iff]
                  dsimp only
                  rw [hd]
                  exact conclude_obeys h₆ hplate

/-- The part of `process` for a key that is known. -/
theorem known_obeys {paths : List String} {key : String} (h : Deciding a started s) :
    Obeys (watch cfg c) (fun s' _ => Processed a s') s (do
      if (cfg c.proc).outboxEnabled then
        let eventId ←
          (do
            match ← store (.terminalOutcome key) with
            | some terminal => return terminal.eventId
            | none => store (.eventId key) : Proc (Option Nat))
        match eventId with
        | some eventId =>
            let payload ← outboxPayload (cfg c.proc) paths
            let _ ← store (.ensureOutbox eventId payload)
        | none => pure ()
      let reason ← takenReason key
      return { opened := false, reason : ProcessingResult }) := by
  have hend : ∀ s', Processed a s' → Obeys (watch cfg c) (fun s' _ => Processed a s') s' (do
      let reason ← takenReason key
      return { opened := false, reason : ProcessingResult }) := fun s' h' =>
    processed_of_only (Prog.Only.bind ((only_takenReason key).mono NoEventOp.minor) fun _ => trivial) h'
  split
  · rw [Obeys.bind_iff]
    have hread : Obeys (watch cfg c) (fun s' r => Deciding a started s' ∧
        ∀ id, r = .ok (some id) → id ∈ s'.store.eventIds) s (do
          match ← store (.terminalOutcome key) with
          | some terminal => return terminal.eventId
          | none => store (.eventId key) : Proc (Option Nat)) := by
      rw [Obeys.bind_iff]
      refine Obeys.perform (fun command hc => ?_) fun r _ => ?_
      · rw [h.command] at hc
        cases hc
      have h₁ : Deciding a started (s.next (.store (.terminalOutcome key)) r) :=
        h.minor (MinorOp.next (e := .store (.terminalOutcome key)) trivial s r)
      cases r with
      | error x => exact ⟨h₁, fun _ hr => by cases hr⟩
      | ok terminal =>
          cases terminal with
          | some terminal =>
              refine ⟨h₁, fun id hr => ?_⟩
              have hid : terminal.eventId = some id := by simpa using hr
              simp [Watch.next, StoreWatch.nextStore, hid]
          | none =>
              refine Obeys.perform trivial fun r _ => ⟨?_, fun id hr => ?_⟩
              · exact h₁.minor (MinorOp.next (e := .store (.eventId key)) trivial _ r)
              · subst hr
                simp [Watch.next, StoreWatch.nextStore]
    refine hread.mono fun s₁ r hr => ?_
    obtain ⟨h₁, hid⟩ := hr
    cases r with
    | error x => exact h₁.processed
    | ok eventId =>
        cases eventId with
        | none => exact hend s₁ h₁.processed
        | some id =>
            refine obeys_quiet_bind (only_outboxPayload _ _ _) (fun s₂ payload hq => ?_) fun s' x hq =>
              (h₁.minor hq.minor).processed
            have h₂ := (h₁.minor hq.minor).processed
            refine ensureOutbox_obeys ?_ (fun _ => hend s₂ h₂) fun _ => h₂
            rw [hq.store]
            exact hid id rfl
  · exact hend s h.processed

theorem process_obeys (a : ProcessArgs) :
    Obeys (watch cfg c) (fun s' _ => Processed a s') (Watch.start (.process a))
      (process c (cfg c.proc) a) := by
  have hrest : ∀ s started, Deciding a started s →
      Obeys (watch cfg c) (fun s' _ => Processed a s') s (do
        let candidates ← uniqueContentCandidates [] a.paths
        let paths := candidates.map Prod.fst
        let key := keyOr a.idempotencyKey (eventKeyFromDigests (candidates.map Prod.snd))
        if ← eventExists key then
          if (cfg c.proc).outboxEnabled then
            let eventId ←
              (do
                match ← store (.terminalOutcome key) with
                | some terminal => return terminal.eventId
                | none => store (.eventId key) : Proc (Option Nat))
            match eventId with
            | some eventId =>
                let payload ← outboxPayload (cfg c.proc) paths
                let _ ← store (.ensureOutbox eventId payload)
            | none => pure ()
          let reason ← takenReason key
          return { opened := false, reason }
        else decideBurst c (cfg c.proc) a paths key started) := by
    intro s started h
    refine obeys_minor_bind ((only_uniqueContentCandidates _ _).mono NoEventOp.minor) h.command (fun s₁ candidates hm₁ => ?_)
      fun s' x hm => (h.minor hm).processed
    have h₁ := h.minor hm₁
    refine obeys_minor_bind ((only_eventExists _).mono NoEventOp.minor) h₁.command (fun s₂ found hm₂ => ?_)
      fun s' x hm => (h₁.minor hm).processed
    have h₂ := h₁.minor hm₂
    cases found with
    | true =>
        rw [if_pos rfl]
        exact known_obeys h₂
    | false => exact decideBurst_obeys h₂
  have hstart : ∀ started, (Watch.start (.process a)).started = some started →
      Deciding a started (Watch.start (.process a)) := fun started h =>
    ⟨rfl, fun _ => rfl, h, ⟨rfl, rfl, rfl, rfl, rfl, rfl, rfl, rfl, rfl, rfl⟩, rfl, rfl, rfl, rfl, rfl⟩
  unfold process
  cases hgiven : a.decisionStartedAt with
  | some started => exact hrest _ started (hstart started hgiven)
  | none =>
      rw [Obeys.bind_iff]
      refine Obeys.perform trivial fun r _ => ?_
      cases r with
      | error x => exact ⟨rfl, fun _ => rfl, fun _ hr => by cases hr⟩
      | ok started =>
          refine hrest _ started ⟨rfl, fun _ => rfl, ?_, ⟨rfl, rfl, rfl, rfl, rfl, rfl, rfl, rfl, rfl, rfl⟩,
            rfl, rfl, rfl, rfl, rfl⟩
          simp [Watch.next, Watch.start, nextStarted, hgiven]

end GateProcessor

end GateController

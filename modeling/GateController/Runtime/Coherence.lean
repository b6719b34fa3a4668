import GateController.Runtime.Watch

/-!
# What a watch tells

Facts about the watch of any call that follow from the rules alone, whatever the
state of the processes: a mark is the mark of the call's own claim, a call of
`trigger` has a mark, a check that has answered has answered what its questions
came to.  `Watch.Coherent.next` is the step, and `Runtime.Base` makes it part of
every run.
-/

namespace GateController

open Data Effects Proc LocalStore ActuationCoordinator

/-- What is claimed for a call. -/
def Watch.ClaimOf (cfg : Config) (s : Watch) (a : ClaimArgs) : Prop :=
  (∀ command, s.call.command? cfg = some command →
    a.idempotencyKey = DirectCommandExecutor.claimKey command.idempotencyKey) ∧
  if s.call.isPrompt cfg then a.event = none ∧ a.cooldownCutoff = none
  else ∃ event, a.event = some event ∧ event.idempotencyKey = some a.idempotencyKey ∧
    a.cooldownCutoff.isSome

/-- A mark is for the call's own claim, with the claim's data and cutoff. -/
def Watch.MarkOf (cfg : Config) (s : Watch) (m : MarkArgs) : Prop :=
  s.call.isPrompt cfg = false ∧ ∃ ca now, s.store.Owns ca m.claim ∧ ca.event = some m.event ∧
    ca.outboxPayload = m.outboxPayload ∧ ca.commandAck = m.commandAck ∧ ca.bootId = m.bootId ∧
    m.attemptedMonotonic = some now ∧ ca.monotonicCutoff = some (now - cfg.cooldownSeconds)

/-- What was stored at the end is about the call's own claim, and keeps the mark of
a pulse. -/
def Watch.FinalOf (s : Watch) (a : FinalizeArgs) : Prop :=
  (∃ ca, s.store.Owns ca a.claim) ∧ a.event.idempotencyKey = some a.claim.idempotencyKey ∧
  (s.relay.lit = true → a.retainActivationAttempt = true ∧ a.status ≠ "expired")

/-- The facts. -/
structure Watch.Coherent (cfg : Config) (s : Watch) : Prop where
  claimed : ∀ a claim, s.store.claimed = some (a, claim) →
    claim.idempotencyKey = a.idempotencyKey ∧ s.ClaimOf cfg a
  marked : ∀ m, s.store.marked = some m → s.MarkOf cfg m
  called : s.store.called = true → (∃ m, s.store.marked = some m) ∧ s.InhibitOf cfg s.relay.inhibit
  finalized : ∀ a done, s.store.finalized = some (a, done) → s.FinalOf a
  lit : s.relay.lit = true → s.call.isTrigger = true ∨ s.store.called = true
  pulsed : s.relay.pulsed = true → s.relay.lit = true
  verdict : ∀ check e v, s.relay.inhibit = some check → s.relay.evaluation = some e →
    e.verdict = some v → check.Yields e.answers (.ok v)
  cleared : s.relay.cleared = true → s.holds .boundary = true ∧ s.relay.passed = true

variable {cfg : Config} {s : Watch}

theorem Watch.Coherent.start (call : Call) : (Watch.start call).Coherent cfg where
  claimed a claim h := by cases h
  marked m h := by cases h
  called h := by cases h
  finalized a done h := by cases h
  lit h := by cases h
  pulsed h := by cases h
  verdict check e v _ h := by cases h
  cleared h := by cases h

/-- Store calls that the facts are not about. -/
theorem Watch.Coherent.of_store {v : StoreWatch} (h : s.Coherent cfg)
    (hclaimed : v.claimed = s.store.claimed) (hmarked : v.marked = s.store.marked)
    (hcalled : v.called = s.store.called) (hfinal : v.finalized = s.store.finalized) :
    ({ s with store := v } : Watch).Coherent cfg where
  claimed a claim hc := h.claimed a claim (hclaimed ▸ hc)
  marked m hm := by
    obtain ⟨hp, ca, now, ⟨hown, hs⟩, hrest⟩ := h.marked m (hmarked ▸ hm)
    exact ⟨hp, ca, now, ⟨hclaimed.trans hown, hs⟩, hrest⟩
  called hc := by
    obtain ⟨⟨m, hm⟩, hinh⟩ := h.called (hcalled ▸ hc)
    refine ⟨⟨m, hmarked.trans hm⟩, ?_⟩
    simpa only [Watch.InhibitOf, hmarked] using hinh
  finalized a done hf := by
    obtain ⟨⟨ca, hown, hs⟩, hrest⟩ := h.finalized a done (hfinal ▸ hf)
    exact ⟨⟨ca, hclaimed.trans hown, hs⟩, hrest⟩
  lit hl := (h.lit hl).imp_right fun hc => hcalled.trans hc
  pulsed := h.pulsed
  verdict := h.verdict
  cleared := h.cleared

/-- Nothing is marked or stored for a call that has claimed nothing. -/
theorem Watch.Coherent.unclaimed (h : s.Coherent cfg) (hnone : s.store.claimed = none) :
    s.store.marked = none ∧ s.store.finalized = none := by
  constructor
  · cases hm : s.store.marked with
    | none => rfl
    | some m =>
        obtain ⟨-, ca, now, ⟨hown, -⟩, -⟩ := h.marked m hm
        rw [hnone] at hown
        cases hown
  · cases hf : s.store.finalized with
    | none => rfl
    | some p =>
        obtain ⟨⟨ca, hown, -⟩, -⟩ := h.finalized p.1 p.2 hf
        rw [hnone] at hown
        cases hown

theorem Watch.Coherent.next_store {op : StoreOp} {r : Except Exc op.Ans} (h : s.Coherent cfg)
    (hallow : s.AllowStore cfg op) (hposs : (Eff.store op).Possible r) :
    (s.next (.store op) r).Coherent cfg := by
  cases op with
  | claimActuation a =>
      obtain ⟨hnone, -, hcommand, hevent⟩ := hallow
      cases r with
      | error x => exact h.of_store rfl rfl rfl rfl
      | ok claim =>
          -- Nothing was claimed before, so nothing rests on the old claim.
          obtain ⟨hunmarked, hunfinal⟩ := h.unclaimed hnone
          refine ⟨fun a' claim' hc => ?_, fun m hm => ?_, fun hc => ?_, fun a' done hf => ?_, h.lit,
            h.pulsed, h.verdict, h.cleared⟩
          · cases hc
            refine ⟨(hposs claim rfl).1, fun command hc => (hcommand command hc).2, ?_⟩
            change if s.call.isPrompt cfg = true then _ else _
            split at hevent
            · next hp =>
              rw [if_pos hp]
              exact hevent
            · next hp =>
              rw [if_neg hp]
              obtain ⟨event, now, he, hk, hcut, -⟩ := hevent
              exact ⟨event, he, hk, hcut⟩
          · rw [show (s.next (.store (.claimActuation a)) (.ok claim)).store.marked =
              s.store.marked from rfl, hunmarked] at hm
            cases hm
          · obtain ⟨m, hm⟩ := (h.called hc).1
            rw [hunmarked] at hm
            cases hm
          · rw [show (s.next (.store (.claimActuation a)) (.ok claim)).store.finalized =
              s.store.finalized from rfl, hunfinal] at hf
            cases hf
  | markActuationAttempt a =>
      cases r with
      | error x => exact h.of_store rfl rfl rfl rfl
      | ok u =>
          obtain ⟨-, hnone, hcalled, hfinal, hprompt, ca, now, last, hown, he, hp, hack, hb, -, hm,
            hcut, -⟩ := hallow
          refine ⟨h.claimed, fun m hm' => ?_, fun hc => ?_, h.finalized, h.lit, h.pulsed, h.verdict,
            h.cleared⟩
          · cases hm'
            exact ⟨hprompt, ca, now, hown, he, hp, hack, hb, hm, hcut⟩
          · exact absurd (hcalled.symm.trans hc) Bool.false_ne_true
  | finalizeActuation a =>
      obtain ⟨-, -, hown, hkey, hlit, -⟩ := hallow
      refine ⟨h.claimed, h.marked, h.called, fun a' done hf => ?_, h.lit, h.pulsed, h.verdict,
        h.cleared⟩
      cases hf
      exact ⟨hown, hkey, hlit⟩
  | terminalOutcome key => cases r <;> exact h.of_store rfl rfl rfl rfl
  | eventId key => cases r <;> exact h.of_store rfl rfl rfl rfl
  | _ => exact h.of_store rfl rfl rfl rfl

/-- Changes of the relay side and of the locks that keep what the facts are about. -/
theorem Watch.Coherent.of_relay {v : RelayWatch} {holds : LockId → Bool} (h : s.Coherent cfg)
    (hinhibit : v.inhibit = s.relay.inhibit) (hlit : v.lit = s.relay.lit)
    (hpulsed : v.pulsed = true → v.lit = true)
    (hverdict : ∀ check e w, v.inhibit = some check → v.evaluation = some e → e.verdict = some w →
      check.Yields e.answers (.ok w))
    (hcleared : v.cleared = true → holds .boundary = true ∧ v.passed = true) :
    ({ s with holds := holds, relay := v } : Watch).Coherent cfg where
  claimed := h.claimed
  marked := h.marked
  called hc := by
    obtain ⟨hm, hinh⟩ := h.called hc
    refine ⟨hm, ?_⟩
    rw [show ({ s with holds := holds, relay := v } : Watch).relay.inhibit = s.relay.inhibit from
      hinhibit]
    exact hinh
  finalized a done hf := by
    obtain ⟨hown, hkey, hkeep⟩ := h.finalized a done hf
    exact ⟨hown, hkey, fun hl => hkeep (hlit ▸ hl)⟩
  lit hl := h.lit (hlit ▸ hl)
  pulsed := hpulsed
  verdict := hverdict
  cleared := hcleared

/-- An answer of the outside keeps what the checks have said. -/
theorem Watch.Coherent.next_env {op : EnvOp} {r : Except Exc op.Ans} (h : s.Coherent cfg) :
    (s.next (.env op) r).Coherent cfg := by
  have hbase : ({ s with relay := s.relay.answer op r } : Watch).Coherent cfg := by
    unfold RelayWatch.answer
    cases hev : s.relay.evaluation with
    | none => exact h
    | some e =>
        dsimp only
        split
        · next hopen =>
          refine h.of_relay rfl rfl h.pulsed (fun check e' v _ he hv => ?_) fun hcl => ?_
          · cases he
            have hv' : e.verdict = some v := hv
            simp [hv'] at hopen
          · obtain ⟨hheld, hpassed⟩ := h.cleared hcl
            refine ⟨hheld, ?_⟩
            cases hinh : s.relay.inhibit with
            | none => simp [RelayWatch.passed]
            | some check =>
                simp only [RelayWatch.passed, hinh, hev, Bool.and_eq_true, beq_iff_eq] at hpassed
                simp [hpassed.2] at hopen
        · exact h
  have hstarted : ∀ v, s.started = some v → nextStarted s.started op r = some v := by
    intro v hv
    unfold nextStarted
    split
    · simp [hv]
    · exact hv
  refine ⟨hbase.claimed, hbase.marked, fun hc => ?_, hbase.finalized, hbase.lit, hbase.pulsed,
    hbase.verdict, hbase.cleared⟩
  obtain ⟨hm, hinh⟩ := hbase.called hc
  refine ⟨hm, ?_⟩
  simp only [Watch.InhibitOf, Watch.next] at hinh ⊢
  split at hinh
  · exact hinh
  · exact hinh
  · obtain ⟨m, plate, started, hmk, hpl, hst, heq⟩ := hinh
    exact ⟨m, plate, started, hmk, hpl, hstarted _ hst, heq⟩
  · exact hinh.elim

theorem Watch.Coherent.next_relay {op : RelayOp} {r : Except Exc op.Ans} (h : s.Coherent cfg)
    (hallow : s.AllowRelay op) : (s.next (.relay op) r).Coherent cfg := by
  cases op with
  | shutdownIsSet =>
      refine h.of_relay rfl rfl h.pulsed h.verdict fun hcl => ?_
      simp only [RelayWatch.next, Bool.and_eq_true] at hcl
      exact ⟨hcl.1.1, hcl.1.2⟩
  | high =>
      obtain ⟨⟨hopen, hent⟩, -⟩ := hallow
      refine ⟨h.claimed, h.marked, h.called, fun a done hf => ?_, fun _ => ?_, fun _ => rfl, h.verdict,
        fun hcl => (by cases hcl)⟩
      · exact absurd (hopen.symm.trans hf) (by simp)
      · exact hent.imp_right fun h => h.2.1
  | low =>
      cases r with
      | error x => exact h.of_relay rfl rfl h.pulsed h.verdict h.cleared
      | ok u =>
          refine h.of_relay rfl rfl (fun hp => ?_) h.verdict h.cleared
          simp only [RelayWatch.next, Bool.or_eq_true] at hp
          rcases hp with hp | hp
          · exact h.pulsed hp
          · exact hp
  | setShutdown => exact h.of_relay rfl rfl h.pulsed h.verdict fun hcl => by cases hcl
  | isLatched => exact h.of_relay rfl rfl h.pulsed h.verdict h.cleared
  | setLatched b => exact h.of_relay rfl rfl h.pulsed h.verdict h.cleared
  | constructed => exact h.of_relay rfl rfl h.pulsed h.verdict h.cleared
  | _ => exact h

theorem Watch.Coherent.next_mark {m : Mark} {r : Except Exc Unit} (h : s.Coherent cfg)
    (hallow : s.AllowNote cfg m) : (s.next (.mark m) r).Coherent cfg := by
  cases m with
  | evaluating =>
      refine h.of_relay rfl rfl h.pulsed (fun check e v _ he hv => ?_) fun hcl => by cases hcl
      cases he
      cases hv
  | evaluated verdict =>
      obtain ⟨check, e, hinh, hev, hopen, hyields⟩ := hallow
      refine h.of_relay rfl rfl h.pulsed (fun check' e' v hc he hv => ?_) fun hcl => ?_
      · simp only [hev, Option.map_some, Option.some.injEq] at he
        subst he
        rw [hinh] at hc
        cases hc
        cases hv
        exact hyields
      · obtain ⟨-, hpassed⟩ := h.cleared hcl
        simp [RelayWatch.passed, hinh, hev, hopen] at hpassed
  | triggerCalled key inhibit =>
      obtain ⟨-, -, hfinal, ⟨m, hm, -⟩, hof⟩ := hallow
      refine ⟨h.claimed, h.marked, fun _ => ⟨⟨m, hm⟩, ?_⟩, h.finalized, fun hl => .inr rfl, h.pulsed,
        fun _ _ _ _ he => (by cases he), fun hcl => by cases hcl⟩
      exact hof
  | triggerReturned result => exact h.of_store rfl rfl rfl rfl

/-- Every step of a call that keeps to the rules keeps the facts. -/
theorem Watch.Coherent.next {e : Eff} {r : Except Exc e.Ans} (h : s.Coherent cfg)
    (hallow : s.allow cfg e) (hposs : e.Possible r) : (s.next e r).Coherent cfg := by
  cases e with
  | acquire lock =>
      refine h.of_relay rfl rfl h.pulsed h.verdict fun hcl => ⟨?_, (h.cleared hcl).2⟩
      by_cases hl : LockId.boundary = lock
      · simp [hl]
      · simp [Function.update, hl, (h.cleared hcl).1]
  | release lock =>
      cases lock with
      | boundary =>
          refine h.of_relay rfl rfl h.pulsed (fun check e v hc he hv => ?_) fun hcl => by cases hcl
          obtain ⟨e', he', rfl⟩ := Option.map_eq_some_iff.1 he
          exact h.verdict check e' v hc he' hv
      | trigger => exact h.of_relay rfl rfl h.pulsed h.verdict fun hcl => by cases hcl
      | _ =>
          refine h.of_relay rfl rfl h.pulsed h.verdict fun hcl => ⟨?_, (h.cleared hcl).2⟩
          simpa [Function.update] using (h.cleared hcl).1
  | store op => exact h.next_store hallow hposs
  | env op => exact h.next_env
  | device op =>
      cases op with
      | monotonicClock => cases r <;> exact h.of_store rfl rfl rfl rfl
      | play key => exact h.of_store rfl rfl rfl rfl
  | relay op => exact h.next_relay hallow
  | mem op => cases op <;> cases r <;> exact h.of_store rfl rfl rfl rfl
  | mark m => exact h.next_mark hallow

end GateController

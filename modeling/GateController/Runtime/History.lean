import GateController.Runtime.Base

/-!
# What a call has done stays done

`Later` compares two moments of one call.  What was claimed, marked, called or
stored at the first is so at the second.  Together with `Effects.Lawful.steps`
this carries a fact from the place of an operation in the log to the end of the
run, and `Effects.Lawful.origin` leads the other way, from what the watch has
seen to the operation it saw.
-/

namespace GateController

open Data Effects Proc LocalStore ActuationCoordinator

variable {cfg : Nat → Config} {c : CallId} {s s' : Watch} {log earlier : Log}

/-- The second watch is the first, later. -/
structure Watch.Later (s s' : Watch) : Prop where
  call : s'.call = s.call
  claimed : ∀ p, s.store.claimed = some p → s'.store.claimed = some p
  marked : ∀ m, s.store.marked = some m → s'.store.marked = some m
  called : s.store.called = true → s'.store.called = true
  finalized : ∀ p, s.store.finalized = some p → s'.store.finalized = some p
  returned : s.store.returned.isSome → s'.store.returned.isSome
  stamped : s.store.stamped.isSome → s'.store.stamped.isSome
  clockFailed : s.store.clockFailed = true → s'.store.clockFailed = true
  lit : s.relay.lit = true → s'.relay.lit = true
  pulsed : s.relay.pulsed = true → s'.relay.pulsed = true
  shutdownSet : s.relay.shutdownSet = true → s'.relay.shutdownSet = true
  offAfterShutdown : s.relay.offAfterShutdown = true → s'.relay.offAfterShutdown = true
  /-- Nothing is marked and no output is lit after the outcome was stored. -/
  sealed : s.store.finalized.isSome →
    s'.store.marked = s.store.marked ∧ s'.relay.lit = s.relay.lit

theorem Watch.Later.refl (s : Watch) : s.Later s :=
  ⟨rfl, fun _ h => h, fun _ h => h, id, fun _ h => h, id, id, id, id, id, id, id, fun _ => ⟨rfl, rfl⟩⟩

theorem Watch.Later.trans {t : Watch} (h₁ : s.Later s') (h₂ : s'.Later t) : s.Later t where
  call := h₂.call.trans h₁.call
  claimed p h := h₂.claimed p (h₁.claimed p h)
  marked m h := h₂.marked m (h₁.marked m h)
  called h := h₂.called (h₁.called h)
  finalized p h := h₂.finalized p (h₁.finalized p h)
  returned h := h₂.returned (h₁.returned h)
  stamped h := h₂.stamped (h₁.stamped h)
  clockFailed h := h₂.clockFailed (h₁.clockFailed h)
  lit h := h₂.lit (h₁.lit h)
  pulsed h := h₂.pulsed (h₁.pulsed h)
  shutdownSet h := h₂.shutdownSet (h₁.shutdownSet h)
  offAfterShutdown h := h₂.offAfterShutdown (h₁.offAfterShutdown h)
  sealed h := by
    obtain ⟨p, hp⟩ := Option.isSome_iff_exists.1 h
    obtain ⟨hm, hl⟩ := h₁.sealed h
    obtain ⟨hm', hl'⟩ := h₂.sealed (Option.isSome_iff_exists.2 ⟨p, h₁.finalized p hp⟩)
    exact ⟨hm'.trans hm, hl'.trans hl⟩

theorem Watch.Later.owns {a : ClaimArgs} {claim : ActuationClaim} (h : s.Later s')
    (ho : s.store.Owns a claim) : s'.store.Owns a claim :=
  ⟨h.claimed _ ho.1, ho.2⟩

/-- One operation of a call that keeps to the rules. -/
theorem Watch.Later.next {cfg : Config} {e : Eff} (r : Except Exc e.Ans) (hallow : s.allow cfg e) :
    s.Later (s.next e r) := by
  have hrefl := Watch.Later.refl s
  cases e with
  | store op =>
      cases op with
      | claimActuation a =>
          cases r with
          | error x => exact hrefl
          | ok claim =>
              exact { hrefl with claimed := fun p hp => by rw [hallow.1] at hp; cases hp }
      | markActuationAttempt a =>
          cases r with
          | error x => exact hrefl
          | ok u =>
              obtain ⟨-, hunmarked, -, hunfinal, -⟩ := hallow
              exact { hrefl with
                marked := fun p hp => by rw [hunmarked] at hp; cases hp
                sealed := fun hf => by rw [hunfinal] at hf; cases hf }
      | finalizeActuation a =>
          exact { hrefl with finalized := fun p hp => by rw [hallow.2.1] at hp; cases hp }
      | terminalOutcome key => cases r <;> exact { hrefl with }
      | eventId key => cases r <;> exact { hrefl with }
      | _ => exact { hrefl with }
  | device op =>
      cases op with
      | monotonicClock =>
          cases r with
          | ok value => exact { hrefl with }
          | error x => exact { hrefl with clockFailed := fun _ => rfl }
      | play key => exact { hrefl with }
  | relay op =>
      cases op with
      | high =>
          obtain ⟨⟨hunfinal, -⟩, -⟩ := hallow
          exact { hrefl with
            lit := fun _ => rfl
            sealed := fun hf => by rw [hunfinal] at hf; cases hf }
      | low =>
          cases r with
          | error x => exact hrefl
          | ok u =>
              exact { hrefl with
                pulsed := fun h => Bool.or_eq_true_iff.2 (.inl h)
                offAfterShutdown := fun h => Bool.or_eq_true_iff.2 (.inl h) }
      | setShutdown => exact { hrefl with shutdownSet := fun _ => rfl }
      | _ => exact { hrefl with }
  | mem op =>
      cases op with
      | setLastAttempt value => exact { hrefl with stamped := fun _ => rfl }
      | _ => cases r <;> exact { hrefl with }
  | mark m =>
      cases m with
      | triggerCalled key inhibit => exact { hrefl with called := fun _ => rfl }
      | triggerReturned result => exact { hrefl with returned := fun _ => rfl }
      | _ => exact { hrefl with }
  | release lock => cases lock <;> exact { hrefl with }
  | env op =>
      have hrelay : ∀ v : RelayWatch, v = s.relay.answer op r → v.lit = s.relay.lit ∧
          v.pulsed = s.relay.pulsed ∧ v.shutdownSet = s.relay.shutdownSet ∧
          v.offAfterShutdown = s.relay.offAfterShutdown := by
        rintro v rfl
        unfold RelayWatch.answer
        split
        · split <;> exact ⟨rfl, rfl, rfl, rfl⟩
        · exact ⟨rfl, rfl, rfl, rfl⟩
      obtain ⟨h₁, h₂, h₃, h₄⟩ := hrelay _ rfl
      exact { hrefl with
        lit := fun h => h₁.trans h
        pulsed := fun h => h₂.trans h
        shutdownSet := fun h => h₃.trans h
        offAfterShutdown := fun h => h₄.trans h
        sealed := fun _ => ⟨rfl, h₁⟩ }
  | acquire lock => exact { hrefl with }

theorem Watch.Later.of_steps (h : (watch cfg c).Steps s s') : s.Later s' := by
  induction h with
  | refl => exact .refl _
  | step _ hallow _ ih => exact ih.trans (.next _ hallow)

section Log

variable {Q : CallId → Watch → Except Exc Result → Prop}

/-- The watch of a call at the end of a log, from an earlier moment on. -/
theorem later_of_suffix (h : Lawful (watch cfg) Q log) (hsuffix : earlier <:+ log)
    (hghost : ghost (watch cfg) c earlier = some s) :
    ∃ s', ghost (watch cfg) c log = some s' ∧ s.Later s' := by
  obtain ⟨s', hs', hsteps⟩ := h.steps hsuffix hghost
  exact ⟨s', hs', .of_steps hsteps⟩

/-- The watch of a call right after an operation, and at the end. -/
theorem later_of_did {e : Eff} {r : Except Exc e.Ans} (h : Lawful (watch cfg) Q log)
    (hmem : .did c e r :: earlier <:+ log) :
    ∃ s s', ghost (watch cfg) c earlier = some s ∧ s.allow (cfg c.proc) e ∧ e.Possible r ∧
      ghost (watch cfg) c log = some s' ∧ (s.next e r).Later s' := by
  obtain ⟨-, s, hs, hallow, hexpect⟩ := h.did hmem
  obtain ⟨s', hs', hlater⟩ := later_of_suffix h hmem (ghost_did_self hs)
  exact ⟨s, s', hs, hallow, hexpect.1, hs', hlater⟩

/-- The facts of `Coherent` hold at every moment. -/
theorem coherent_of_lawful (h : Lawful (watch cfg) Q log) :
    Ever (watch cfg) (fun c s => s.Coherent (cfg c.proc)) log :=
  h.ever (fun _ call => .start call) fun _ _ _ _ hallow hexpect hs => hs.next hallow hexpect.1

/-- What a call does not begin with was brought about by one of its operations. -/
theorem changed_event {β : Type} {f : Watch → β} {x : β} (h : Lawful (watch cfg) Q log)
    (hghost : ghost (watch cfg) c log = some s) (hs : f s = x)
    (hstart : ∀ call, f ((watch cfg c).start call) ≠ x) :
    ∃ e r earlier s', .did c e r :: earlier <:+ log ∧ f (s'.next e r) = x ∧
      f (s'.next e r) ≠ f s' := by
  obtain ⟨e, r, earlier, s', hmem, -, hnot, hnow⟩ :=
    h.origin (Φ := fun s => f s = x) hghost hs hstart
  exact ⟨e, r, earlier, s', hmem, hnow, fun heq => hnot (heq.symm.trans hnow)⟩

/-- Only the store's answers are kept of what the store is asked. -/
theorem Watch.next_asked {e : Eff} (h : ¬ ∃ op, e = .store op) (s : Watch) (r : Except Exc e.Ans) :
    (s.next e r).store.claimed = s.store.claimed ∧ (s.next e r).store.marked = s.store.marked ∧
      (s.next e r).store.finalized = s.store.finalized := by
  cases e with
  | store op => exact absurd ⟨op, rfl⟩ h
  | device op => cases op <;> cases r <;> exact ⟨rfl, rfl, rfl⟩
  | mem op => cases op <;> cases r <;> exact ⟨rfl, rfl, rfl⟩
  | mark m => cases m <;> exact ⟨rfl, rfl, rfl⟩
  | _ => exact ⟨rfl, rfl, rfl⟩

/-- What a call has claimed, the store has answered. -/
theorem claimed_event (h : Lawful (watch cfg) Q log) (hghost : ghost (watch cfg) c log = some s)
    {a : ClaimArgs} {claim : ActuationClaim} (hs : s.store.claimed = some (a, claim)) :
    .did c (.store (.claimActuation a)) (.ok claim) ∈ log := by
  obtain ⟨e, r, earlier, s', hmem, hnow, hnew⟩ :=
    changed_event (f := fun s => s.store.claimed) h hghost hs fun call hc => by cases hc
  by_cases hstore : ∃ op, e = .store op
  · obtain ⟨op, rfl⟩ := hstore
    cases op with
    | claimActuation a' =>
        cases r with
        | error x => exact absurd rfl hnew
        | ok claim' =>
            cases hnow
            exact hmem.mem List.mem_cons_self
    | terminalOutcome key => cases r <;> exact absurd rfl hnew
    | eventId key => cases r <;> exact absurd rfl hnew
    | markActuationAttempt m => cases r <;> exact absurd rfl hnew
    | _ => exact absurd rfl hnew
  · exact absurd (Watch.next_asked hstore s' r).1 hnew

/-- What a call has marked, the store has committed. -/
theorem marked_event (h : Lawful (watch cfg) Q log) (hghost : ghost (watch cfg) c log = some s)
    {m : MarkArgs} (hs : s.store.marked = some m) :
    .did c (.store (.markActuationAttempt m)) (.ok ()) ∈ log := by
  obtain ⟨e, r, earlier, s', hmem, hnow, hnew⟩ :=
    changed_event (f := fun s => s.store.marked) h hghost hs fun call hc => by cases hc
  by_cases hstore : ∃ op, e = .store op
  · obtain ⟨op, rfl⟩ := hstore
    cases op with
    | markActuationAttempt m' =>
        cases r with
        | error x => exact absurd rfl hnew
        | ok u =>
            cases hnow
            exact hmem.mem List.mem_cons_self
    | terminalOutcome key => cases r <;> exact absurd rfl hnew
    | eventId key => cases r <;> exact absurd rfl hnew
    | claimActuation a => cases r <;> exact absurd rfl hnew
    | _ => exact absurd rfl hnew
  · exact absurd (Watch.next_asked hstore s' r).2.1 hnew

/-- What a call has stored at its end, it has handed to the store. -/
theorem finalized_event (h : Lawful (watch cfg) Q log) (hghost : ghost (watch cfg) c log = some s)
    {a : FinalizeArgs} {done : Bool} (hs : s.store.finalized = some (a, done)) :
    ∃ r, .did c (.store (.finalizeActuation a)) r ∈ log := by
  obtain ⟨e, r, earlier, s', hmem, hnow, hnew⟩ :=
    changed_event (f := fun s => s.store.finalized) h hghost hs fun call hc => by cases hc
  by_cases hstore : ∃ op, e = .store op
  · obtain ⟨op, rfl⟩ := hstore
    cases op with
    | finalizeActuation a' =>
        cases hnow
        exact ⟨r, hmem.mem List.mem_cons_self⟩
    | terminalOutcome key => cases r <;> exact absurd rfl hnew
    | eventId key => cases r <;> exact absurd rfl hnew
    | claimActuation a => cases r <;> exact absurd rfl hnew
    | markActuationAttempt m => cases r <;> exact absurd rfl hnew
    | _ => exact absurd rfl hnew
  · exact absurd (Watch.next_asked hstore s' r).2.2 hnew

/-- A clock that has failed a call was read by it. -/
theorem clockFailed_event (h : Lawful (watch cfg) Q log)
    (hghost : ghost (watch cfg) c log = some s) (hs : s.store.clockFailed = true) :
    ∃ x, .did c (.device .monotonicClock) (.error x) ∈ log := by
  obtain ⟨e, r, earlier, s', hmem, -, hnew⟩ :=
    changed_event (f := fun s => s.store.clockFailed) h hghost hs fun call hc => by cases hc
  cases e with
  | device op =>
      cases op with
      | monotonicClock =>
          cases r with
          | ok value => exact absurd rfl hnew
          | error x => exact ⟨x, hmem.mem List.mem_cons_self⟩
      | play key => exact absurd rfl hnew
  | store op => cases op <;> cases r <;> exact absurd rfl hnew
  | mem op => cases op <;> cases r <;> exact absurd rfl hnew
  | mark m => cases m <;> exact absurd rfl hnew
  | _ => exact absurd rfl hnew

/-- A call that has lit the output has driven it high. -/
theorem lit_event (h : Lawful (watch cfg) Q log) (hghost : ghost (watch cfg) c log = some s)
    (hs : s.relay.lit = true) :
    ∃ r before, .did c (.relay .high) r :: before <:+ log := by
  obtain ⟨e, r, earlier, s', hmem, -, hnew⟩ :=
    changed_event (f := fun s => s.relay.lit) h hghost hs fun call hc => by cases hc
  cases e with
  | relay op =>
      cases op with
      | high => exact ⟨r, earlier, hmem⟩
      | low => cases r <;> exact absurd rfl hnew
      | _ => exact absurd rfl hnew
  | release lock => cases lock <;> exact absurd rfl hnew
  | env op =>
      refine absurd ?_ hnew
      simp only [Watch.next, RelayWatch.answer]
      split
      · split <;> rfl
      · rfl
  | mark m => cases m <;> exact absurd rfl hnew
  | _ => exact absurd rfl hnew

end Log

end GateController

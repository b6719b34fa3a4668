import GateController.Updater.Pending

/-!
# The legacy command service is restored

The flags of the legacy service before an activation live in the record only,
while the service is disabled by every try of the candidate.  One step of the
system does one of few things to the record.  From that follows, over any number
of interrupted runs, that a rollback that removes the record leaves the flags at
least as they were.
-/

namespace GateController

open Effects

/-- At least the flags of another state. -/
def LegacyCommandState.Covers (now wanted : LegacyCommandState) : Prop :=
  (wanted.enabled = true → now.enabled = true) ∧ (wanted.active = true → now.active = true)

/-- What one step of the system does to the record and the flags. -/
structure RecordStep (ships : Sha → Bool) (crash : Bool) (s s' : Host) : Prop where
  /-- A first record holds the flags as they are. -/
  first : s.pending = none → s'.pending = none ∨
    ∃ candidate previous, s'.pending = some (.v2 candidate previous s.legacy) ∧ s'.legacy = s.legacy
  /-- Under a version 1 record the service is not touched, and the upgrade holds the flags as
  they are.  Only power loss may leave the service inactive. -/
  upgrade : ∀ candidate previous, s.pending = some (.v1 candidate previous) →
    (s'.pending = s.pending ∨ s'.pending = some (.v2 candidate previous s.legacy) ∨
      s'.pending = none) ∧ s'.legacy.enabled = s.legacy.enabled ∧
      (crash = false → s'.legacy = s.legacy)
  /-- A version 2 record is never written over.  It goes when the candidate is confirmed, or
  when the previous release is and the flags are back. -/
  kept : ∀ candidate previous legacy, s.pending = some (.v2 candidate previous legacy) →
    s'.pending = s.pending ∨ s'.pending = none ∧ (s'.current = previous →
      ships previous = true → s'.legacy.Covers legacy)

section Step

variable {config : UpdateConfig} {ships : Sha → Bool} {w : UpdaterWatch} {s s' : Host}
  {log : List UpdaterEvent} {e : UpdaterEff} {r : Except UpdaterExc e.Ans}

/-- The record and the flags stay. -/
theorem RecordStep.of_same {crash : Bool} (hpending : s'.pending = s.pending)
    (hlegacy : s'.legacy = s.legacy) : RecordStep ships crash s s' where
  first hnone := .inl (hpending.trans hnone)
  upgrade _ _ _ := ⟨.inl hpending, by rw [hlegacy], fun _ => hlegacy⟩
  kept _ _ _ _ := .inl hpending

/-- A record is written only with the flags as they are, and never over one of version 2. -/
theorem RecordStep.write (hw : w.Knows s log) {candidate previous : Sha}
    {legacy : LegacyCommandState} (hwrite : w.MayWrite candidate previous legacy) :
    RecordStep ships false s { s with pending := some (.v2 candidate previous legacy) } := by
  obtain ⟨-, henabled, hactive, hold⟩ := hwrite
  have hlegacy : s.legacy = legacy := by
    cases legacy
    cases hs : s.legacy
    have h₁ := hw.seenEnabled _ henabled
    have h₂ := hw.seenActive _ hactive
    rw [hs] at h₁ h₂
    rw [LegacyCommandState.mk.injEq]
    exact ⟨h₁, h₂⟩
  subst hlegacy
  have hpending : s.pending = none ∨ s.pending = some (.v1 candidate previous) :=
    hold.imp (fun h => hw.record _ h.1) (fun h => hw.record _ h)
  refine ⟨fun _ => .inr ⟨candidate, previous, rfl, rfl⟩, fun c p hv1 => ?_, fun c p l hv2 => ?_⟩
  · rcases hpending with h | h
    · cases hv1.symm.trans h
    · cases hv1.symm.trans h
      exact ⟨.inr (.inl rfl), rfl, fun _ => rfl⟩
  · rcases hpending with h | h
    · cases hv2.symm.trans h
    · cases hv2.symm.trans h

/-- A record goes only when the flags it holds are back, or with its candidate confirmed. -/
theorem RecordStep.clear (hw : w.Knows s log) (hclear : w.MayClear ships) :
    RecordStep ships false s { s with pending := none } := by
  obtain ⟨record, current, hrecord, hlinked, -, hrestored⟩ := hclear
  have hpending : s.pending = some record := hw.record _ hrecord
  refine ⟨fun hnone => ?_, fun c p _ => ⟨.inr (.inr rfl), rfl, fun _ => rfl⟩, fun c p l hv2 => ?_⟩
  · cases hpending.symm.trans hnone
  · cases hpending.symm.trans hv2
    refine .inr ⟨rfl, fun hcurrent hships => ?_⟩
    have hprev : current = p := (hw.current current hlinked).symm.trans hcurrent
    obtain ⟨henabled, hactive⟩ := hrestored hprev hships l rfl
    exact ⟨fun h => hw.enabled (henabled h), fun h => hw.active (hactive h)⟩

/-- What a step of a run does to the record. -/
theorem RecordStep.did (hw : w.Knows s log) (hallow : w.allow config ships e)
    (hchange : Updater.Change s e r s') : RecordStep ships false s s' := by
  obtain ⟨-, hallow⟩ := hallow
  cases hchange with
  | write record =>
      obtain ⟨candidate, previous, legacy, rfl, hwrite⟩ := hallow
      exact .write hw hwrite
  | unlink => exact .clear hw hallow
  | legacy e r legacy he =>
      obtain ⟨candidate, previous, saved, hrecord⟩ : ∃ candidate previous saved,
          w.record = some (some (.v2 candidate previous saved)) := by
        rcases he with rfl | rfl | rfl
        · exact hallow
        · exact hallow
        · exact hallow
      have hpending := hw.record _ hrecord
      refine ⟨fun hnone => ?_, fun c p hv1 => ?_, fun _ _ _ _ => .inl rfl⟩
      · cases hpending.symm.trans hnone
      · cases hpending.symm.trans hv1
  | _ => exact .of_same rfl rfl

end Step

/-! ## Runs -/

/-- The choice is a loss of power. -/
def isCrash : Choice UpdaterEnv Unit → Bool
  | .crash _ _ => true
  | _ => false

section Runs

variable {config : UpdateConfig} {ships : Sha → Bool} {initial : Sha}

/-- What one choice of the scheduler does to the record. -/
theorem recordStep_step {w : UpdaterWorld} (ch : Choice UpdaterEnv Unit)
    (hs : Sound (fun _ => updaterWatch config ships) (fun _ v _ => v.locked = false) w)
    (hI : UpdaterInv config ships initial w.state w.log) :
    RecordStep ships (isCrash ch) w.state ((Updater.machine config ships).step w ch).state := by
  have hmove := Machine.step_move (M := Updater.machine config ships) w ch
  generalize ((Updater.machine config ships).step w ch).state = s' at hmove ⊢
  cases hmove with
  | stay => exact .of_same rfl rfl
  | begin c call haccept =>
      simp only [Updater.machine] at haccept
      split at haccept
      · cases haccept
        exact .of_same rfl rfl
      · cases haccept
  | did c env hrun hexec =>
      obtain ⟨v, hghost, hobeys⟩ := hs.obeys c _ hrun
      have hlive : Live c w.log := (hs.live c).1 (by rw [hrun]; rfl)
      obtain ⟨-, hknows⟩ := hI.each c v hlive hghost hobeys.1.1
      exact .did hknows hobeys.1 (Updater.exec_change hexec)
  | crash p env =>
      simp only [Updater.machine]
      split
      · exact ⟨fun hnone => .inl hnone, fun _ _ _ => ⟨.inl rfl, rfl, fun hsafe => (by cases hsafe)⟩,
          fun _ _ _ _ => .inl rfl⟩
      · exact .of_same rfl rfl

/-- A version 2 record stays as it is over any number of runs and losses of power, until it goes
with the flags restored or its candidate confirmed. -/
theorem record_kept_until_restored {candidate previous : Sha} {legacy : LegacyCommandState}
    (after : List (Choice UpdaterEnv Unit)) {w : UpdaterWorld}
    (hs : Sound (fun _ => updaterWatch config ships) (fun _ v _ => v.locked = false) w)
    (hI : UpdaterInv config ships initial w.state w.log)
    (hrecord : w.state.pending = some (.v2 candidate previous legacy))
    (hpresent : (Updater.machine config ships).Admits
      (fun u _ => u.state.pending ≠ none) w after) :
    let w' := (Updater.machine config ships).run w after
    w'.state.pending = some (.v2 candidate previous legacy) ∨
      w'.state.pending = none ∧ (w'.state.current = previous → ships previous = true →
        w'.state.legacy.Covers legacy) := by
  induction after generalizing w with
  | nil => exact .inl hrecord
  | cons ch rest ih =>
      obtain ⟨-, hrest⟩ := hpresent
      have hok : (fun (_ : UpdaterWorld) (_ : Choice UpdaterEnv Unit) => True) w ch := trivial
      obtain ⟨hs', hI'⟩ := (updater_invariant config ships initial).step hs hI hok
      rcases (recordStep_step ch hs hI).kept candidate previous legacy hrecord with hsame | hgone
      · exact ih hs' hI' (hsame.trans hrecord) hrest
      · cases rest with
        | nil => exact .inr hgone
        | cons ch' rest => exact absurd hgone.1 hrest.1

end Runs

/-- Over all runs of the updater, with failing commands and power lost between any two steps: a
first record holds the flags of the legacy service as they stand.  Under a version 1 record the
updater does not touch the service, and the upgrade holds the flags as they stand.  A version 2
record is never written over.  And however many interrupted runs come in between, when it has
been cleared with its previous release current, and that release ships the unit, the flags are at
least those it held. -/
theorem legacy_service_restored (config : UpdateConfig) (ships : Sha → Bool)
    (start : InstalledHost) (before after : List (Choice UpdaterEnv Unit))
    (ch : Choice UpdaterEnv Unit) :
    let w := updaterRun config ships start before
    let next := ((Updater.machine config ships).step w ch).state
    let w' := (Updater.machine config ships).run w after
    (w.state.pending = none → next.pending = none ∨
      ∃ candidate previous, next.pending = some (.v2 candidate previous w.state.legacy)) ∧
    (∀ candidate previous, w.state.pending = some (.v1 candidate previous) →
      (next.pending = w.state.pending ∨
        next.pending = some (.v2 candidate previous w.state.legacy) ∨ next.pending = none) ∧
      next.legacy.enabled = w.state.legacy.enabled ∧
      (isCrash ch = false → next.legacy = w.state.legacy)) ∧
    (∀ candidate previous legacy, w.state.pending = some (.v2 candidate previous legacy) →
      (Updater.machine config ships).Admits (fun u _ => u.state.pending ≠ none) w after →
      w'.state.pending = some (.v2 candidate previous legacy) ∨
        w'.state.pending = none ∧ (w'.state.current = previous → ships previous = true →
          w'.state.legacy.Covers legacy)) := by
  intro w next w'
  obtain ⟨hs, hI⟩ := updater_run config ships start before
  have hstep := recordStep_step ch hs hI
  refine ⟨fun hnone => ?_, hstep.upgrade, fun candidate previous legacy hrecord hpresent => ?_⟩
  · exact (hstep.first hnone).imp id fun ⟨candidate, previous, hp, _⟩ => ⟨candidate, previous, hp⟩
  · exact record_kept_until_restored after hs hI hrecord hpresent

end GateController

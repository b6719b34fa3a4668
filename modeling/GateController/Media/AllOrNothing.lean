import GateController.Media.Prepared
import GateController.Media.RoundTrip

/-!
# A refresh of the TURN values is all or nothing

With one failing step at most, a refresh that returns has put the selected values in
place, and one that raises has left or restored the old file.  What breaks this is a call
that fails after the rename of the new file, and a close that fails and takes the
clean-up with it.
-/

namespace GateController

open Data Effects MediaConfig

namespace TurnRefresh

variable {env : Surroundings} {lib : Library} {inputs : Inputs} {runtime : Option File}
  {failing : Option Call} {c : Candidate} {previous staged : List UInt8} {s s' : State}
  {fails : Call → Bool}

/-! ## What must hold -/

/-- The refresh of a runtime file, with one failing step at most. -/
def outcome (env : Surroundings) (lib : Library) (inputs : Inputs) (runtime : Option File)
    (failing : Option Call) : Except RefreshError Unit × State :=
  refreshTurnCredentials env lib inputs (Fallible.single failing) { runtime }

/-- No temporary file is left.  If the refresh raises, and not for a failure of the write
that restores the old file, the bytes are the old ones.  If it returns, the file holds
the values that were selected. -/
structure AllOrNothing (env : Surroundings) (lib : Library) (inputs : Inputs)
    (runtime : Option File) (failing : Option Call) : Prop where
  clean : (outcome env lib inputs runtime failing).2.staged = none ∧
    (outcome env lib inputs runtime failing).2.temporary = none
  raised : ∀ x, (outcome env lib inputs runtime failing).1 = .error x →
    (∀ l, failing ≠ some (.write .restored l)) →
    (outcome env lib inputs runtime failing).2.runtime.map File.body = runtime.map File.body
  returned : (outcome env lib inputs runtime failing).1 = .ok () →
    ∃ c, Selected lib inputs c ∧
      Holds lib inputs (outcome env lib inputs runtime failing).2.runtime c

/-! ## When it does -/

/-- The new file is valid with the others, and the service answers, so the new file is
written. -/
def Installs (env : Surroundings) (lib : Library) (inputs : Inputs) (staged : List UInt8) : Prop :=
  (∃ out, completeEnvironment lib inputs (some (written env staged)) = .ok out) ∧
    env.isActive 0 ≠ none

/-- The gateway comes up with the new values. -/
def Up (env : Surroundings) : Prop :=
  env.restart 0 = true ∧ env.isActive 1 = some true ∧ env.isActive 2 = some true ∧
    env.isActive 3 = some true

/-- The close of a write fails and gives the descriptor up. -/
def Lost (env : Surroundings) (failing : Option Call) (phase : Phase) : Prop :=
  failing = some (.write phase .close) ∧ env.closeReleases = true

/-- The failing step comes after the rename of a new file that is not the old one, or it is
a close that gives the descriptor up, in a write that is made. -/
def Harmful (env : Surroundings) (lib : Library) (inputs : Inputs) (runtime : Option File)
    (failing : Option Call) : Prop :=
  ∃ previous staged c, Prepared lib inputs runtime previous staged c ∧
    (Lost env failing .staged ∨
      Installs env lib inputs staged ∧
        (Lost env failing .installed ∨
          ((∃ l ∈ late, failing = some (.write .installed l)) ∧ staged ≠ previous) ∨
          (env.isActive 0 = some true ∧ ¬ Up env ∧ Lost env failing .restored)))

/-! ## The three writes -/

/-- The failing call of a write, if the write is that of the phase. -/
def inPhase (phase : Phase) : Option Call → Option WriteCall
  | some (.write other l) => if other = phase then some l else none
  | _ => none

theorem inPhase_eq_some {phase : Phase} {l : WriteCall} :
    inPhase phase failing = some l ↔ failing = some (.write phase l) := by
  constructor
  · intro h
    unfold inPhase at h
    split at h
    next other k =>
      split at h
      next heq =>
        cases h
        rw [heq]
      next => cases h
    next => cases h
  · rintro rfl
    exact if_pos rfl

theorem inPhase_ne_none {phase : Phase} (h : inPhase phase failing ≠ none) :
    ∃ l, failing = some (.write phase l) := by
  obtain ⟨l, hl⟩ := Option.ne_none_iff_exists'.1 h
  exact ⟨l, inPhase_eq_some.1 hl⟩

theorem single_write (phase : Phase) (failing : Option Call) :
    (fun l => Fallible.single failing (.write phase l)) =
      Fallible.single (inPhase phase failing) := by
  funext l
  rw [Bool.eq_iff_iff, Fallible.single_eq_true, Fallible.single_eq_true, inPhase_eq_some]

theorem writeRuntime_ends (phase : Phase) (body : List UInt8) (failing : Option Call)
    (hs : s.temporary = none) : ∃ r target temporary,
      writeRuntime env phase body (Fallible.single failing) s =
        (r, { s with runtime := target, temporary := temporary }) ∧
      WriteEnds env body s.runtime (inPhase phase failing) r target temporary := by
  obtain ⟨r, w, hrun, hends⟩ :=
    atomicWriteEnvironment_ends env body s.runtime (inPhase phase failing)
  refine ⟨r, w.target, w.temporary, ?_, hends⟩
  rw [writeRuntime, Fallible.named_run, Fallible.zoom_run, single_write, hs, hrun]

theorem writeStaged_ends (body : List UInt8) (failing : Option Call) (hs : s.temporary = none) :
    ∃ r target temporary,
      writeStaged env body (Fallible.single failing) s =
        (r, { s with staged := target, temporary := temporary }) ∧
      WriteEnds env body s.staged (inPhase .staged failing) r target temporary := by
  obtain ⟨r, w, hrun, hends⟩ :=
    atomicWriteEnvironment_ends env body s.staged (inPhase .staged failing)
  refine ⟨r, w.target, w.temporary, ?_, hends⟩
  rw [writeStaged, Fallible.named_run, Fallible.zoom_run, single_write, hs, hrun]

/-! ## The staged file -/

/-- How the check of the staged file ends: it is valid, it is rejected without a trace, or
the clean-up of its write is lost. -/
inductive StagedEnds (env : Surroundings) (lib : Library) (inputs : Inputs)
    (staged : List UInt8) (failing : Option Call) (s : State) :
    Except RefreshError Unit → State → Prop where
  | valid {out : Values} (h : completeEnvironment lib inputs (some (written env staged)) = .ok out)
      (hlost : ¬ Lost env failing .staged) : StagedEnds env lib inputs staged failing s (.ok ()) s
  | rejected (x : RefreshError) (hlost : ¬ Lost env failing .staged)
      (h : (∀ out, completeEnvironment lib inputs (some (written env staged)) ≠ .ok out) ∨
        failing = some .validateStaged ∨ ∃ l, failing = some (.write .staged l)) :
      StagedEnds env lib inputs staged failing s (.error x) s
  | lost (x : RefreshError) (file : File) (hlost : Lost env failing .staged) :
      StagedEnds env lib inputs staged failing s (.error x) { s with temporary := some file }

/-- What was staged is removed, whatever was found. -/
theorem validateStaged_of_check {r : Except RefreshError Unit} {target temporary : Option File}
    (hstaged : s.staged = none)
    (h : checkStaged env lib inputs staged fails s =
      (r, { s with staged := target, temporary := temporary })) : ∃ r',
      validateStagedMediaEnvironment env lib inputs staged fails s =
        (r', { s with temporary := temporary }) ∧
      (r = .ok () → r' = .ok ()) ∧ ∀ x, r = .error x → ∃ y, r' = .error y := by
  refine ⟨_, Fallible.finally_of_ok (Fallible.mapError_run _ _) ?_, ?_, ?_⟩
  · rw [h, Fallible.modify_run]
    obtain ⟨runtime, old, file, asked, restarted⟩ := s
    cases hstaged
    rfl
  · intro hr
    rw [h, hr]
    rfl
  · intro x hr
    rw [h, hr]
    exact ⟨_, rfl⟩

/-- A write of the staged file that raises is a check that raises. -/
theorem validateStaged_of_error {x : RefreshError} {target temporary : Option File}
    (hstaged : s.staged = none)
    (h : writeStaged env staged fails s =
      (.error x, { s with staged := target, temporary := temporary })) : ∃ y,
      validateStagedMediaEnvironment env lib inputs staged fails s =
        (.error y, { s with temporary := temporary }) := by
  obtain ⟨r', hrun, -, herror⟩ := validateStaged_of_check hstaged
    (Fallible.bind_of_error h)
  obtain ⟨y, rfl⟩ := herror x rfl
  exact ⟨y, hrun⟩

theorem validateStaged_ends (staged : List UInt8) (failing : Option Call)
    (hstaged : s.staged = none) (htemporary : s.temporary = none) : ∃ r s',
      validateStagedMediaEnvironment env lib inputs staged (Fallible.single failing) s = (r, s') ∧
      StagedEnds env lib inputs staged failing s r s' := by
  have hclean : { s with temporary := none } = s := by
    obtain ⟨runtime, old, file, asked, restarted⟩ := s
    cases htemporary
    rfl
  obtain ⟨r, target, temporary, hwrite, hends⟩ :=
    writeStaged_ends staged failing htemporary
  cases hends with
  | done hlate hclose =>
      have hlost : ¬ Lost env failing .staged := fun h => hclose (inPhase_eq_some.2 h.1)
      have hcheck : checkStaged env lib inputs staged (Fallible.single failing) s =
          ((checked .validateStaged "current media environments are invalid"
            (completeEnvironment lib inputs (some (written env staged))) >>= fun _ => pure ())
              (Fallible.single failing)
              { s with staged := some (written env staged), temporary := none }) := by
        rw [checkStaged, Fallible.bind_of_ok hwrite, Fallible.bind_of_ok Fallible.get_run]
      by_cases hfails : failing = some .validateStaged
      · rw [Fallible.bind_of_error (by rw [checked_run, if_pos (Fallible.single_eq_true.2 hfails)])]
          at hcheck
        obtain ⟨r', hrun, -, herror⟩ := validateStaged_of_check hstaged hcheck
        obtain ⟨y, rfl⟩ := herror _ rfl
        refine ⟨_, _, hrun, ?_⟩
        rw [hclean]
        exact .rejected y hlost (.inr (.inl hfails))
      cases hvalid : completeEnvironment lib inputs (some (written env staged)) with
      | error message =>
          rw [hvalid, Fallible.bind_of_error
            (by rw [checked_run, if_neg (by rw [Fallible.single_eq_true]; exact hfails)]; rfl)] at hcheck
          obtain ⟨r', hrun, -, herror⟩ := validateStaged_of_check hstaged hcheck
          obtain ⟨y, rfl⟩ := herror _ rfl
          refine ⟨_, _, hrun, ?_⟩
          rw [hclean]
          refine .rejected y hlost (.inl ?_)
          intro out hout
          rw [hvalid] at hout
          cases hout
      | ok out =>
          rw [hvalid, Fallible.bind_of_ok (checked_of_ok (Fallible.single_eq_false.2 hfails) rfl)] at hcheck
          obtain ⟨r', hrun, hok, -⟩ := validateStaged_of_check hstaged hcheck
          cases hok rfl
          refine ⟨_, _, hrun, ?_⟩
          rw [hclean]
          exact .valid hvalid hlost
  | kept x hlate hclose hsome =>
      obtain ⟨y, hrun⟩ := validateStaged_of_error hstaged hwrite
      have hlost : ¬ Lost env failing .staged :=
        fun h => hclose ⟨inPhase_eq_some.2 h.1, h.2⟩
      refine ⟨_, _, hrun, ?_⟩
      rw [hclean]
      exact .rejected y hlost (.inr (.inr (inPhase_ne_none hsome)))
  | replaced x h =>
      obtain ⟨y, hrun⟩ := validateStaged_of_error hstaged hwrite
      obtain ⟨l, hl, hfailing⟩ := h
      have hlost : ¬ Lost env failing .staged := by
        intro h
        rw [inPhase_eq_some.2 h.1] at hfailing
        cases hfailing
        simp [late] at hl
      refine ⟨_, _, hrun, ?_⟩
      rw [hclean]
      exact .rejected y hlost (.inr (.inr ⟨l, inPhase_eq_some.1 hfailing⟩))
  | lost x file h hreleases =>
      obtain ⟨y, hrun⟩ := validateStaged_of_error hstaged hwrite
      exact ⟨_, _, hrun, .lost y file ⟨inPhase_eq_some.1 h, hreleases⟩⟩

/-! ## The service -/

theorem isActive_run :
    isActive env fails s =
      (match env.isActive s.asked with
        | none => .error (.turnRefresh "gateway service state could not be determined")
        | some active => .ok active, { s with asked := s.asked + 1 }) := by
  rw [isActive, Fallible.bind_of_ok Fallible.get_run,
    Fallible.bind_of_ok (Fallible.modify_run _)]
  cases env.isActive s.asked with
  | none => rfl
  | some active => rfl

/-- The service is active each time it is asked. -/
def staysActive (env : Surroundings) (asked : Nat) : Nat → Bool
  | 0 => true
  | attempts + 1 => env.isActive asked == some true && staysActive env (asked + 1) attempts

/-- The gateway is healthy if it is active each time, and only the count has changed. -/
theorem gatewayIsHealthy_run (attempts : Nat) (s : State) : ∃ asked,
    gatewayIsHealthy env attempts fails s =
      (.ok (staysActive env s.asked attempts), { s with asked := asked }) := by
  induction attempts generalizing s with
  | zero => exact ⟨s.asked, rfl⟩
  | succ attempts ih =>
      rw [gatewayIsHealthy, Fallible.bind_of_ok (Fallible.attempt_run _), isActive_run,
        staysActive]
      match env.isActive s.asked with
      | none => exact ⟨s.asked + 1, rfl⟩
      | some false => exact ⟨s.asked + 1, rfl⟩
      | some true =>
          obtain ⟨asked, hrest⟩ := ih { s with asked := s.asked + 1 }
          exact ⟨asked, hrest⟩

/-- A restart and the checks after it leave the files alone. -/
theorem comesUp_run (s : State) : ∃ asked,
    comesUp env fails s =
      (.ok (env.restart s.restarted && staysActive env s.asked 3),
        { s with asked := asked, restarted := s.restarted + 1 }) := by
  have hrestart : restart env fails s =
      (.ok (env.restart s.restarted), { s with restarted := s.restarted + 1 }) := rfl
  rw [comesUp, Fallible.bind_of_ok hrestart]
  cases env.restart s.restarted with
  | false => exact ⟨s.asked, rfl⟩
  | true =>
      obtain ⟨asked, hhealthy⟩ := gatewayIsHealthy_run 3
        { s with restarted := s.restarted + 1 }
      exact ⟨asked, hhealthy⟩

theorem up_iff : Up env ↔ (env.restart 0 && staysActive env 1 3) = true := by
  simp [Up, staysActive]

/-- What a refresh does when the gateway does not come up with the new values. -/
def rollback (env : Surroundings) (previous : List UInt8) : Refresh Unit := do
  writeRuntime env .restored previous
  if ← comesUp env then
    .raise (.turnRefresh "new TURN configuration failed; previous configuration was restored")
  else
    .raise (.turnRefresh
      "new TURN configuration failed and gateway rollback did not restart")

/-- It raises in any case, and only its write changes the files. -/
theorem rollback_ends (previous : List UInt8) (failing : Option Call)
    (htemporary : s.temporary = none) : ∃ x r s',
      rollback env previous (Fallible.single failing) s = (.error x, s') ∧
      s'.staged = s.staged ∧
      WriteEnds env previous s.runtime (inPhase .restored failing) r s'.runtime s'.temporary := by
  obtain ⟨r, target, temporary, hrun, hends⟩ :=
    writeRuntime_ends .restored previous failing htemporary
  cases r with
  | error x => exact ⟨x, _, _, Fallible.bind_of_error hrun, rfl, hends⟩
  | ok u =>
      rw [rollback, Fallible.bind_of_ok hrun]
      obtain ⟨asked, hup⟩ := comesUp_run
        { s with runtime := target, temporary := temporary }
      rw [Fallible.bind_of_ok hup]
      split
      next => exact ⟨_, _, _, rfl, rfl, hends⟩
      next => exact ⟨_, _, _, rfl, rfl, hends⟩

/-- What a refresh does once the service has answered. -/
def install (env : Surroundings) (previous staged : List UInt8) (wasActive : Bool) :
    Refresh Unit := do
  writeRuntime env .installed staged
  if !wasActive then return ()
  else if ← comesUp env then return ()
  else rollback env previous

theorem refreshTurnCredentials_eq :
    refreshTurnCredentials env lib inputs =
      (do
        let (previous, staged) ← prepare lib inputs
        validateStagedMediaEnvironment env lib inputs staged
        let wasActive ← isActive env
        install env previous staged wasActive) := rfl

/-! ## The refresh -/

theorem Prepared.unique {previous' staged' : List UInt8} {c' : Candidate}
    (h : Prepared lib inputs runtime previous staged c)
    (h' : Prepared lib inputs runtime previous' staged' c') :
    previous = previous' ∧ staged = staged' := by
  have hrun := prepare_of_prepared (s := { runtime }) (fun _ _ => rfl) h
  have hrun' := prepare_of_prepared (s := { runtime }) (fun _ _ => rfl) h'
  rw [hrun] at hrun'
  cases hrun'
  exact ⟨rfl, rfl⟩

/-- Where the bytes are known, the failing step is all that is to be asked for. -/
theorem harmful_iff (h : Prepared lib inputs runtime previous staged c) :
    Harmful env lib inputs runtime failing ↔
      Lost env failing .staged ∨ Installs env lib inputs staged ∧
        (Lost env failing .installed ∨
          ((∃ l ∈ late, failing = some (.write .installed l)) ∧ staged ≠ previous) ∨
          (env.isActive 0 = some true ∧ ¬ Up env ∧ Lost env failing .restored)) := by
  constructor
  · rintro ⟨previous', staged', c', h', hharm⟩
    obtain ⟨rfl, rfl⟩ := h.unique h'
    exact hharm
  · intro hharm
    exact ⟨previous, staged, c, h, hharm⟩

theorem allOrNothing_of_raised {x : RefreshError}
    (hrun : outcome env lib inputs runtime failing = (.error x, s)) (hstaged : s.staged = none)
    (htemporary : s.temporary = none)
    (hold : (∀ l, failing ≠ some (.write .restored l)) →
      s.runtime.map File.body = runtime.map File.body) :
    AllOrNothing env lib inputs runtime failing where
  clean := by
    rw [hrun]
    exact ⟨hstaged, htemporary⟩
  raised := by
    rw [hrun]
    exact fun _ _ => hold
  returned := by
    rw [hrun]
    intro h
    cases h

theorem allOrNothing_of_returned
    (hrun : outcome env lib inputs runtime failing = (.ok (), s)) (hstaged : s.staged = none)
    (htemporary : s.temporary = none) (hselected : Selected lib inputs c)
    (hholds : Holds lib inputs s.runtime c) : AllOrNothing env lib inputs runtime failing where
  clean := by
    rw [hrun]
    exact ⟨hstaged, htemporary⟩
  raised := by
    rw [hrun]
    intro x h
    cases h
  returned := by
    rw [hrun]
    exact fun _ => ⟨c, hselected, hholds⟩

theorem not_allOrNothing_of_left {r : Except RefreshError Unit} {file : File}
    (hrun : outcome env lib inputs runtime failing = (r, s)) (h : s.temporary = some file) :
    ¬ AllOrNothing env lib inputs runtime failing := by
  intro hall
  have hclean := hall.clean.2
  rw [hrun, h] at hclean
  cases hclean

/-- A check that raises has not been harmed. -/
theorem not_harmful_of_prepare {x : RefreshError}
    (h : prepare lib inputs (Fallible.single failing) { runtime } = (.error x, s)) :
    ¬ Harmful env lib inputs runtime failing := by
  rintro ⟨previous, staged, c, hprepared, hharm⟩
  have hwrite : ∃ phase l, failing = some (.write phase l) := by
    obtain hlost | ⟨-, hlost | ⟨⟨l, -, hl⟩, -⟩ | ⟨-, -, hlost⟩⟩ := hharm
    · exact ⟨_, _, hlost.1⟩
    · exact ⟨_, _, hlost.1⟩
    · exact ⟨_, _, hl⟩
    · exact ⟨_, _, hlost.1⟩
  obtain ⟨phase, l, rfl⟩ := hwrite
  have hfails : ∀ k ∈ preparations, Fallible.single (some (.write phase l)) k = false := by
    simp [preparations]
  rw [prepare_of_prepared hfails hprepared] at h
  cases h

/-- Only one write has the failing call. -/
theorem phase_unique {phase phase' : Phase} {l l' : WriteCall}
    (h : failing = some (.write phase l)) (h' : failing = some (.write phase' l')) :
    phase = phase' ∧ l = l' := by
  rw [h] at h'
  cases h'
  exact ⟨rfl, rfl⟩

/-- The new bytes are in place, and the gateway does not come up with them. -/
theorem rollback_iff (hprepared : Prepared lib inputs runtime previous staged c)
    (hinstalls : Installs env lib inputs staged) (hstaged : ¬ Lost env failing .staged)
    (hinstalled : ∀ l ∈ late, failing ≠ some (.write .installed l))
    (hclose : failing ≠ some (.write .installed .close))
    (hactive : env.isActive 0 = some true) (hup : ¬ Up env) (hs : s.staged = none)
    (htemporary : s.temporary = none)
    (hrun : outcome env lib inputs runtime failing =
      rollback env previous (Fallible.single failing) s) :
    AllOrNothing env lib inputs runtime failing ↔ ¬ Harmful env lib inputs runtime failing := by
  have hharm : Harmful env lib inputs runtime failing ↔ Lost env failing .restored := by
    rw [harmful_iff hprepared]
    constructor
    · rintro (hlost | ⟨-, hlost | ⟨⟨l, hl, hfailing⟩, -⟩ | ⟨-, -, hlost⟩⟩)
      · exact absurd hlost hstaged
      · exact absurd hlost.1 hclose
      · exact absurd hfailing (hinstalled l hl)
      · exact hlost
    · intro hlost
      exact .inr ⟨hinstalls, .inr (.inr ⟨hactive, hup, hlost⟩)⟩
  obtain ⟨x, r, s', hroll, hs', hends⟩ := rollback_ends previous failing htemporary
  rw [hroll] at hrun
  rw [hs] at hs'
  rw [hharm]
  generalize htarget : s'.runtime = target at hends
  generalize hleft : s'.temporary = temporary at hends
  cases hends with
  | done hlate hrestored =>
      have hall : AllOrNothing env lib inputs runtime failing := by
        refine allOrNothing_of_raised hrun hs' hleft fun _ => ?_
        rw [htarget, hprepared.body]
        rfl
      exact ⟨fun _ hlost => hrestored (inPhase_eq_some.2 hlost.1), fun _ => hall⟩
  | kept y hlate hlost hsome =>
      obtain ⟨l, hl⟩ := inPhase_ne_none hsome
      have hall : AllOrNothing env lib inputs runtime failing :=
        allOrNothing_of_raised hrun hs' hleft fun hnot => absurd hl (hnot l)
      exact ⟨fun _ h => hlost ⟨inPhase_eq_some.2 h.1, h.2⟩, fun _ => hall⟩
  | replaced y h =>
      obtain ⟨l, hl, hfailing⟩ := h
      have hfailing := inPhase_eq_some.1 hfailing
      have hall : AllOrNothing env lib inputs runtime failing :=
        allOrNothing_of_raised hrun hs' hleft fun hnot => absurd hfailing (hnot l)
      refine ⟨fun _ h => ?_, fun _ => hall⟩
      obtain ⟨-, rfl⟩ := phase_unique h.1 hfailing
      simp [late] at hl
  | lost y file h hreleases =>
      have hlost : Lost env failing .restored := ⟨inPhase_eq_some.1 h, hreleases⟩
      exact ⟨fun hall => absurd hall (not_allOrNothing_of_left hrun hleft),
        fun h => absurd hlost h⟩

/-- The service has answered, and the new bytes are written. -/
theorem install_iff {active : Bool} (hprepared : Prepared lib inputs runtime previous staged c)
    (hinstalls : Installs env lib inputs staged) (hstaged : ¬ Lost env failing .staged)
    (hactive : env.isActive 0 = some active)
    (hrun : outcome env lib inputs runtime failing =
      install env previous staged active (Fallible.single failing) { runtime, asked := 1 }) :
    AllOrNothing env lib inputs runtime failing ↔ ¬ Harmful env lib inputs runtime failing := by
  obtain ⟨out, hvalid⟩ := hinstalls.1
  have hholds := hprepared.holds hvalid
  have hselected : Selected lib inputs c := by
    obtain ⟨bootstrap, -, hselected, -⟩ := hprepared
    exact hselected
  obtain ⟨r, target, temporary, hwrite, hends⟩ := writeRuntime_ends
    (s := { runtime, asked := 1 }) .installed staged failing rfl
  cases hends with
  | done hlate hclose =>
      have hinstalled : ∀ l ∈ late, failing ≠ some (.write .installed l) :=
        fun l hl h => hlate l hl (inPhase_eq_some.2 h)
      have hclose : failing ≠ some (.write .installed .close) :=
        fun h => hclose (inPhase_eq_some.2 h)
      have hnot : (active = true → Up env) → ¬ Harmful env lib inputs runtime failing := by
        intro hup
        rw [harmful_iff hprepared]
        rintro (hlost | ⟨-, hlost | ⟨⟨l, hl, hfailing⟩, -⟩ | ⟨htrue, hdown, -⟩⟩)
        · exact hstaged hlost
        · exact hclose hlost.1
        · exact hinstalled l hl hfailing
        · rw [hactive] at htrue
          exact hdown (hup (Option.some.inj htrue))
      rw [install, Fallible.bind_of_ok hwrite] at hrun
      cases active with
      | false =>
          have hall := allOrNothing_of_returned hrun rfl rfl hselected hholds
          exact ⟨fun _ => hnot nofun, fun _ => hall⟩
      | true =>
          obtain ⟨asked, hcomes⟩ := comesUp_run
            { runtime := some (written env staged), asked := 1 }
          change _ = (comesUp env >>= _) (Fallible.single failing) _ at hrun
          rw [Fallible.bind_of_ok hcomes] at hrun
          by_cases hup : Up env
          · rw [if_pos (up_iff.1 hup)] at hrun
            have hall := allOrNothing_of_returned hrun rfl rfl hselected hholds
            exact ⟨fun _ => hnot fun _ => hup, fun _ => hall⟩
          · rw [if_neg (mt up_iff.2 hup)] at hrun
            exact rollback_iff hprepared hinstalls hstaged hinstalled hclose hactive hup rfl rfl
              hrun
  | kept x hlate hclose hsome =>
      rw [install, Fallible.bind_of_error hwrite] at hrun
      obtain ⟨l, hl⟩ := inPhase_ne_none hsome
      have hall := allOrNothing_of_raised hrun rfl rfl fun _ => rfl
      refine ⟨fun _ => ?_, fun _ => hall⟩
      rw [harmful_iff hprepared]
      rintro (hlost | ⟨-, hlost | ⟨⟨k, hk, hfailing⟩, -⟩ | ⟨-, -, hlost⟩⟩)
      · exact hstaged hlost
      · exact hclose ⟨inPhase_eq_some.2 hlost.1, hlost.2⟩
      · exact hlate k hk (inPhase_eq_some.2 hfailing)
      · cases (phase_unique hl hlost.1).1
  | replaced x h =>
      rw [install, Fallible.bind_of_error hwrite] at hrun
      obtain ⟨l, hl, hfailing⟩ := h
      have hfailing := inPhase_eq_some.1 hfailing
      have hrestored : ∀ k, failing ≠ some (.write .restored k) := by
        intro k hk
        cases (phase_unique hfailing hk).1
      rw [harmful_iff hprepared]
      by_cases hsame : staged = previous
      · have hall : AllOrNothing env lib inputs runtime failing := by
          refine allOrNothing_of_raised hrun rfl rfl fun _ => ?_
          rw [hprepared.body, ← hsame]
          rfl
        refine ⟨fun _ => ?_, fun _ => hall⟩
        rintro (hlost | ⟨-, hlost | ⟨-, hne⟩ | ⟨-, -, hlost⟩⟩)
        · exact hstaged hlost
        · obtain ⟨-, rfl⟩ := phase_unique hfailing hlost.1
          simp [late] at hl
        · exact hne hsame
        · exact hrestored _ hlost.1
      · refine ⟨fun hall => ?_, fun hnot => ?_⟩
        · have hold := hall.raised x (by rw [hrun]) hrestored
          rw [hrun, hprepared.body] at hold
          exact absurd (Option.some.inj hold) hsame
        · exact absurd (.inr ⟨hinstalls, .inr (.inl ⟨⟨l, hl, hfailing⟩, hsame⟩)⟩) hnot
  | lost x file h hreleases =>
      rw [install, Fallible.bind_of_error hwrite] at hrun
      rw [harmful_iff hprepared]
      refine ⟨fun hall => absurd hall (not_allOrNothing_of_left hrun rfl), fun hnot => ?_⟩
      exact absurd (.inr ⟨hinstalls, .inl ⟨inPhase_eq_some.1 h, hreleases⟩⟩) hnot

/-- A refresh is all or nothing unless the failing step is harmful. -/
theorem allOrNothing_iff (env : Surroundings) (lib : Library) (inputs : Inputs)
    (runtime : Option File) (failing : Option Call) :
    AllOrNothing env lib inputs runtime failing ↔ ¬ Harmful env lib inputs runtime failing := by
  have hrun : outcome env lib inputs runtime failing =
      refreshTurnCredentials env lib inputs (Fallible.single failing) { runtime } := rfl
  rw [refreshTurnCredentials_eq] at hrun
  have hprepare := (@prepare_still lib inputs).run
    (Fallible.single failing) { runtime }
  generalize (prepare lib inputs (Fallible.single failing) { runtime }).1 = prepared at hprepare
  cases prepared with
  | error x =>
      rw [Fallible.bind_of_error hprepare] at hrun
      exact ⟨fun _ => not_harmful_of_prepare hprepare,
        fun _ => allOrNothing_of_raised hrun rfl rfl fun _ => rfl⟩
  | ok bytes =>
      obtain ⟨previous, staged⟩ := bytes
      obtain ⟨c, hprepared⟩ := prepare_ok hprepare
      rw [Fallible.bind_of_ok hprepare] at hrun
      dsimp only at hrun
      obtain ⟨r, s', hvalidate, hends⟩ := validateStaged_ends (s := { runtime }) staged failing rfl rfl
      cases hends with
      | rejected x hlost h =>
          rw [Fallible.bind_of_error hvalidate] at hrun
          refine ⟨fun _ => ?_, fun _ => allOrNothing_of_raised hrun rfl rfl fun _ => rfl⟩
          rw [harmful_iff hprepared]
          rintro (hstaged | ⟨⟨⟨out, hout⟩, -⟩, hharm⟩)
          · exact hlost hstaged
          · have hwrite : ∃ phase l, phase ≠ Phase.staged ∧ failing = some (.write phase l) := by
              obtain hlost | ⟨⟨l, -, hl⟩, -⟩ | ⟨-, -, hlost⟩ := hharm
              · exact ⟨_, _, by decide, hlost.1⟩
              · exact ⟨_, _, by decide, hl⟩
              · exact ⟨_, _, by decide, hlost.1⟩
            obtain ⟨phase, l, hphase, hfailing⟩ := hwrite
            obtain hinvalid | hcall | ⟨k, hk⟩ := h
            · exact hinvalid out hout
            · rw [hfailing] at hcall
              cases hcall
            · exact hphase (phase_unique hfailing hk).1
      | lost x file hlost =>
          rw [Fallible.bind_of_error hvalidate] at hrun
          refine ⟨fun hall => absurd hall (not_allOrNothing_of_left hrun rfl), fun hnot => ?_⟩
          exact absurd ((harmful_iff hprepared).2 (.inl hlost)) hnot
      | @valid out hvalid hlost =>
          rw [Fallible.bind_of_ok hvalidate] at hrun
          have hasked := @isActive_run env { runtime } (Fallible.single failing)
          dsimp only at hasked
          cases hactive : env.isActive 0 with
          | none =>
              rw [hactive] at hasked
              rw [Fallible.bind_of_error hasked] at hrun
              refine ⟨fun _ => ?_, fun _ => allOrNothing_of_raised hrun rfl rfl fun _ => rfl⟩
              rw [harmful_iff hprepared]
              rintro (hstaged | ⟨⟨-, hanswers⟩, -⟩)
              · exact hlost hstaged
              · exact hanswers hactive
          | some active =>
              rw [hactive] at hasked
              rw [Fallible.bind_of_ok hasked] at hrun
              exact install_iff hprepared ⟨⟨out, hvalid⟩, by simp [hactive]⟩ hlost hactive hrun

/-! ## The clean-up comes too late -/

namespace Bootstrap

/-- A file of assignments. -/
def file (values : Values) : File where body := Utf8.encode (String.ofList (writtenText values))

/-- The functions of the standard library, on what the files below have in them. -/
def library : Library where
  urlsplit
    | "rtsp://camera/main" => some ⟨"rtsp", some "camera", some none, "/main", ""⟩
    | "rtsp://camera/sub" => some ⟨"rtsp", some "camera", some none, "/sub", ""⟩
    | _ => none
  ipAddress
    | "192.168.1.2" => some ⟨"192.168.1.2", false, false, false, false, false, true⟩
    | _ => none
  int
    | "8189" => some 8189
    | "3478" => some 3478
    | _ => none
  isDecimal := Char.isDigit
  isDecimal_not_space := fun c h => Text.not_isSpace_of_isAlphanum (by simp [Char.isAlphanum, h])

/-- The gateway is not running, and nothing fails but what is said to. -/
def surroundings : Surroundings where
  chunk := fun _ => 8191
  closeReleases := true
  ownerControlled := true
  isActive := fun _ => some false
  restart := fun _ => true

/-- One relay is fetched. -/
def payload : Json :=
  .obj [("iceServers", .arr [.obj [
    ("urls", .arr [.str "turn:relay.example:3478?transport=udp"]),
    ("username", .str "user"), ("credential", .str "password")]])]

/-- What is selected of it. -/
def relay : Candidate := ⟨1, "turn:relay.example:3478?transport=udp", "user", "password"⟩

def turn : Values := [("TURN_KEY_ID", "key"), ("TURN_KEY_API_TOKEN", "token")]

def auth : Values :=
  [("GATE_MEDIA_HMAC_SECRET", "0123456789abcdef0123456789abcdef"),
    ("GATE_MEDIA_VIDEO_CONFIGURED", "false"), ("GATE_MEDIA_VIDEO_VERIFIED", "false"),
    ("GATE_MEDIA_LISTEN_CONFIGURED", "false"), ("GATE_MEDIA_LISTEN_VERIFIED", "false"),
    ("GATE_MEDIA_TALKBACK_CONFIGURED", "false")]

def gateway : Values :=
  [("MTX_PATHS_CAMERA_SOURCE", "rtsp://camera/sub"),
    ("MTX_PATHS_CLEAR_SOURCE", "rtsp://camera/main"),
    ("MTX_WEBRTCLOCALUDPADDRESS", "192.168.1.2:8189"),
    ("MTX_WEBRTCLOCALTCPADDRESS", "192.168.1.2:8189"),
    ("MTX_WEBRTCADDITIONALHOSTS", "192.168.1.2"),
    ("MTX_WEBRTCICESERVERS2_0_CLIENTONLY", "false")]

/-- The new values. -/
def runtimeTurn : Values := runtimeTurnKeyOrder.map fun key => (key, turnValue relay key)

/-- The files beside the empty one. -/
def others : Inputs where
  turn := some (file turn)
  auth := some (file auth)
  gateway := some (file gateway)
  fetchIceServers := fun _ _ => .ok payload

/-- What is read below. -/
def assigned : List Values := [turn, auth, gateway, runtimeTurn]

/-- The assignments can be written, and the files are short enough. -/
theorem assigned_fits : assigned.all (fun values => values.all isWritable &&
    decide (((writtenText values).flatMap String.utf8EncodeChar).length ≤ maxConfigBytes)) =
      true := by
  decide +kernel

theorem writable_of_assigned {values : Values} (h : values ∈ assigned) :
    values.all isWritable = true :=
  (Bool.and_eq_true_iff.1 (List.all_eq_true.1 assigned_fits values h)).1

theorem read_file {values : Values} (h : values ∈ assigned)
    (hnodup : (values.map Prod.fst).Nodup) (hne : values ≠ []) :
    parseTrustedEnvironment (some (file values)) = .ok values :=
  parseBody_fits (.of_check hnodup (writable_of_assigned h)) hne
    (of_decide_eq_true (Bool.and_eq_true_iff.1 (List.all_eq_true.1 assigned_fits values h)).2)

theorem mem_assigned :
    turn ∈ assigned ∧ auth ∈ assigned ∧ gateway ∈ assigned ∧ runtimeTurn ∈ assigned :=
  ⟨.head _, .tail _ (.head _), .tail _ (.tail _ (.head _)), .tail _ (.tail _ (.tail _ (.head _)))⟩

theorem read_turn : parseTrustedEnvironment (some (file turn)) = .ok turn :=
  read_file mem_assigned.1 (by decide) (by decide)

theorem read_auth : parseTrustedEnvironment (some (file auth)) = .ok auth :=
  read_file mem_assigned.2.1 (by decide) (by decide)

theorem read_gateway : parseTrustedEnvironment (some (file gateway)) = .ok gateway :=
  read_file mem_assigned.2.2.1 (by decide) (by decide)

theorem written_initialTurnValues :
    written surroundings (initialTurnValues relay) = file runtimeTurn := by
  have htext : writtenText runtimeTurn =
      runtimeTurnKeyOrder.flatMap fun key => assignment key (turnValue relay key) := by
    rw [writtenText, runtimeTurn, List.flatMap_map]
  rw [file, htext]
  rfl

theorem read_runtimeTurn :
    parseTrustedEnvironment (some (written surroundings (initialTurnValues relay))) =
      .ok runtimeTurn := by
  rw [written_initialTurnValues]
  exact read_file mem_assigned.2.2.2 (by decide) (by decide)

theorem valid_auth : validateAuthEnvironment auth = .ok auth := by rfl

theorem valid_gateway : validateGatewayStaticEnvironment library gateway = .ok gateway := by rfl

theorem valid_runtimeTurn :
    validateRuntimeTurnEnvironment library runtimeTurn = .ok runtimeTurn := by rfl

/-- Together the two files are a valid environment. -/
theorem valid_both : validateGatewayEnvironment library (gateway ++ runtimeTurn) =
    .ok (gateway ++ runtimeTurn) := by
  have heffective : validateEffectiveValues (gateway ++ runtimeTurn) = .ok () := by
    have hcheck : (gateway ++ runtimeTurn).all isWritable = true := by
      rw [List.all_append, writable_of_assigned mem_assigned.2.2.1,
        writable_of_assigned mem_assigned.2.2.2]
      rfl
    exact (Writable.of_check (by decide) hcheck).effective
  have hkeys : hasKeys (gateway ++ runtimeTurn) gatewayKeys = true := rfl
  have hgateway : select (gateway ++ runtimeTurn) gatewayStaticKeyOrder = gateway := rfl
  have hruntimeTurn : select (gateway ++ runtimeTurn) runtimeTurnKeyOrder = runtimeTurn := rfl
  rw [validateGatewayEnvironment, heffective, hkeys, hgateway, hruntimeTurn, valid_gateway,
    valid_runtimeTurn]
  rfl

theorem prepared : Prepared library others (some ⟨[], true, true⟩) []
    (initialTurnValues relay) relay := by
  have hturn : turnValues others = .ok turn := by
    rw [turnValues, others, read_turn]
    rfl
  have hselect : selectTurnCredentials library payload = .ok relay := rfl
  have hstatic : bootstrapEnvironment library others = .ok gateway := by
    rw [bootstrapEnvironment, others, read_auth, read_gateway]
    dsimp only [bind, Except.bind]
    rw [valid_auth]
    dsimp only
    rw [valid_gateway]
  exact ⟨true, .empty rfl rfl rfl rfl hstatic, ⟨turn, payload, hturn, rfl, hselect⟩, rfl⟩

theorem installs : Installs surroundings library others (initialTurnValues relay) := by
  have hvalid : completeEnvironment library others
      (some (written surroundings (initialTurnValues relay))) = .ok (gateway ++ runtimeTurn) := by
    rw [completeEnvironment, others, read_auth, read_gateway, read_runtimeTurn]
    dsimp only [bind, Except.bind]
    rw [valid_auth]
    dsimp only
    rw [validateSplitGatewayEnvironment, valid_gateway, valid_runtimeTurn]
    dsimp only [bind, Except.bind]
    rw [valid_both]
  exact ⟨⟨_, hvalid⟩, by simp [surroundings]⟩

theorem initialTurnValues_relay : initialTurnValues relay ≠ [] := by
  intro hnil
  have hread := read_runtimeTurn
  rw [hnil] at hread
  cases hread

/-- The first values are in place, but the directory is not synced, and it is raised. -/
theorem replaced_although_raised :
    ¬ AllOrNothing surroundings library others (some ⟨[], true, true⟩)
      (some (.write .installed .fsyncDirectory)) := by
  rw [allOrNothing_iff, not_not]
  have hlate : ∃ l ∈ late, some (Call.write .installed .fsyncDirectory) =
      some (.write .installed l) := ⟨.fsyncDirectory, by simp [late], rfl⟩
  exact ⟨[], initialTurnValues relay, relay, prepared,
    .inr ⟨installs, .inr (.inl ⟨hlate, initialTurnValues_relay⟩)⟩⟩

end Bootstrap

end TurnRefresh

end GateController

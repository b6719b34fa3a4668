import GateController.Effects.System
import GateController.Data.StableSort
import Mathlib.Data.Rat.Defs
import Mathlib.Algebra.Order.Ring.Unbundled.Rat

/-!
# The release updater

`gate_controller_updater.py`: the record of a pending activation, the `current`
link, the release directories and the legacy command service, and the functions
that move them.  `run_once` is a program over single durable steps.  A step
takes effect or raises, a `systemctl` command may fail after part of its effect,
and the process may be lost between any two steps.  The systemd unit runs it
under `flock --nonblock`, so one run at a time is alive.

Health checks wait a second before each question, and messages go to a logger.
Neither changes anything here and both are left out.  Two marks in the programs
write to the log only: one when `_restart_and_confirm` returns, one when a
function raises that had a record.
-/

namespace GateController

open Effects

/-- `SHA_PATTERN.fullmatch`. -/
def shaPattern (text : String) : Bool :=
  text.toList.length = 40 && text.toList.all fun ch => ch.isDigit || ('a' ≤ ch && ch ≤ 'f')

/-- A full commit hash, the name of a release directory. -/
structure Sha where
  text : String
  valid : shaPattern text = true
deriving DecidableEq

/-- `ReleaseEntry`. -/
structure ReleaseEntry where
  sha : Sha
  modifiedAt : ℚ
deriving DecidableEq

/-- `LegacyCommandState`. -/
structure LegacyCommandState where
  enabled : Bool
  active : Bool
deriving DecidableEq

/-- The content of `pending-activation.json`, in its two versions. -/
inductive PendingRecord where
  | v1 (candidate previous : Sha)
  | v2 (candidate previous : Sha) (legacy : LegacyCommandState)
deriving DecidableEq

namespace PendingRecord

def candidate : PendingRecord → Sha
  | .v1 candidate _ => candidate
  | .v2 candidate _ _ => candidate

def previous : PendingRecord → Sha
  | .v1 _ previous => previous
  | .v2 _ previous _ => previous

end PendingRecord

/-- `PendingActivation`.  The two flags are `None` together. -/
structure PendingActivation where
  candidateSha : Sha
  previousSha : Sha
  legacyCommand : Option LegacyCommandState

/-- What a record says. -/
def PendingRecord.read : PendingRecord → PendingActivation
  | .v1 candidate previous => ⟨candidate, previous, none⟩
  | .v2 candidate previous legacy => ⟨candidate, previous, some legacy⟩

/-- The parts of `UpdateConfig` that decide what a run does. -/
structure UpdateConfig where
  serviceName : String
  keepReleases : Nat
  healthSeconds : Nat

/-- The exceptions of the updater, with their texts. -/
inductive UpdaterExc where
  | update (message : String)
  | activation (message : String)
  | value (message : String)
  | os (message : String)
deriving DecidableEq

/-- `str(error)`. -/
def UpdaterExc.message : UpdaterExc → String
  | .update m => m
  | .activation m => m
  | .value m => m
  | .os m => m

/-- Single steps of a run. -/
inductive UpdaterEff where
  /-- The end of `flock`. -/
  | unlock
  | readRecord
  | writeRecord (record : PendingRecord)
  | unlinkRecord
  | managedReleasePath (sha : Sha)
  | discoverCurrentSha
  | resolveCurrent
  | symlinkCurrent (sha : Sha)
  | legacyIsEnabled
  | legacyIsActive
  | disableLegacy
  | enableLegacy
  | restartLegacy
  | shipsLegacyUnit (sha : Sha)
  | restartService
  | serviceIsActive
  | readMainSha
  | hasSuccessfulCiRun (sha : Sha)
  | stageRelease (sha : Sha)
  | releaseEntries
  | removeRelease (sha : Sha)
  | confirmed
  | raised (record : PendingRecord)
  | pruned (previous candidate : Sha)

@[reducible] def UpdaterEff.Ans : UpdaterEff → Type
  | .readRecord => Option PendingRecord
  | .discoverCurrentSha => Option Sha
  | .resolveCurrent => Sha
  | .legacyIsEnabled => Bool
  | .legacyIsActive => Bool
  | .shipsLegacyUnit _ => Bool
  | .serviceIsActive => Bool
  | .readMainSha => Sha
  | .hasSuccessfulCiRun _ => Bool
  | .releaseEntries => List ReleaseEntry
  | _ => Unit

abbrev UpdaterProg (α : Type) := Prog UpdaterEff UpdaterEff.Ans UpdaterExc α

namespace Updater

/-- One step, as a program. -/
def op (e : UpdaterEff) : UpdaterProg e.Ans := Prog.perform e

/-- `except Exception`. -/
def except {α : Type} (body : UpdaterProg α) (handler : UpdaterExc → UpdaterProg α) :
    UpdaterProg α :=
  body.attempt >>= fun
    | .ok a => return a
    | .error x => handler x

/-- The mark of a function that raises with a record in its hands. -/
def observing {α : Type} (record : PendingRecord) (body : UpdaterProg α) : UpdaterProg α :=
  except body fun x => op (.raised record) >>= fun _ => .raise x

/-! ## The legacy command service -/

/-- `_legacy_command_state`. -/
def legacyCommandState : UpdaterProg LegacyCommandState := do
  let enabled ← op .legacyIsEnabled
  let active ← op .legacyIsActive
  return ⟨enabled, active⟩

/-- `_retire_legacy_command_service`, with the state in hand. -/
def retireLegacyCommandService (state : LegacyCommandState) : UpdaterProg Unit :=
  if state.enabled || state.active then op .disableLegacy else return ()

/-- `_restore_legacy_command_service`. -/
def restoreLegacyCommandService (pending : PendingActivation) (previous : Sha) :
    UpdaterProg Unit :=
  match pending.legacyCommand with
  | none => return ()
  | some legacy => do
      let expects ← op (.shipsLegacyUnit previous)
      if expects then
        let _ ← (if legacy.enabled then op .enableLegacy else pure ())
        if legacy.active then op .restartLegacy else pure ()
      else
        return ()

/-! ## The record -/

/-- `_read_pending_activation`. -/
def readPendingActivation : UpdaterProg (Option PendingRecord) := do
  match ← op .readRecord with
  | none => return none
  | some record =>
      if record.candidate = record.previous then
        .raise (.activation "pending activation release SHAs are invalid")
      else
        let _ ← op (.managedReleasePath record.candidate)
        let _ ← op (.managedReleasePath record.previous)
        return some record

/-- `_write_pending_activation`. -/
def writePendingActivation (release previous : Sha) (legacy : LegacyCommandState) :
    UpdaterProg PendingRecord := do
  let record : PendingRecord := .v2 release previous legacy
  let _ ← op (.writeRecord record)
  return record

/-- `_clear_pending_activation`. -/
def clearPendingActivation : UpdaterProg Unit := op .unlinkRecord

/-! ## Activation -/

/-- The health checks of `_restart_and_confirm`. -/
def remainsActive (config : UpdateConfig) : Nat → UpdaterProg Unit
  | 0 => return ()
  | seconds + 1 => do
      let active ← op .serviceIsActive
      if active then
        remainsActive config seconds
      else
        .raise (.update (config.serviceName ++ " did not remain active during health check"))

/-- `_restart_and_confirm`. -/
def restartAndConfirm (config : UpdateConfig) : UpdaterProg Unit := do
  let _ ← op .restartService
  let _ ← remainsActive config config.healthSeconds
  op .confirmed

/-- The two calls that every rollback makes once the previous release is linked. -/
def confirmPrevious (config : UpdateConfig) (record : PendingRecord) : UpdaterProg Unit := do
  let _ ← restartAndConfirm config
  restoreLegacyCommandService record.read record.previous

/-- The handler of a failed candidate in `reconcile_pending_activation`. -/
def rollBackCandidate (config : UpdateConfig) (record : PendingRecord) : UpdaterProg (Option Sha) := do
  let _ ← op (.managedReleasePath record.previous)
  let _ ← except
    (do let _ ← op (.symlinkCurrent record.previous)
        confirmPrevious config record)
    (fun rollbackError => .raise (.activation
      ("pending candidate failed health check; rollback also failed: " ++ rollbackError.message)))
  let _ ← clearPendingActivation
  .raise (.activation "pending candidate failed health check and was rolled back")

/-- The record that a candidate is retried under: a version 1 record is upgraded in place. -/
def upgradeRecord (record : PendingRecord) : UpdaterProg PendingRecord :=
  match record with
  | .v2 candidate previous legacy => return .v2 candidate previous legacy
  | .v1 candidate previous => do
      let _ ← op (.managedReleasePath candidate)
      let _ ← op (.managedReleasePath previous)
      let legacy ← legacyCommandState
      writePendingActivation candidate previous legacy

/-- The candidate of a record, still linked, is tried again. -/
def retryCandidate (config : UpdateConfig) (record : PendingRecord) : UpdaterProg (Option Sha) := do
  -- `pending` is reassigned inside the `try`, and the handler uses the last value
  match ← (upgradeRecord record).attempt with
  | .error _ => rollBackCandidate config record
  | .ok upgraded =>
      let retried ← (do
        let state ← legacyCommandState
        let _ ← retireLegacyCommandService state
        restartAndConfirm config).attempt
      match retried with
      | .error _ => rollBackCandidate config upgraded
      | .ok _ =>
          let _ ← clearPendingActivation
          return some upgraded.candidate

/-- `reconcile_pending_activation`. -/
def reconcilePendingActivation (config : UpdateConfig) : UpdaterProg (Option Sha) := do
  let pending ← readPendingActivation
  match pending with
  | none => op .discoverCurrentSha
  | some record =>
      observing record do
        let currentSha ← op .discoverCurrentSha
        if currentSha = some record.previous then
          let _ ← op (.managedReleasePath record.previous)
          let _ ← confirmPrevious config record
          let _ ← clearPendingActivation
          return some record.previous
        else if currentSha ≠ some record.candidate then
          .raise (.activation "current release does not match pending candidate")
        else
          retryCandidate config record

/-- The link as the rollback of `activate_release` needs it. -/
def relinkPrevious (currentSha : Option Sha) (release previous : Sha) : UpdaterProg Unit :=
  if currentSha = some release then op (.symlinkCurrent previous)
  else if currentSha ≠ some previous then
    .raise (.activation "activation failure left current at an unrelated release")
  else pure ()

/-- The rollback of `activate_release`. -/
def rollBackActivation (config : UpdateConfig) (release previous : Sha) (record : PendingRecord) :
    UpdaterProg Unit := do
  let currentSha ← op .discoverCurrentSha
  let _ ← relinkPrevious currentSha release previous
  let _ ← confirmPrevious config record
  clearPendingActivation

/-- `activate_release` after the record was written. -/
def activateRecorded (config : UpdateConfig) (release previous : Sha)
    (legacy : LegacyCommandState) (record : PendingRecord) : UpdaterProg Unit :=
  except
    (do let _ ← retireLegacyCommandService legacy
        let _ ← op (.symlinkCurrent release)
        let _ ← restartAndConfirm config
        clearPendingActivation)
    (fun _ => do
      let rollback ← (rollBackActivation config release previous record).attempt
      match rollback with
      | .ok _ => .raise (.activation "candidate activation failed")
      | .error rollbackError => .raise (.activation
          ("candidate activation failed; rollback also failed: " ++ rollbackError.message)))

/-- `activate_release`. -/
def activateRelease (config : UpdateConfig) (release previous : Sha) : UpdaterProg Unit := do
  let legacy ← legacyCommandState
  match ← (writePendingActivation release previous legacy).attempt with
  | .error _ =>
      .raise (.activation "candidate activation failed before recording rollback state")
  | .ok record => observing record (activateRecorded config release previous legacy record)

/-! ## Retention -/

/-- `releases_to_prune`.  The sort is stable and newest first. -/
def releasesToPrune (entries : List ReleaseEntry) (currentSha : Sha) (keep : Nat) :
    Except UpdaterExc (List Sha) :=
  if keep < 3 then
    .error (.value "the active release and two rollback releases are required")
  else
    let inactive := Data.sortDescending ReleaseEntry.modifiedAt
      (entries.filter fun entry => entry.sha ≠ currentSha)
    .ok ((inactive.drop (keep - 1)).map ReleaseEntry.sha)

/-- The loop of `prune_releases`. -/
def removeReleases : List Sha → UpdaterProg Unit
  | [] => return ()
  | sha :: rest => do
      let _ ← op (.removeRelease sha)
      removeReleases rest

/-- `prune_releases`. -/
def pruneReleases (config : UpdateConfig) (currentSha : Sha) : UpdaterProg Unit := do
  let entries ← op .releaseEntries
  let shas ← Prog.ofExcept (releasesToPrune entries currentSha config.keepReleases)
  removeReleases shas

/-! ## One run -/

/-- `prune_releases` as `run_once` calls it: the errors named there are only logged. -/
def pruneAfter (config : UpdateConfig) (previous candidate : Sha) : UpdaterProg Unit :=
  except (pruneReleases config candidate >>= fun _ => op (.pruned previous candidate)) fun
    | .value m => .raise (.value m)
    | _ => return ()

/-- The second half of `run_once`. -/
def update (config : UpdateConfig) (currentSha : Sha) : UpdaterProg Nat := do
  let candidateSha ← op .readMainSha
  if candidateSha = currentSha then
    return 0
  else
    let install ← op (.hasSuccessfulCiRun candidateSha)
    if install then
      let _ ← op (.stageRelease candidateSha)
      let previous ← op .resolveCurrent
      let _ ← activateRelease config candidateSha previous
      let _ ← pruneAfter config previous candidateSha
      return 0
    else
      return 0

/-- `run_once`. -/
def runOnce (config : UpdateConfig) : UpdaterProg Nat := do
  match ← (reconcilePendingActivation config).attempt with
  | .error _ => return 1
  | .ok none => return 1
  | .ok (some currentSha) =>
      except (update config currentSha) fun
        | .activation _ => return 1
        | _ => return 0

/-- `run_once` under `flock`. -/
def service (config : UpdateConfig) : UpdaterProg Nat := (runOnce config).finally_ (op .unlock)

end Updater

/-! ## The host -/

/-- What lies on the disk and what systemd knows. -/
structure Host where
  lock : Option CallId
  pending : Option PendingRecord
  current : Sha
  releases : List Sha
  legacy : LegacyCommandState

/-- What the outside decides about one step. -/
structure UpdaterEnv where
  /-- The step raises, and with what. -/
  fails : Option UpdaterExc := none
  /-- A step that raised took effect nevertheless: a staged or a removed directory. -/
  landed : Bool := false
  /-- What a failed `systemctl` command leaves of the flags. -/
  left : LegacyCommandState := ⟨false, false⟩
  /-- The answer of a health check. -/
  active : Bool := true
  /-- The head of the branch, and whether its own run of the workflow succeeded. -/
  main : Option Sha := none
  ci : Bool := true
  /-- The listing of the release directories, with their times. -/
  entries : List ReleaseEntry := []

namespace Host

/-- A staged directory takes its final name. -/
def stage (s : Host) (sha : Sha) : Host :=
  { s with releases := if sha ∈ s.releases then s.releases else s.releases ++ [sha] }

theorem mem_stage {s : Host} {sha other : Sha} :
    other ∈ (s.stage sha).releases ↔ other = sha ∨ other ∈ s.releases := by
  by_cases h : sha ∈ s.releases
  · simp only [stage, if_pos h]
    exact ⟨.inr, fun ho => ho.elim (fun he => he ▸ h) id⟩
  · simp [stage, if_neg h, or_comm]

theorem nodup_stage {s : Host} (sha : Sha) (h : s.releases.Nodup) :
    (s.stage sha).releases.Nodup := by
  unfold stage
  dsimp only
  split
  · exact h
  · next hnew =>
    refine List.nodup_append.2 ⟨h, by simp, fun a ha b hb hab => hnew ?_⟩
    rw [← List.mem_singleton.1 hb, ← hab]
    exact ha

/-- A directory is removed. -/
def remove (s : Host) (sha : Sha) : Host :=
  { s with releases := s.releases.filter fun other => other ≠ sha }

end Host

namespace Updater

/-- A step that raises, and otherwise answers and takes effect. -/
def step {α : Type} (env : UpdaterEnv) (answer : α) (failed done : Host) :
    Option (Except UpdaterExc α × Host) :=
  match env.fails with
  | some x => some (.error x, failed)
  | none => some (.ok answer, done)

/-- One step of a run.  `ships` says which releases carry the unit of the legacy service. -/
def exec (ships : Sha → Bool) (env : UpdaterEnv) (s : Host) :
    (e : UpdaterEff) → Option (Except UpdaterExc e.Ans × Host)
  | .unlock => some (.ok (), { s with lock := none })
  | .readRecord => step env s.pending s s
  | .writeRecord record => step env () s { s with pending := some record }
  | .unlinkRecord => step env () s { s with pending := none }
  | .managedReleasePath sha =>
      if sha ∈ s.releases then step env () s s
      else some (.error (.activation "pending activation references an unmanaged release"), s)
  | .discoverCurrentSha =>
      if s.current ∈ s.releases then step env (some s.current) s s
      else some (.error (.value "current release symlink is broken"), s)
  | .resolveCurrent =>
      if s.current ∈ s.releases then step env s.current s s
      else some (.error (.os "current release symlink is broken"), s)
  | .symlinkCurrent sha => step env () s { s with current := sha }
  | .legacyIsEnabled => step env s.legacy.enabled s s
  | .legacyIsActive => step env s.legacy.active s s
  | .disableLegacy =>
      step env ()
        { s with legacy := ⟨s.legacy.enabled && env.left.enabled, s.legacy.active && env.left.active⟩ }
        { s with legacy := ⟨false, false⟩ }
  | .enableLegacy =>
      step env () { s with legacy := ⟨s.legacy.enabled || env.left.enabled, s.legacy.active⟩ }
        { s with legacy := ⟨true, s.legacy.active⟩ }
  | .restartLegacy =>
      step env () { s with legacy := ⟨s.legacy.enabled, env.left.active⟩ }
        { s with legacy := ⟨s.legacy.enabled, true⟩ }
  | .shipsLegacyUnit sha => some (.ok (ships sha), s)
  | .restartService => step env () s s
  | .serviceIsActive => step env env.active s s
  | .readMainSha =>
      match env.main with
      | some sha => step env sha s s
      | none => some (.error (.value "branch commit response did not contain a valid SHA"), s)
  | .hasSuccessfulCiRun _ => step env env.ci s s
  | .stageRelease sha => step env () (if env.landed then s.stage sha else s) (s.stage sha)
  | .releaseEntries =>
      if (env.entries.map ReleaseEntry.sha).isPerm s.releases then step env env.entries s s
      else some (.error (.os "release directory changed while it was read"), s)
  | .removeRelease sha => step env () (if env.landed then s.remove sha else s) (s.remove sha)
  | .confirmed => some (.ok (), s)
  | .raised _ => some (.ok (), s)
  | .pruned _ _ => some (.ok (), s)

/-- Runs of the updater.  A run begins only when the lock is free.  Power loss takes the run
that holds it, and the legacy service comes back active or not. -/
def machine (config : UpdateConfig) (ships : Sha → Bool) :
    Machine UpdaterEff UpdaterEff.Ans UpdaterExc UpdaterEnv Host Unit Nat where
  program _ _ := service config
  accept c _ s := if s.lock = none then some { s with lock := some c } else none
  exec _ e env s := exec ships env s e
  crash p env s :=
    if s.lock.all (fun c => c.proc = p) then
      { s with lock := none, legacy := ⟨s.legacy.enabled, env.left.active⟩ }
    else s

end Updater

abbrev UpdaterEvent := Event UpdaterEff UpdaterEff.Ans UpdaterExc Unit Nat

abbrev UpdaterWorld := World UpdaterEff UpdaterEff.Ans UpdaterExc Host Unit Nat

end GateController

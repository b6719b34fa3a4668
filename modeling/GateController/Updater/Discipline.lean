import GateController.Updater.Release

/-!
# What a run of the updater knows

A run holds the lock from its first step to its last, so what it has read and
written stays true until its own next step.  The protocol keeps that knowledge:
the record, the link, directories that are there, flags of the legacy service
that are up, and whether the service was confirmed since the last link.  `allow`
says what a run must know before each step that changes the host.
-/

namespace GateController

open Effects

/-- What a run knows.  `none` stands for what it has not seen. -/
structure UpdaterWatch where
  locked : Bool := true
  record : Option (Option PendingRecord) := none
  current : Option Sha := none
  resolved : Option Sha := none
  /-- Directories that are there. -/
  there : List Sha := []
  confirmed : Bool := false
  /-- Flags of the legacy service that are up for certain. -/
  up : LegacyCommandState := ⟨false, false⟩
  seenEnabled : Option Bool := none
  seenActive : Option Bool := none
  /-- The last listing, and what is left of it. -/
  listing : Option (List ReleaseEntry) := none
  kept : Option (List Sha) := none

namespace UpdaterWatch

/-- The legacy service is touched: what was seen of it is void. -/
def touch (w : UpdaterWatch) (up : LegacyCommandState) : UpdaterWatch :=
  { w with up := up, seenEnabled := none, seenActive := none }

/-- The link is read. -/
def see (w : UpdaterWatch) (sha : Sha) : UpdaterWatch :=
  { w with current := some sha, there := sha :: w.there }

/-- The answer of `discover_current_sha`. -/
def seeCurrent (w : UpdaterWatch) : Option Sha → UpdaterWatch
  | some sha => w.see sha
  | none => w

def next (w : UpdaterWatch) : (e : UpdaterEff) → Except UpdaterExc e.Ans → UpdaterWatch
  | .unlock, _ => { w with locked := false }
  | .readRecord, .ok record => { w with record := some record }
  | .writeRecord record, .ok _ => { w with record := some (some record) }
  | .unlinkRecord, .ok _ => { w with record := some none }
  | .discoverCurrentSha, .ok current => w.seeCurrent current
  | .resolveCurrent, .ok sha => { w.see sha with resolved := some sha }
  | .symlinkCurrent sha, .ok _ => { w with current := some sha, confirmed := false }
  | .legacyIsEnabled, .ok enabled => { w with seenEnabled := some enabled }
  | .legacyIsActive, .ok active => { w with seenActive := some active }
  | .disableLegacy, _ => w.touch ⟨false, false⟩
  | .enableLegacy, .ok _ => w.touch ⟨true, w.up.active⟩
  | .enableLegacy, .error _ => w.touch w.up
  | .restartLegacy, .ok _ => w.touch ⟨w.up.enabled, true⟩
  | .restartLegacy, .error _ => w.touch ⟨w.up.enabled, false⟩
  | .stageRelease sha, .ok _ => { w with there := sha :: w.there, listing := none, kept := none }
  | .stageRelease _, .error _ => { w with listing := none, kept := none }
  | .releaseEntries, .ok entries =>
      { w with listing := some entries, kept := some (entries.map ReleaseEntry.sha) }
  | .removeRelease sha, .ok _ =>
      { w with there := w.there.filter fun other => other ≠ sha,
               kept := w.kept.map (List.filter fun other => other ≠ sha) }
  | .removeRelease sha, .error _ =>
      { w with there := w.there.filter fun other => other ≠ sha, kept := none }
  | .confirmed, _ => { w with confirmed := true }
  | _, _ => w

/-- The record may be written: a first one for a staged candidate, or the upgrade of a
version 1 record, each with the flags as they are. -/
def MayWrite (w : UpdaterWatch) (candidate previous : Sha) (legacy : LegacyCommandState) : Prop :=
  candidate ≠ previous ∧ w.seenEnabled = some legacy.enabled ∧ w.seenActive = some legacy.active ∧
    (w.record = some none ∧ w.current = some previous ∧ candidate ∈ w.there ∨
      w.record = some (some (.v1 candidate previous)))

/-- The flags that a record asks for are up. -/
def Restored (w : UpdaterWatch) (record : PendingRecord) : Prop :=
  ∀ legacy, record.read.legacyCommand = some legacy →
    (legacy.enabled = true → w.up.enabled = true) ∧ (legacy.active = true → w.up.active = true)

/-- The record may go: the service was confirmed on what is linked, and after a rollback the
legacy service is restored. -/
def MayClear (ships : Sha → Bool) (w : UpdaterWatch) : Prop :=
  ∃ record current, w.record = some (some record) ∧ w.current = some current ∧
    w.confirmed = true ∧
    (current = record.previous → ships record.previous = true → w.Restored record)

/-- A listing has been pruned. -/
def Pruned (config : UpdateConfig) (w : UpdaterWatch) (previous candidate : Sha) : Prop :=
  candidate ≠ previous ∧ w.current = some candidate ∧ w.resolved = some previous ∧
    ∃ entries shas, w.listing = some entries ∧ (entries.map ReleaseEntry.sha).Nodup ∧
      previous ∈ entries.map ReleaseEntry.sha ∧ candidate ∈ entries.map ReleaseEntry.sha ∧
      Updater.releasesToPrune entries candidate config.keepReleases = .ok shas ∧
      w.kept = some ((entries.map ReleaseEntry.sha).filter fun sha => sha ∉ shas)

def allow (config : UpdateConfig) (ships : Sha → Bool) (w : UpdaterWatch) (e : UpdaterEff) : Prop :=
  w.locked = true ∧
  match e with
  | .writeRecord record => ∃ candidate previous legacy,
      record = .v2 candidate previous legacy ∧ w.MayWrite candidate previous legacy
  | .unlinkRecord => w.MayClear ships
  | .symlinkCurrent sha => ∃ record, w.record = some (some record) ∧
      (sha = record.candidate ∨ sha = record.previous)
  | .disableLegacy => ∃ candidate previous legacy,
      w.record = some (some (.v2 candidate previous legacy))
  | .enableLegacy => ∃ candidate previous legacy,
      w.record = some (some (.v2 candidate previous legacy))
  | .restartLegacy => ∃ candidate previous legacy,
      w.record = some (some (.v2 candidate previous legacy))
  | .removeRelease sha => w.record = some none ∧ ∃ current, w.current = some current ∧ sha ≠ current
  | .raised record => (∃ other, w.record = some (some other)) ∨
      w.record = some none ∧ w.current = some record.previous ∧ w.confirmed = true
  | .pruned previous candidate => w.Pruned config previous candidate
  | _ => True

def expect (ships : Sha → Bool) (w : UpdaterWatch) :
    (e : UpdaterEff) → Except UpdaterExc e.Ans → Prop
  | .unlock, r => r = .ok ()
  | .discoverCurrentSha, .ok current => current.isSome
  | .resolveCurrent, .ok sha => ∀ current, w.current = some current → sha = current
  | .shipsLegacyUnit sha, r => r = .ok (ships sha)
  | .releaseEntries, .ok entries => (entries.map ReleaseEntry.sha).Nodup ∧
      ∀ sha ∈ w.there, sha ∈ entries.map ReleaseEntry.sha
  | .confirmed, r => r = .ok ()
  | .raised _, r => r = .ok ()
  | .pruned _ _, r => r = .ok ()
  | _, _ => True

end UpdaterWatch

def updaterWatch (config : UpdateConfig) (ships : Sha → Bool) :
    Protocol UpdaterEff UpdaterEff.Ans UpdaterExc Unit UpdaterWatch where
  start _ := {}
  next := UpdaterWatch.next
  allow := UpdaterWatch.allow config ships
  expect := UpdaterWatch.expect ships

/-! ## Rules for the steps -/

namespace Updater

variable {config : UpdateConfig} {ships : Sha → Bool} {w w' : UpdaterWatch} {α β : Type}

/-- What is known of the disk is the same. -/
structure SameDisk (w w' : UpdaterWatch) : Prop where
  locked : w'.locked = w.locked
  record : w'.record = w.record
  current : w'.current = w.current
  resolved : w'.resolved = w.resolved
  there : w'.there = w.there
  confirmed : w'.confirmed = w.confirmed

theorem SameDisk.refl (w : UpdaterWatch) : SameDisk w w := ⟨rfl, rfl, rfl, rfl, rfl, rfl⟩

theorem SameDisk.trans {w₁ w₂ w₃ : UpdaterWatch} (h₁ : SameDisk w₁ w₂) (h₂ : SameDisk w₂ w₃) :
    SameDisk w₁ w₃ where
  locked := h₂.locked.trans h₁.locked
  record := h₂.record.trans h₁.record
  current := h₂.current.trans h₁.current
  resolved := h₂.resolved.trans h₁.resolved
  there := h₂.there.trans h₁.there
  confirmed := h₂.confirmed.trans h₁.confirmed

/-- One step. -/
theorem obeys_op {e : UpdaterEff} {Q : UpdaterWatch → Except UpdaterExc e.Ans → Prop}
    (hallow : w.allow config ships e) (h : ∀ r, w.expect ships e r → Q (w.next e r) r) :
    Obeys (updaterWatch config ships) Q w (op e) :=
  Obeys.perform hallow h

/-- `except Exception` around a body. -/
theorem obeys_except {body : UpdaterProg α} {handler : UpdaterExc → UpdaterProg α}
    {Q R : UpdaterWatch → Except UpdaterExc α → Prop}
    (hbody : Obeys (updaterWatch config ships) R w body)
    (ok : ∀ v a, R v (.ok a) → Q v (.ok a))
    (error : ∀ v x, R v (.error x) → Obeys (updaterWatch config ships) Q v (handler x)) :
    Obeys (updaterWatch config ships) Q w (except body handler) := by
  unfold except
  rw [Obeys.bind_iff, Obeys.attempt_iff]
  refine Obeys.mono hbody fun v r hr => ?_
  cases r with
  | ok a => exact ok v a hr
  | error x => exact error v x hr

/-- The mark of a raise does not move the watch. -/
theorem obeys_observing {record : PendingRecord} {body : UpdaterProg α}
    {Q R : UpdaterWatch → Except UpdaterExc α → Prop}
    (hbody : Obeys (updaterWatch config ships) R w body)
    (ok : ∀ v a, R v (.ok a) → Q v (.ok a))
    (error : ∀ v x, R v (.error x) → v.allow config ships (.raised record) ∧ Q v (.error x)) :
    Obeys (updaterWatch config ships) Q w (observing record body) := by
  refine obeys_except hbody ok fun v x hx => ?_
  rw [Obeys.bind_iff]
  refine obeys_op (error v x hx).1 fun r hr => ?_
  cases (show r = .ok () from hr)
  exact (error v x hx).2

/-! ## The legacy command service -/

theorem obeys_legacyCommandState (hlocked : w.locked = true) :
    Obeys (updaterWatch config ships) (fun v r => SameDisk w v ∧ ∀ legacy, r = .ok legacy →
      v.seenEnabled = some legacy.enabled ∧ v.seenActive = some legacy.active) w
      legacyCommandState := by
  unfold legacyCommandState
  rw [Obeys.bind_iff]
  refine obeys_op ⟨hlocked, trivial⟩ fun r _ => ?_
  cases r with
  | error x => exact ⟨.refl w, nofun⟩
  | ok enabled =>
      dsimp only
      rw [Obeys.bind_iff]
      refine obeys_op ⟨hlocked, trivial⟩ fun r _ => ?_
      cases r with
      | error x => exact ⟨⟨rfl, rfl, rfl, rfl, rfl, rfl⟩, nofun⟩
      | ok active =>
          refine ⟨⟨rfl, rfl, rfl, rfl, rfl, rfl⟩, fun legacy h => ?_⟩
          cases h
          exact ⟨rfl, rfl⟩

theorem obeys_retire {candidate previous : Sha} {legacy : LegacyCommandState}
    (state : LegacyCommandState) (hlocked : w.locked = true)
    (hrecord : w.record = some (some (.v2 candidate previous legacy))) :
    Obeys (updaterWatch config ships) (fun v _ => SameDisk w v) w
      (retireLegacyCommandService state) := by
  unfold retireLegacyCommandService
  split
  · exact obeys_op ⟨hlocked, candidate, previous, legacy, hrecord⟩ fun r _ =>
      ⟨rfl, rfl, rfl, rfl, rfl, rfl⟩
  · exact .refl w

/-- The middle of `_restore_legacy_command_service`: the unit is enabled if it was. -/
theorem obeys_enable {candidate previous : Sha} {legacy : LegacyCommandState} (wanted : Bool)
    (hlocked : w.locked = true)
    (hrecord : w.record = some (some (.v2 candidate previous legacy))) :
    Obeys (updaterWatch config ships)
      (fun v r => SameDisk w v ∧ (r = .ok () → wanted = true → v.up.enabled = true)) w
      (if wanted then op .enableLegacy else pure ()) := by
  split
  · refine obeys_op ⟨hlocked, candidate, previous, legacy, hrecord⟩ fun r _ => ?_
    cases r with
    | ok u => exact ⟨⟨rfl, rfl, rfl, rfl, rfl, rfl⟩, fun _ _ => rfl⟩
    | error x => exact ⟨⟨rfl, rfl, rfl, rfl, rfl, rfl⟩, nofun⟩
  · next h => exact ⟨.refl w, fun _ hw => absurd hw h⟩

/-- The end of `_restore_legacy_command_service`: the unit is restarted if it was active. -/
theorem obeys_restart {candidate previous : Sha} {legacy : LegacyCommandState} (wanted : Bool)
    (hlocked : w.locked = true)
    (hrecord : w.record = some (some (.v2 candidate previous legacy))) :
    Obeys (updaterWatch config ships)
      (fun v r => SameDisk w v ∧ (r = .ok () → v.up.enabled = w.up.enabled ∧
        (wanted = true → v.up.active = true))) w
      (if wanted then op .restartLegacy else pure ()) := by
  split
  · refine obeys_op ⟨hlocked, candidate, previous, legacy, hrecord⟩ fun r _ => ?_
    cases r with
    | ok u => exact ⟨⟨rfl, rfl, rfl, rfl, rfl, rfl⟩, fun _ => ⟨rfl, fun _ => rfl⟩⟩
    | error x => exact ⟨⟨rfl, rfl, rfl, rfl, rfl, rfl⟩, nofun⟩
  · next h => exact ⟨.refl w, fun _ => ⟨rfl, fun hw => absurd hw h⟩⟩

theorem obeys_restore (record : PendingRecord) (previous : Sha) (hlocked : w.locked = true)
    (hrecord : w.record = some (some record)) :
    Obeys (updaterWatch config ships)
      (fun v r => SameDisk w v ∧ (r = .ok () → ships previous = true → v.Restored record)) w
      (restoreLegacyCommandService record.read previous) := by
  cases record with
  | v1 candidate previous' => exact ⟨.refl w, fun _ _ legacy h => by cases h⟩
  | v2 candidate previous' legacy =>
      unfold restoreLegacyCommandService PendingRecord.read
      dsimp only
      rw [Obeys.bind_iff]
      refine obeys_op ⟨hlocked, trivial⟩ fun r hr => ?_
      cases (show r = .ok (ships previous) from hr)
      dsimp only
      split
      · refine Obeys.bind (obeys_enable legacy.enabled hlocked hrecord) (fun v _ hv => ?_)
          (fun v x hv => ⟨hv.1, nofun⟩)
        obtain ⟨hdisk, henabled⟩ := hv
        refine Obeys.mono (obeys_restart legacy.active (hdisk.locked.trans hlocked)
          (hdisk.record.trans hrecord)) fun u r hu => ⟨hdisk.trans hu.1, fun hr _ => ?_⟩
        intro legacy' hlegacy
        cases hlegacy
        obtain ⟨hsame, hactive⟩ := hu.2 hr
        exact ⟨fun hw => hsame.trans (henabled rfl hw), hactive⟩
      · next h => exact ⟨.refl w, fun _ hships => absurd hships h⟩

/-! ## Activation -/

theorem obeys_remainsActive (seconds : Nat) (hlocked : w.locked = true) :
    Obeys (updaterWatch config ships) (fun v _ => v = w) w (remainsActive config seconds) := by
  induction seconds with
  | zero => rfl
  | succ seconds ih =>
      unfold remainsActive
      rw [Obeys.bind_iff]
      refine obeys_op ⟨hlocked, trivial⟩ fun r _ => ?_
      cases r with
      | error x => rfl
      | ok active =>
          dsimp only
          split
          · exact ih
          · rfl

theorem obeys_restartAndConfirm (hlocked : w.locked = true) :
    Obeys (updaterWatch config ships)
      (fun v r => (r = .ok () ∧ v = { w with confirmed := true }) ∨ (∃ x, r = .error x) ∧ v = w) w
      (restartAndConfirm config) := by
  unfold restartAndConfirm
  rw [Obeys.bind_iff]
  refine obeys_op ⟨hlocked, trivial⟩ fun r _ => ?_
  cases r with
  | error x => exact .inr ⟨⟨x, rfl⟩, rfl⟩
  | ok u =>
      refine Obeys.bind (obeys_remainsActive config.healthSeconds hlocked) (fun v _ hv => ?_)
        (fun v x hv => .inr ⟨⟨x, rfl⟩, hv⟩)
      cases hv
      refine obeys_op ⟨hlocked, trivial⟩ fun r hr => ?_
      cases (show r = .ok () from hr)
      exact .inl ⟨rfl, rfl⟩

theorem obeys_clear (hlocked : w.locked = true) (hclear : w.MayClear ships) :
    Obeys (updaterWatch config ships)
      (fun v r => (r = .ok () ∧ v = { w with record := some none }) ∨ (∃ x, r = .error x) ∧ v = w) w
      clearPendingActivation := by
  refine obeys_op ⟨hlocked, hclear⟩ fun r _ => ?_
  cases r with
  | error x => exact .inr ⟨⟨x, rfl⟩, rfl⟩
  | ok u => exact .inl ⟨rfl, rfl⟩

/-- How a step of the rollback or the end of an activation leaves the watch: the record is
still there, or it is gone and the previous release is linked and confirmed. -/
def Settled (record : PendingRecord) (v : UpdaterWatch) : Prop :=
  v.locked = true ∧ ((∃ other, v.record = some (some other)) ∨
    v.record = some none ∧ v.current = some record.previous ∧ v.confirmed = true)

theorem Settled.allow {record : PendingRecord} {v : UpdaterWatch} (h : Settled record v) :
    v.allow config ships (.raised record) := h

/-- The previous release is confirmed and the legacy service restored. -/
theorem obeys_confirmPrevious (record : PendingRecord) (hlocked : w.locked = true)
    (hrecord : w.record = some (some record)) (hcurrent : w.current = some record.previous) :
    Obeys (updaterWatch config ships)
      (fun v r => v.locked = true ∧ v.record = some (some record) ∧
        v.current = some record.previous ∧ (r = .ok () → v.MayClear ships)) w
      (confirmPrevious config record) := by
  unfold confirmPrevious
  refine Obeys.bind (obeys_restartAndConfirm hlocked) (fun v _ hv => ?_) (fun v x hv => ?_)
  · obtain ⟨-, rfl⟩ | ⟨⟨x, hx⟩, -⟩ := hv
    · refine Obeys.mono (obeys_restore record record.previous hlocked hrecord) fun v r hv => ?_
      obtain ⟨hdisk, hrestored⟩ := hv
      have hrecord' := hdisk.record.trans hrecord
      have hcurrent' := hdisk.current.trans hcurrent
      exact ⟨hdisk.locked.trans hlocked, hrecord', hcurrent', fun hr =>
        ⟨record, record.previous, hrecord', hcurrent', hdisk.confirmed, fun _ => hrestored hr⟩⟩
    · cases hx
  · obtain ⟨hx, -⟩ | ⟨-, rfl⟩ := hv
    · cases hx
    · exact ⟨hlocked, hrecord, hcurrent, nofun⟩

/-- The record goes after a rollback, or stays. -/
theorem obeys_clearPrevious (record : PendingRecord) (hlocked : w.locked = true)
    (hrecord : w.record = some (some record)) (hcurrent : w.current = some record.previous)
    (hclear : w.MayClear ships) :
    Obeys (updaterWatch config ships)
      (fun v r => Settled record v ∧ (r = .ok () → v.record = some none ∧ v.current = w.current)) w
      clearPendingActivation := by
  have hconfirmed : w.confirmed = true := by
    obtain ⟨-, -, -, -, hconfirmed, -⟩ := hclear
    exact hconfirmed
  refine Obeys.mono (obeys_clear hlocked hclear) fun v r hv => ?_
  rcases hv with ⟨-, rfl⟩ | ⟨⟨x, rfl⟩, rfl⟩
  · exact ⟨⟨hlocked, .inr ⟨rfl, hcurrent, hconfirmed⟩⟩, fun _ => ⟨rfl, rfl⟩⟩
  · exact ⟨⟨hlocked, .inl ⟨record, hrecord⟩⟩, nofun⟩

theorem obeys_rollBackCandidate (record : PendingRecord) (hlocked : w.locked = true)
    (hrecord : w.record = some (some record)) :
    Obeys (updaterWatch config ships) (fun v r => Settled record v ∧ ∃ x, r = .error x) w
      (rollBackCandidate config record) := by
  have hstay : Settled record w := ⟨hlocked, .inl ⟨record, hrecord⟩⟩
  unfold rollBackCandidate
  rw [Obeys.bind_iff]
  refine obeys_op ⟨hlocked, trivial⟩ fun r _ => ?_
  cases r with
  | error x => exact ⟨hstay, x, rfl⟩
  | ok u =>
      refine Obeys.bind (R := fun v r => v.locked = true ∧ v.record = some (some record) ∧
        (r = .ok () → v.current = some record.previous ∧ v.MayClear ships))
        (obeys_except (R := fun v r => v.locked = true ∧ v.record = some (some record) ∧
          (r = .ok () → v.current = some record.previous ∧ v.MayClear ships)) ?_
          (fun v a hv => hv) (fun v x hv => ⟨hv.1, hv.2.1, nofun⟩)) (fun v u hv => ?_)
        (fun v x hv => ⟨⟨hv.1, .inl ⟨record, hv.2.1⟩⟩, x, rfl⟩)
      · refine Obeys.bind (R := fun v r => v.locked = true ∧ v.record = some (some record) ∧
          (r = .ok () → v.current = some record.previous))
          (obeys_op ⟨hlocked, record, hrecord, .inr rfl⟩ fun r _ => ?_) (fun v u hv => ?_)
          (fun v x hv => ⟨hv.1, hv.2.1, nofun⟩)
        · cases r with
          | error x => exact ⟨hlocked, hrecord, nofun⟩
          | ok u => exact ⟨hlocked, hrecord, fun _ => rfl⟩
        · refine Obeys.mono (obeys_confirmPrevious record hv.1 hv.2.1 (hv.2.2 rfl)) fun v' r hv' => ?_
          exact ⟨hv'.1, hv'.2.1, fun hr => ⟨hv'.2.2.1, hv'.2.2.2 hr⟩⟩
      · obtain ⟨hlocked', hrecord', hok⟩ := hv
        obtain ⟨hcurrent, hclear⟩ := hok rfl
        refine Obeys.bind (obeys_clearPrevious record hlocked' hrecord' hcurrent hclear)
          (fun v _ hv => ⟨hv.1, _, rfl⟩) (fun v x hv => ⟨hv.1, x, rfl⟩)

theorem obeys_upgradeRecord (record : PendingRecord) (hlocked : w.locked = true)
    (hrecord : w.record = some (some record)) (hne : record.candidate ≠ record.previous) :
    Obeys (updaterWatch config ships)
      (fun v r => v.locked = true ∧ v.current = w.current ∧
        match r with
        | .ok upgraded => v.record = some (some upgraded) ∧
            ∃ legacy, upgraded = .v2 record.candidate record.previous legacy
        | .error _ => v.record = some (some record)) w
      (upgradeRecord record) := by
  cases record with
  | v2 candidate previous legacy => exact ⟨hlocked, rfl, hrecord, legacy, rfl⟩
  | v1 candidate previous =>
      unfold upgradeRecord
      dsimp only
      rw [Obeys.bind_iff]
      refine obeys_op ⟨hlocked, trivial⟩ fun r _ => ?_
      cases r with
      | error x => exact ⟨hlocked, rfl, hrecord⟩
      | ok u =>
          dsimp only
          rw [Obeys.bind_iff]
          refine obeys_op ⟨hlocked, trivial⟩ fun r _ => ?_
          cases r with
          | error x => exact ⟨hlocked, rfl, hrecord⟩
          | ok u =>
              refine Obeys.bind (obeys_legacyCommandState hlocked) (fun v legacy hv => ?_)
                (fun v x hv => ⟨hv.1.locked.trans hlocked, hv.1.current, hv.1.record.trans hrecord⟩)
              obtain ⟨hdisk, hseen⟩ := hv
              obtain ⟨henabled, hactive⟩ := hseen legacy rfl
              unfold writePendingActivation
              dsimp only
              rw [Obeys.bind_iff]
              refine obeys_op ⟨hdisk.locked.trans hlocked, candidate, previous, legacy, rfl, hne,
                henabled, hactive, .inr (hdisk.record.trans hrecord)⟩ fun r _ => ?_
              cases r with
              | error x => exact ⟨hdisk.locked.trans hlocked, hdisk.current,
                  hdisk.record.trans hrecord⟩
              | ok u => exact ⟨hdisk.locked.trans hlocked, hdisk.current, rfl, legacy, rfl⟩

/-- The candidate is retired into service once more. -/
theorem obeys_retry {candidate previous : Sha} {legacy : LegacyCommandState}
    (hlocked : w.locked = true) (hrecord : w.record = some (some (.v2 candidate previous legacy))) :
    Obeys (updaterWatch config ships)
      (fun v r => v.locked = true ∧ v.record = some (some (.v2 candidate previous legacy)) ∧
        v.current = w.current ∧ (r = .ok () → v.confirmed = true)) w
      (do let state ← legacyCommandState
          let _ ← retireLegacyCommandService state
          restartAndConfirm config) := by
  refine Obeys.bind (obeys_legacyCommandState hlocked) (fun v state hv => ?_)
    (fun v x hv => ⟨hv.1.locked.trans hlocked, hv.1.record.trans hrecord, hv.1.current, nofun⟩)
  have hlocked' := hv.1.locked.trans hlocked
  have hrecord' := hv.1.record.trans hrecord
  refine Obeys.bind (obeys_retire state hlocked' hrecord') (fun u _ hu => ?_)
    (fun u x hu => ⟨hu.locked.trans hlocked', hu.record.trans hrecord', hu.current.trans hv.1.current,
      nofun⟩)
  have hcurrent := hu.current.trans hv.1.current
  refine Obeys.mono (obeys_restartAndConfirm (hu.locked.trans hlocked')) fun t r ht => ?_
  rcases ht with ⟨-, rfl⟩ | ⟨⟨x, rfl⟩, rfl⟩
  · exact ⟨hu.locked.trans hlocked', hu.record.trans hrecord', hcurrent, fun _ => rfl⟩
  · exact ⟨hu.locked.trans hlocked', hu.record.trans hrecord', hcurrent, nofun⟩

/-- How reconciling ends: with the release that is current and no record, or it raises. -/
def Reconciled (record : PendingRecord) (v : UpdaterWatch) (r : Except UpdaterExc (Option Sha)) :
    Prop :=
  match r with
  | .ok current => v.locked = true ∧ v.record = some none ∧ v.current = current
  | .error _ => Settled record v

theorem obeys_retryCandidate (record : PendingRecord) (hlocked : w.locked = true)
    (hrecord : w.record = some (some record)) (hne : record.candidate ≠ record.previous)
    (hcurrent : w.current = some record.candidate) :
    Obeys (updaterWatch config ships) (Reconciled record) w (retryCandidate config record) := by
  unfold retryCandidate
  rw [Obeys.bind_iff, Obeys.attempt_iff]
  refine Obeys.mono (obeys_upgradeRecord record hlocked hrecord hne) fun v r hv => ?_
  obtain ⟨hlocked', hcurrent', hv⟩ := hv
  cases r with
  | error x =>
      refine Obeys.mono (obeys_rollBackCandidate record hlocked' hv) ?_
      rintro u _ ⟨hu, x, rfl⟩
      exact hu
  | ok upgraded =>
      obtain ⟨hrecord', legacy, rfl⟩ := hv
      dsimp only
      rw [Obeys.bind_iff, Obeys.attempt_iff]
      refine Obeys.mono (obeys_retry hlocked' hrecord') fun u r hu => ?_
      obtain ⟨hlocked'', hrecord'', hcurrent'', hconfirmed⟩ := hu
      cases r with
      | error x =>
          refine Obeys.mono (obeys_rollBackCandidate _ hlocked'' hrecord'') ?_
          rintro t _ ⟨ht, x, rfl⟩
          exact ht
      | ok a =>
          have hcand : u.current = some record.candidate :=
            hcurrent''.trans (hcurrent'.trans hcurrent)
          have hclear : u.MayClear ships :=
            ⟨_, record.candidate, hrecord'', hcand, hconfirmed rfl, fun hprev =>
              absurd hprev hne⟩
          refine Obeys.bind (obeys_clear hlocked'' hclear) (fun t _ ht => ?_) (fun t x ht => ?_)
          · obtain ⟨-, rfl⟩ | ⟨⟨x, hx⟩, -⟩ := ht
            · exact ⟨hlocked'', rfl, hcand⟩
            · cases hx
          · obtain ⟨hx, -⟩ | ⟨-, rfl⟩ := ht
            · cases hx
            · exact ⟨hlocked'', .inl ⟨_, hrecord''⟩⟩

theorem obeys_readPendingActivation (hlocked : w.locked = true) :
    Obeys (updaterWatch config ships)
      (fun v r => v.locked = true ∧ ∀ pending, r = .ok pending → v.record = some pending ∧
        ∀ record, pending = some record → record.candidate ≠ record.previous) w
      readPendingActivation := by
  unfold readPendingActivation
  rw [Obeys.bind_iff]
  refine obeys_op ⟨hlocked, trivial⟩ fun r _ => ?_
  cases r with
  | error x => exact ⟨hlocked, nofun⟩
  | ok pending =>
      cases pending with
      | none =>
          refine ⟨hlocked, fun pending h => ?_⟩
          cases h
          exact ⟨rfl, nofun⟩
      | some record =>
          dsimp only
          split
          · exact ⟨hlocked, nofun⟩
          · next hne =>
            rw [Obeys.bind_iff]
            refine obeys_op ⟨hlocked, trivial⟩ fun r _ => ?_
            cases r with
            | error x => exact ⟨hlocked, nofun⟩
            | ok u =>
                dsimp only
                rw [Obeys.bind_iff]
                refine obeys_op ⟨hlocked, trivial⟩ fun r _ => ?_
                cases r with
                | error x => exact ⟨hlocked, nofun⟩
                | ok u =>
                    refine ⟨hlocked, fun pending h => ?_⟩
                    cases h
                    refine ⟨rfl, fun other hother => ?_⟩
                    cases hother
                    exact hne

theorem obeys_reconcile (hlocked : w.locked = true) :
    Obeys (updaterWatch config ships)
      (fun v r => v.locked = true ∧ ∀ sha, r = .ok (some sha) →
        v.record = some none ∧ v.current = some sha) w
      (reconcilePendingActivation config) := by
  unfold reconcilePendingActivation
  refine Obeys.bind (obeys_readPendingActivation hlocked) (fun v pending hv => ?_)
    (fun v x hv => ⟨hv.1, nofun⟩)
  obtain ⟨hlocked', hread⟩ := hv
  obtain ⟨hrecord, hne⟩ := hread pending rfl
  cases pending with
  | none =>
      refine obeys_op ⟨hlocked', trivial⟩ fun r hr => ?_
      cases r with
      | error x => exact ⟨hlocked', nofun⟩
      | ok current =>
          obtain ⟨sha, rfl⟩ := Option.isSome_iff_exists.1 (show current.isSome from hr)
          refine ⟨hlocked', fun sha' h => ?_⟩
          cases h
          exact ⟨hrecord, rfl⟩
  | some record =>
      refine obeys_observing (R := Reconciled record) ?_ (fun u current hu => ?_)
        (fun u x hu => ⟨hu.allow, hu.1, nofun⟩)
      · rw [Obeys.bind_iff]
        refine obeys_op ⟨hlocked', trivial⟩ fun r hr => ?_
        cases r with
        | error x => exact ⟨hlocked', .inl ⟨record, hrecord⟩⟩
        | ok current =>
            obtain ⟨sha, rfl⟩ := Option.isSome_iff_exists.1 (show current.isSome from hr)
            dsimp only
            split
            · next hprev =>
              rw [Obeys.bind_iff]
              refine obeys_op ⟨hlocked', trivial⟩ fun r _ => ?_
              cases r with
              | error x => exact ⟨hlocked', .inl ⟨record, hrecord⟩⟩
              | ok u =>
                  refine Obeys.bind (obeys_confirmPrevious record hlocked' hrecord hprev)
                    (fun u _ hu => ?_) (fun u x hu => ⟨hu.1, .inl ⟨record, hu.2.1⟩⟩)
                  obtain ⟨hlocked'', hrecord'', hcurrent, hclear⟩ := hu
                  refine Obeys.bind (obeys_clearPrevious record hlocked'' hrecord'' hcurrent
                    (hclear rfl)) (fun t _ ht => ?_) (fun t x ht => ht.1)
                  obtain ⟨hgone, hsame⟩ := ht.2 rfl
                  exact ⟨ht.1.1, hgone, hsame.trans hcurrent⟩
            · split
              · exact ⟨hlocked', .inl ⟨record, hrecord⟩⟩
              · next hcand =>
                exact obeys_retryCandidate record hlocked' hrecord (hne record rfl)
                  (not_not.1 hcand)
      · exact ⟨hu.1, fun sha h => by cases h; exact hu.2⟩

theorem obeys_rollBackActivation {release previous : Sha} {legacy : LegacyCommandState}
    (hlocked : w.locked = true) (hrecord : w.record = some (some (.v2 release previous legacy))) :
    Obeys (updaterWatch config ships) (fun v _ => Settled (.v2 release previous legacy) v) w
      (rollBackActivation config release previous (.v2 release previous legacy)) := by
  have hstay : ∀ v : UpdaterWatch, v.locked = true →
      v.record = some (some (.v2 release previous legacy)) →
      Settled (.v2 release previous legacy) v := fun v hl hr => ⟨hl, .inl ⟨_, hr⟩⟩
  unfold rollBackActivation
  rw [Obeys.bind_iff]
  refine obeys_op ⟨hlocked, trivial⟩ fun r hr => ?_
  cases r with
  | error x => exact hstay w hlocked hrecord
  | ok current =>
      obtain ⟨sha, rfl⟩ := Option.isSome_iff_exists.1 (show current.isSome from hr)
      refine Obeys.bind (R := fun v r => v.locked = true ∧
        v.record = some (some (.v2 release previous legacy)) ∧
        (r = .ok () → v.current = some previous)) ?_ (fun v _ hv => ?_)
        (fun v x hv => hstay v hv.1 hv.2.1)
      · unfold relinkPrevious
        split
        · refine obeys_op ⟨hlocked, _, hrecord, .inr rfl⟩ fun r _ => ?_
          cases r with
          | error x => exact ⟨hlocked, hrecord, nofun⟩
          | ok u => exact ⟨hlocked, hrecord, fun _ => rfl⟩
        · split
          · exact ⟨hlocked, hrecord, nofun⟩
          · next hprev => exact ⟨hlocked, hrecord, fun _ => not_not.1 hprev⟩
      · obtain ⟨hlocked', hrecord', hcurrent⟩ := hv
        refine Obeys.bind (obeys_confirmPrevious _ hlocked' hrecord' (hcurrent rfl))
          (fun u _ hu => ?_) (fun u x hu => hstay u hu.1 hu.2.1)
        obtain ⟨hlocked'', hrecord'', hcurrent'', hclear⟩ := hu
        exact Obeys.mono (obeys_clearPrevious _ hlocked'' hrecord'' hcurrent'' (hclear rfl))
          fun t r ht => ht.1

/-- A candidate is linked and confirmed, and its record is gone. -/
structure Activated (w : UpdaterWatch) (release : Sha) (v : UpdaterWatch) : Prop where
  locked : v.locked = true
  record : v.record = some none
  current : v.current = some release
  resolved : v.resolved = w.resolved
  there : v.there = w.there

/-- The body of the `try` in `activate_release`, after the record was written. -/
theorem obeys_activation {release previous : Sha} {legacy : LegacyCommandState}
    (hlocked : w.locked = true) (hrecord : w.record = some (some (.v2 release previous legacy)))
    (hne : release ≠ previous) :
    Obeys (updaterWatch config ships)
      (fun v r => match r with
        | .ok _ => Activated w release v
        | .error _ => v.locked = true ∧ v.record = some (some (.v2 release previous legacy))) w
      (do let _ ← retireLegacyCommandService legacy
          let _ ← op (.symlinkCurrent release)
          let _ ← restartAndConfirm config
          clearPendingActivation) := by
  refine Obeys.bind (obeys_retire legacy hlocked hrecord) (fun v _ hv => ?_)
    (fun v x hv => ⟨hv.locked.trans hlocked, hv.record.trans hrecord⟩)
  have hlocked' := hv.locked.trans hlocked
  have hrecord' := hv.record.trans hrecord
  rw [Obeys.bind_iff]
  refine obeys_op ⟨hlocked', _, hrecord', .inl rfl⟩ fun r _ => ?_
  cases r with
  | error x => exact ⟨hlocked', hrecord'⟩
  | ok u =>
      refine Obeys.bind (obeys_restartAndConfirm hlocked') (fun u _ hu => ?_) (fun u x hu => ?_)
      · obtain ⟨-, rfl⟩ | ⟨⟨x, hx⟩, -⟩ := hu
        · refine Obeys.mono (obeys_clear hlocked' ⟨_, release, hrecord', rfl, rfl, fun hprev =>
            absurd hprev hne⟩) fun t r ht => ?_
          rcases ht with ⟨rfl, rfl⟩ | ⟨⟨x, rfl⟩, rfl⟩
          · exact ⟨hlocked', rfl, rfl, hv.resolved, hv.there⟩
          · exact ⟨hlocked', hrecord'⟩
        · cases hx
      · obtain ⟨hx, -⟩ | ⟨-, rfl⟩ := hu
        · cases hx
        · exact ⟨hlocked', hrecord'⟩

theorem obeys_activateRecorded {release previous : Sha} {legacy : LegacyCommandState}
    (hlocked : w.locked = true) (hrecord : w.record = some (some (.v2 release previous legacy)))
    (hne : release ≠ previous) :
    Obeys (updaterWatch config ships)
      (fun v r => match r with
        | .ok _ => Activated w release v
        | .error _ => Settled (.v2 release previous legacy) v) w
      (activateRecorded config release previous legacy (.v2 release previous legacy)) := by
  refine obeys_except (obeys_activation hlocked hrecord hne) (fun v a hv => hv) fun v x hv => ?_
  rw [Obeys.bind_iff, Obeys.attempt_iff]
  refine Obeys.mono (obeys_rollBackActivation hv.1 hv.2) fun u r hu => ?_
  cases r with
  | ok a => exact hu
  | error y => exact hu

theorem obeys_activateRelease {release previous : Sha} (hlocked : w.locked = true)
    (hrecord : w.record = some none) (hcurrent : w.current = some previous)
    (hstaged : release ∈ w.there) (hne : release ≠ previous) :
    Obeys (updaterWatch config ships)
      (fun v r => match r with
        | .ok _ => Activated w release v
        | .error _ => v.locked = true) w
      (activateRelease config release previous) := by
  unfold activateRelease
  refine Obeys.bind (obeys_legacyCommandState hlocked) (fun v legacy hv => ?_)
    (fun v x hv => hv.1.locked.trans hlocked)
  obtain ⟨hdisk, hseen⟩ := hv
  obtain ⟨henabled, hactive⟩ := hseen legacy rfl
  have hlocked' := hdisk.locked.trans hlocked
  rw [Obeys.bind_iff, Obeys.attempt_iff]
  unfold writePendingActivation
  dsimp only
  rw [Obeys.bind_iff]
  refine obeys_op ⟨hlocked', release, previous, legacy, rfl, hne, henabled, hactive,
    .inl ⟨hdisk.record.trans hrecord, hdisk.current.trans hcurrent, hdisk.there ▸ hstaged⟩⟩
    fun r _ => ?_
  cases r with
  | error x => exact hlocked'
  | ok u =>
      refine obeys_observing (obeys_activateRecorded hlocked' rfl hne) (fun u a hu => ?_)
        (fun u x hu => ⟨hu.allow, hu.1⟩)
      exact ⟨hu.locked, hu.record, hu.current, hu.resolved.trans hdisk.resolved,
        hu.there.trans hdisk.there⟩

/-! ## Retention -/

/-- The current release is never among those to prune. -/
theorem ne_current_of_prune {entries : List ReleaseEntry} {current : Sha} {keep : Nat}
    {shas : List Sha} (h : releasesToPrune entries current keep = .ok shas) :
    ∀ sha ∈ shas, sha ≠ current := by
  unfold releasesToPrune at h
  split at h
  · cases h
  · cases h
    intro sha hsha
    obtain ⟨entry, hentry, rfl⟩ := List.mem_map.1 hsha
    have hmem := (Data.sortDescending_perm _ _).mem_iff.1 (List.mem_of_mem_drop hentry)
    simpa using (List.mem_filter.1 hmem).2

theorem obeys_removeReleases {current : Sha} (shas : List Sha) {kept : List Sha}
    (hlocked : w.locked = true) (hrecord : w.record = some none)
    (hcurrent : w.current = some current) (hkept : w.kept = some kept)
    (hne : ∀ sha ∈ shas, sha ≠ current) :
    Obeys (updaterWatch config ships)
      (fun v r => v.locked = true ∧ (r = .ok () → v.current = w.current ∧
        v.resolved = w.resolved ∧ v.listing = w.listing ∧
        v.kept = some (kept.filter fun sha => sha ∉ shas))) w
      (removeReleases shas) := by
  induction shas generalizing w kept with
  | nil =>
      refine ⟨hlocked, fun _ => ⟨rfl, rfl, rfl, ?_⟩⟩
      rw [hkept, Option.some.injEq, List.filter_eq_self.2]
      simp
  | cons sha rest ih =>
      unfold removeReleases
      rw [Obeys.bind_iff]
      refine obeys_op ⟨hlocked, hrecord, current, hcurrent, hne sha List.mem_cons_self⟩
        fun r _ => ?_
      cases r with
      | error x => exact ⟨hlocked, nofun⟩
      | ok u =>
          have hkept' : (w.next (.removeRelease sha) (.ok u)).kept =
              some (kept.filter fun other => other ≠ sha) := by
            simp [UpdaterWatch.next, hkept]
          refine Obeys.mono (ih hlocked hrecord hcurrent hkept' fun other hother =>
            hne other (List.mem_cons_of_mem _ hother)) fun v r hv => ⟨hv.1, fun hr => ?_⟩
          obtain ⟨hc, hres, hlist, hk⟩ := hv.2 hr
          refine ⟨hc, hres, hlist, hk.trans ?_⟩
          rw [List.filter_filter]
          congr 2
          funext other
          by_cases hother : other = sha <;> simp [hother]

theorem obeys_pruneReleases {previous candidate : Sha} (hlocked : w.locked = true)
    (hrecord : w.record = some none) (hcurrent : w.current = some candidate)
    (hresolved : w.resolved = some previous) (hcandidate : candidate ∈ w.there)
    (hprevious : previous ∈ w.there) (hne : candidate ≠ previous) :
    Obeys (updaterWatch config ships)
      (fun v r => v.locked = true ∧ (r = .ok () → v.Pruned config previous candidate)) w
      (pruneReleases config candidate) := by
  unfold pruneReleases
  rw [Obeys.bind_iff]
  refine obeys_op ⟨hlocked, trivial⟩ fun r hr => ?_
  cases r with
  | error x => exact ⟨hlocked, nofun⟩
  | ok entries =>
      obtain ⟨hnodup, hthere⟩ := (show _ ∧ _ from hr)
      dsimp only
      rw [Obeys.bind_iff, Obeys.ofExcept_iff]
      cases hshas : releasesToPrune entries candidate config.keepReleases with
      | error x => exact ⟨hlocked, nofun⟩
      | ok shas =>
          refine Obeys.mono (obeys_removeReleases shas hlocked hrecord hcurrent rfl
            (ne_current_of_prune hshas)) fun v r hv => ⟨hv.1, fun hok => ?_⟩
          obtain ⟨hc, hres, hlist, hk⟩ := hv.2 hok
          exact ⟨hne, hc.trans hcurrent, hres.trans hresolved, entries, shas, hlist, hnodup,
            hthere previous hprevious, hthere candidate hcandidate, hshas, hk⟩

theorem obeys_pruneAfter {previous candidate : Sha} (hlocked : w.locked = true)
    (hrecord : w.record = some none) (hcurrent : w.current = some candidate)
    (hresolved : w.resolved = some previous) (hcandidate : candidate ∈ w.there)
    (hprevious : previous ∈ w.there) (hne : candidate ≠ previous) :
    Obeys (updaterWatch config ships) (fun v _ => v.locked = true) w
      (pruneAfter config previous candidate) := by
  refine obeys_except (R := fun v _ => v.locked = true) ?_ (fun v a hv => hv) (fun v x hv => ?_)
  · refine Obeys.bind (obeys_pruneReleases hlocked hrecord hcurrent hresolved hcandidate hprevious
      hne) (fun v _ hv => ?_) (fun v x hv => hv.1)
    exact obeys_op ⟨hv.1, hv.2 rfl⟩ fun r _ => hv.1
  · cases x with
    | value m => exact hv
    | _ => exact hv

/-! ## One run -/

theorem obeys_update {currentSha : Sha} (hlocked : w.locked = true)
    (hrecord : w.record = some none) (hcurrent : w.current = some currentSha) :
    Obeys (updaterWatch config ships) (fun v _ => v.locked = true) w
      (update config currentSha) := by
  unfold update
  rw [Obeys.bind_iff]
  refine obeys_op ⟨hlocked, trivial⟩ fun r _ => ?_
  cases r with
  | error x => exact hlocked
  | ok candidate =>
      dsimp only
      split
      · exact hlocked
      · next hne =>
        rw [Obeys.bind_iff]
        refine obeys_op ⟨hlocked, trivial⟩ fun r _ => ?_
        cases r with
        | error x => exact hlocked
        | ok install =>
            dsimp only
            split
            · rw [Obeys.bind_iff]
              refine obeys_op ⟨hlocked, trivial⟩ fun r _ => ?_
              cases r with
              | error x => exact hlocked
              | ok u =>
                  dsimp only
                  rw [Obeys.bind_iff]
                  refine obeys_op ⟨hlocked, trivial⟩ fun r hr => ?_
                  cases r with
                  | error x => exact hlocked
                  | ok previous =>
                      cases (show previous = currentSha from hr currentSha hcurrent)
                      refine Obeys.bind (obeys_activateRelease hlocked hrecord rfl
                        (List.mem_cons_of_mem _ List.mem_cons_self) hne) (fun v _ hv => ?_)
                        (fun v x hv => hv)
                      refine Obeys.bind (obeys_pruneAfter hv.locked hv.record hv.current
                        (hv.resolved.trans rfl)
                        (hv.there ▸ List.mem_cons_of_mem _ List.mem_cons_self)
                        (hv.there ▸ List.mem_cons_self) hne) (fun u _ hu => hu) (fun u x hu => hu)
            · exact hlocked

/-- Every path of a run keeps to the protocol and gives the lock back. -/
theorem obeys_service (config : UpdateConfig) (ships : Sha → Bool) :
    Obeys (updaterWatch config ships) (fun v _ => v.locked = false) {} (service config) := by
  have hrun : Obeys (updaterWatch config ships) (fun v _ => v.locked = true) {}
      (runOnce config) := by
    unfold runOnce
    rw [Obeys.bind_iff, Obeys.attempt_iff]
    refine Obeys.mono (obeys_reconcile rfl) fun v r hv => ?_
    obtain ⟨hlocked, hcurrent⟩ := hv
    cases r with
    | error x => exact hlocked
    | ok current =>
        cases current with
        | none => exact hlocked
        | some currentSha =>
            obtain ⟨hrecord, hsha⟩ := hcurrent currentSha rfl
            refine obeys_except (obeys_update hlocked hrecord hsha) (fun v a hv => hv)
              (fun v x hv => ?_)
            cases x with
            | activation m => exact hv
            | _ => exact hv
  unfold service Prog.finally_
  rw [Obeys.bind_iff, Obeys.attempt_iff]
  refine Obeys.mono hrun fun v r hv => ?_
  dsimp only
  rw [Obeys.bind_iff]
  refine obeys_op ⟨hv, trivial⟩ fun u hu => ?_
  cases (show u = .ok () from hu)
  exact Obeys.ofExcept_iff.2 rfl

end Updater

end GateController

import GateController.Updater.Pending
import Mathlib.Data.List.Nodup

/-!
# What pruning keeps

`prune_releases` keeps the current release and the newest inactive ones, by the
time of the directory alone.  A candidate that failed is as inactive as the
release that ran before, and newer.  So the release that was current before an
activation survives the pruning after it exactly if few enough inactive
directories are newer.
-/

namespace GateController

open Effects

namespace Updater

/-- The inactive directories of a listing. -/
def inactive (entries : List ReleaseEntry) (currentSha : Sha) : List ReleaseEntry :=
  entries.filter fun entry => entry.sha ≠ currentSha

/-- How many inactive directories stand before this one: the newer ones, and those of the same
time that are listed before it. -/
def newerInactive (entries : List ReleaseEntry) (currentSha : Sha) (entry : ReleaseEntry) : Nat :=
  Data.descendingRank ReleaseEntry.modifiedAt (inactive entries currentSha) entry

section Prune

variable {entries : List ReleaseEntry} {currentSha : Sha} {keep : Nat} {shas : List Sha}

theorem releasesToPrune_eq (h : releasesToPrune entries currentSha keep = .ok shas) :
    3 ≤ keep ∧ shas = ((Data.sortDescending ReleaseEntry.modifiedAt
      (inactive entries currentSha)).drop (keep - 1)).map ReleaseEntry.sha := by
  unfold releasesToPrune at h
  split at h
  · cases h
  · next hkeep =>
    cases h
    exact ⟨Nat.le_of_not_lt hkeep, rfl⟩

theorem nodup_of_map_sha (hnodup : (entries.map ReleaseEntry.sha).Nodup) :
    (inactive entries currentSha).Nodup :=
  (List.Nodup.of_map _ hnodup).filter _

/-- Entries of one listing are the same if their names are. -/
theorem entry_of_sha (hnodup : (entries.map ReleaseEntry.sha).Nodup) {a b : ReleaseEntry}
    (ha : a ∈ entries) (hb : b ∈ entries) (h : a.sha = b.sha) : a = b :=
  List.inj_on_of_nodup_map hnodup ha hb h

/-- A directory is pruned exactly if enough inactive ones stand before it. -/
theorem mem_releasesToPrune (h : releasesToPrune entries currentSha keep = .ok shas)
    (hnodup : (entries.map ReleaseEntry.sha).Nodup) {entry : ReleaseEntry}
    (hentry : entry ∈ entries) (hne : entry.sha ≠ currentSha) :
    entry.sha ∈ shas ↔ keep - 1 ≤ newerInactive entries currentSha entry := by
  obtain ⟨-, rfl⟩ := releasesToPrune_eq h
  have hmem : entry ∈ inactive entries currentSha :=
    List.mem_filter.2 ⟨hentry, decide_eq_true hne⟩
  rw [newerInactive, ← Data.mem_drop_sortDescending _ (nodup_of_map_sha hnodup) hmem,
    List.mem_map]
  constructor
  · rintro ⟨other, hother, hsha⟩
    have hin := (List.mem_filter.1 ((Data.sortDescending_perm _ _).mem_iff.1
      (List.mem_of_mem_drop hother))).1
    exact entry_of_sha hnodup hin hentry hsha ▸ hother
  · exact fun hdrop => ⟨entry, hdrop, rfl⟩

/-- What is left are the current release and at most `keep - 1` others. -/
theorem length_kept (h : releasesToPrune entries currentSha keep = .ok shas)
    (hnodup : (entries.map ReleaseEntry.sha).Nodup) :
    ((entries.map ReleaseEntry.sha).filter fun sha => sha ∉ shas).length ≤ keep := by
  obtain ⟨hkeep, rfl⟩ := releasesToPrune_eq h
  set sorted := Data.sortDescending ReleaseEntry.modifiedAt (inactive entries currentSha)
  have hsub : ((entries.map ReleaseEntry.sha).filter fun sha =>
      sha ∉ (sorted.drop (keep - 1)).map ReleaseEntry.sha) ⊆
      currentSha :: (sorted.take (keep - 1)).map ReleaseEntry.sha := by
    intro sha hsha
    obtain ⟨hmem, hnot⟩ := List.mem_filter.1 hsha
    obtain ⟨entry, hentry, rfl⟩ := List.mem_map.1 hmem
    by_cases hcurrent : entry.sha = currentSha
    · exact hcurrent ▸ List.mem_cons_self
    · have hin : entry ∈ sorted := (Data.sortDescending_perm _ _).mem_iff.2
        (List.mem_filter.2 ⟨hentry, decide_eq_true hcurrent⟩)
      rw [← List.take_append_drop (keep - 1) sorted] at hin
      rcases List.mem_append.1 hin with htake | hdrop
      · exact List.mem_cons_of_mem _ (List.mem_map_of_mem htake)
      · exact absurd (List.mem_map_of_mem hdrop) (of_decide_eq_true hnot)
  have hlen := (List.subperm_of_subset (hnodup.filter _) hsub).length_le
  refine hlen.trans ?_
  rw [List.length_cons, List.length_map, List.length_take]
  omega

end Prune

end Updater

/-! ## Where the knowledge of a prune comes from -/

section Events

variable {config : UpdateConfig} {ships : Sha → Bool} {log : List UpdaterEvent} {c : CallId}
  {v : UpdaterWatch}

theorem listing_event {entries : List ReleaseEntry}
    (h : Lawful (fun _ => updaterWatch config ships) (fun _ v _ => v.locked = false) log)
    (hghost : ghost (fun _ => updaterWatch config ships) c log = some v)
    (hlisting : v.listing = some entries) : .did c .releaseEntries (.ok entries) ∈ log := by
  obtain ⟨e, r, earlier, v', hmem, -, hbefore, hafter⟩ :=
    h.origin (Φ := fun v => v.listing = some entries) hghost hlisting nofun
  cases e with
  | releaseEntries =>
      cases r with
      | error x => exact absurd hafter hbefore
      | ok entries' =>
          cases (show some entries' = some entries from hafter)
          exact hmem.mem List.mem_cons_self
  | discoverCurrentSha =>
      cases r with
      | error x => exact absurd hafter hbefore
      | ok current => cases current <;> exact absurd hafter hbefore
  | stageRelease sha => cases r <;> cases (show none = some entries from hafter)
  | enableLegacy => cases r <;> exact absurd hafter hbefore
  | restartLegacy => cases r <;> exact absurd hafter hbefore
  | removeRelease sha => cases r <;> exact absurd hafter hbefore
  | _ => first | exact absurd hafter hbefore | (cases r <;> exact absurd hafter hbefore)

theorem resolved_event {previous : Sha}
    (h : Lawful (fun _ => updaterWatch config ships) (fun _ v _ => v.locked = false) log)
    (hghost : ghost (fun _ => updaterWatch config ships) c log = some v)
    (hresolved : v.resolved = some previous) : .did c .resolveCurrent (.ok previous) ∈ log := by
  obtain ⟨e, r, earlier, v', hmem, -, hbefore, hafter⟩ :=
    h.origin (Φ := fun v => v.resolved = some previous) hghost hresolved nofun
  cases e with
  | resolveCurrent =>
      cases r with
      | error x => exact absurd hafter hbefore
      | ok sha =>
          cases (show some sha = some previous from hafter)
          exact hmem.mem List.mem_cons_self
  | discoverCurrentSha =>
      cases r with
      | error x => exact absurd hafter hbefore
      | ok current => cases current <;> exact absurd hafter hbefore
  | _ => first | exact absurd hafter hbefore | (cases r <;> exact absurd hafter hbefore)

end Events

/-- In every run of the updater, after an activation and the pruning that follows it: the release
that was resolved as current before the activation and the new one are still there, and at most
`keep` directories remain, exactly if fewer than `keep - 1` of the inactive directories that
the pruning lists are newer than that release (or as old and listed before it). -/
theorem pruning_keeps_previous (config : UpdateConfig) (ships : Sha → Bool)
    (start : InstalledHost) (choices : List (Choice UpdaterEnv Unit)) (c : CallId)
    (previous candidate : Sha) (r : Except UpdaterExc Unit) (earlier : List UpdaterEvent)
    (hlog : (updaterRun config ships start choices).log =
      .did c (.pruned previous candidate) r :: earlier) :
    let s := (updaterRun config ships start choices).state
    ∃ entries entry, .did c .resolveCurrent (.ok previous) ∈ earlier ∧
      .did c .releaseEntries (.ok entries) ∈ earlier ∧ entry ∈ entries ∧ entry.sha = previous ∧
      s.current = candidate ∧
      (previous ∈ s.releases ∧ candidate ∈ s.releases ∧ s.releases.length ≤ config.keepReleases ↔
        Updater.newerInactive entries candidate entry < config.keepReleases - 1) := by
  intro s
  obtain ⟨hsound, hI⟩ := updater_run config ships start choices
  have hsuffix : .did c (.pruned previous candidate) r :: earlier <:+
      (updaterRun config ships start choices).log := hlog ▸ List.suffix_rfl
  obtain ⟨hlive, v, hghost, hallow, hexpect⟩ := hsound.lawful.did hsuffix
  have hlawful := hsound.lawful.suffix ((List.suffix_cons _ _).trans hsuffix)
  -- the run that has pruned still knows what is true
  have hknows : v.Knows s (updaterRun config ships start choices).log := by
    have hghost' : ghost (fun _ => updaterWatch config ships) c
        (updaterRun config ships start choices).log = some v := by
      rw [hlog, ghost_did_self hghost]
      rfl
    have hlive' : Live c (updaterRun config ships start choices).log := by
      rw [hlog]
      exact hlive
    exact (hI.each c v hlive' hghost' hallow.1).2
  obtain ⟨hne, hcurrent, hresolved, entries, shas, hlisting, hnodup, hprevious, hcandidate, hshas,
    hkept⟩ := hallow.2
  obtain ⟨entry, hentry, hsha⟩ := List.mem_map.1 hprevious
  have hperm := hknows.kept _ hkept
  have hmem : ∀ sha, sha ∈ s.releases ↔ sha ∈ entries.map ReleaseEntry.sha ∧ sha ∉ shas := by
    intro sha
    rw [← hperm.mem_iff, List.mem_filter, decide_eq_true_iff]
  refine ⟨entries, entry, resolved_event hlawful hghost hresolved,
    listing_event hlawful hghost hlisting, hentry, hsha, hknows.current _ hcurrent, ?_⟩
  have hcandidate' : candidate ∈ s.releases :=
    (hmem candidate).2 ⟨hcandidate, fun h => Updater.ne_current_of_prune hshas candidate h rfl⟩
  have hlength : s.releases.length ≤ config.keepReleases := by
    rw [← hperm.length_eq]
    exact Updater.length_kept hshas hnodup
  have hiff := Updater.mem_releasesToPrune hshas hnodup hentry (hsha ▸ Ne.symm hne)
  rw [hsha] at hiff
  rw [← Nat.not_le, ← hiff, hmem previous]
  exact ⟨fun h => h.1.2, fun h => ⟨⟨hprevious, h⟩, hcandidate', hlength⟩⟩

/-! ## Histories -/

def installedSha : Sha := ⟨"0000000000000000000000000000000000000000", by decide⟩

def firstFailedSha : Sha := ⟨"1111111111111111111111111111111111111111", by decide⟩

def secondFailedSha : Sha := ⟨"2222222222222222222222222222222222222222", by decide⟩

def goodSha : Sha := ⟨"3333333333333333333333333333333333333333", by decide⟩

/-- A host after its installation. -/
def freshHost : InstalledHost where
  host := ⟨none, none, installedSha, [installedSha], ⟨false, false⟩⟩
  unlocked := rfl
  linked := List.mem_cons_self
  nodup := by simp
  pending := nofun

def defaultUpdateConfig : UpdateConfig := ⟨"file-monitor.service", 3, 5⟩

/-- A run in which the branch stands at `sha`.  After `steps` steps one fails, if any, and
`rest` steps follow. -/
def runAt (n : Nat) (sha : Sha) (entries : List ReleaseEntry) (steps : Nat)
    (failure : Option UpdaterExc) (rest : Nat) : List (Choice UpdaterEnv Unit) :=
  .begin ⟨n, 0⟩ () :: List.replicate steps (.step ⟨n, 0⟩ { main := some sha, entries }) ++
    (failure.map fun x => Choice.step ⟨n, 0⟩ { fails := some x }).toList ++
    List.replicate rest (.step ⟨n, 0⟩ { main := some sha, entries })

/-- A first update, up to the end of its pruning. -/
def firstUpdate : UpdaterWorld :=
  updaterRun defaultUpdateConfig (fun _ => false) freshHost
    (runAt 0 goodSha [⟨installedSha, 0⟩, ⟨goodSha, 1⟩] 20 none 0)

theorem pruning_keeps_previous_first : ∃ entries entry,
    .did ⟨0, 0⟩ .releaseEntries (.ok entries) ∈ firstUpdate.log.tail ∧ entry ∈ entries ∧
      entry.sha = installedSha ∧
      (installedSha ∈ firstUpdate.state.releases ∧ goodSha ∈ firstUpdate.state.releases ∧
        firstUpdate.state.releases.length ≤ 3 ↔
        Updater.newerInactive entries goodSha entry < 2) := by
  obtain ⟨entries, entry, -, hlisting, hentry, hsha, -, hiff⟩ :=
    pruning_keeps_previous defaultUpdateConfig (fun _ => false) freshHost
      (runAt 0 goodSha [⟨installedSha, 0⟩, ⟨goodSha, 1⟩] 20 none 0) ⟨0, 0⟩ installedSha goodSha
      (.ok ()) firstUpdate.log.tail rfl
  exact ⟨entries, entry, hlisting, hentry, hsha, hiff⟩

/-- Two candidates are staged, fail their health check and are rolled back.  A third one is
activated, and the pruning that follows lists the directories with their times. -/
def updateAfterFailures : UpdaterWorld :=
  updaterRun defaultUpdateConfig (fun _ => false) freshHost
    (runAt 0 firstFailedSha [] 10 (some (.update "command failed")) 17 ++
      runAt 1 secondFailedSha [] 10 (some (.update "command failed")) 17 ++
      runAt 2 goodSha
        [⟨installedSha, 0⟩, ⟨firstFailedSha, 1⟩, ⟨secondFailedSha, 2⟩, ⟨goodSha, 3⟩] 21 none 0)

set_option maxRecDepth 20000 in
/-- The release that ran until this activation is pruned, and the two that failed are kept. -/
theorem pruning_removes_previous :
    (∃ earlier, updateAfterFailures.log =
      .did ⟨2, 0⟩ (.pruned installedSha goodSha) (.ok ()) :: earlier) ∧
    updateAfterFailures.state.current = goodSha ∧
    updateAfterFailures.state.releases = [firstFailedSha, secondFailedSha, goodSha] ∧
    installedSha ∉ updateAfterFailures.state.releases := by
  have hreleases : updateAfterFailures.state.releases =
      [firstFailedSha, secondFailedSha, goodSha] := rfl
  refine ⟨⟨_, rfl⟩, rfl, hreleases, ?_⟩
  rw [hreleases]
  decide

end GateController

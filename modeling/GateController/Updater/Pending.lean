import GateController.Updater.Discipline

/-!
# No unconfirmed release is forgotten

The invariant of the updater over all runs, with power loss between any two
steps.  What a run knows is true of the host, since only the run that holds the
lock changes it.  From what each step must know follows what the host keeps: the
link and the releases it needs, and a record as long as what is linked has not
been confirmed.
-/

namespace GateController

open Effects

/-! ## Reading the log -/

/-- The service was confirmed since the last link was made. -/
def ConfirmedSince : List UpdaterEvent → Prop
  | [] => False
  | .did _ .confirmed _ :: _ => True
  | .did _ (.symlinkCurrent _) (.ok _) :: _ => False
  | _ :: log => ConfirmedSince log

/-- A link was made. -/
def Linked : List UpdaterEvent → Prop
  | [] => False
  | .did _ (.symlinkCurrent _) (.ok _) :: _ => True
  | _ :: log => Linked log

section Log

variable {c : CallId} {e : UpdaterEff} {r : Except UpdaterExc e.Ans} {log : List UpdaterEvent}

theorem ConfirmedSince.cons (h : ConfirmedSince log) (he : ∀ sha, e ≠ .symlinkCurrent sha) :
    ConfirmedSince (.did c e r :: log) := by
  cases e with
  | symlinkCurrent sha => exact absurd rfl (he sha)
  | confirmed => trivial
  | _ => exact h

theorem linked_cons (he : ∀ sha, e ≠ .symlinkCurrent sha) :
    Linked (.did c e r :: log) ↔ Linked log := by
  cases e with
  | symlinkCurrent sha => exact absurd rfl (he sha)
  | _ => exact Iff.rfl

end Log

namespace Updater

/-- A step raises and leaves what it leaves, or it takes effect. -/
theorem step_cases {α : Type} {env : UpdaterEnv} {answer : α} {failed done : Host}
    {r : Except UpdaterExc α} {s' : Host} (h : step env answer failed done = some (r, s')) :
    (∃ x, r = .error x ∧ s' = failed) ∨ r = .ok answer ∧ s' = done := by
  unfold step at h
  split at h
  · next x _ =>
    cases h
    exact .inl ⟨x, rfl, rfl⟩
  · cases h
    exact .inr ⟨rfl, rfl⟩

/-- What a step can do to the host. -/
inductive Change (s : Host) : (e : UpdaterEff) → Except UpdaterExc e.Ans → Host → Prop where
  | same (e : UpdaterEff) (r : Except UpdaterExc e.Ans) (h : ∀ sha, e ≠ .symlinkCurrent sha) :
      Change s e r s
  | unlock : Change s .unlock (.ok ()) { s with lock := none }
  | write (record : PendingRecord) :
      Change s (.writeRecord record) (.ok ()) { s with pending := some record }
  | unlink : Change s .unlinkRecord (.ok ()) { s with pending := none }
  | link (sha : Sha) : Change s (.symlinkCurrent sha) (.ok ()) { s with current := sha }
  | unlinked (sha : Sha) (x : UpdaterExc) : Change s (.symlinkCurrent sha) (.error x) s
  | legacy (e : UpdaterEff) (r : Except UpdaterExc e.Ans) (legacy : LegacyCommandState)
      (h : e = .disableLegacy ∨ e = .enableLegacy ∨ e = .restartLegacy) :
      Change s e r { s with legacy := legacy }
  | stage (sha : Sha) (r : Except UpdaterExc Unit) :
      Change s (.stageRelease sha) r (s.stage sha)
  | remove (sha : Sha) (r : Except UpdaterExc Unit) :
      Change s (.removeRelease sha) r (s.remove sha)

theorem exec_change {ships : Sha → Bool} {env : UpdaterEnv} {s s' : Host} {e : UpdaterEff}
    {r : Except UpdaterExc e.Ans} (h : exec ships env s e = some (r, s')) : Change s e r s' := by
  -- a step that only reads, behind a check or not
  have hread : ∀ {e : UpdaterEff} {r : Except UpdaterExc e.Ans} (answer : e.Ans),
      (∀ sha, e ≠ .symlinkCurrent sha) → step env answer s s = some (r, s') → Change s e r s' := by
    intro e r answer he hstep
    obtain ⟨x, rfl, rfl⟩ | ⟨rfl, rfl⟩ := step_cases hstep
    · exact .same _ _ he
    · exact .same _ _ he
  cases e with
  | unlock =>
      cases h
      exact .unlock
  | readRecord => exact hread _ nofun h
  | writeRecord record =>
      obtain ⟨x, rfl, rfl⟩ | ⟨rfl, rfl⟩ := step_cases h
      · exact .same _ _ nofun
      · exact .write record
  | unlinkRecord =>
      obtain ⟨x, rfl, rfl⟩ | ⟨rfl, rfl⟩ := step_cases h
      · exact .same _ _ nofun
      · exact .unlink
  | managedReleasePath sha =>
      simp only [exec] at h
      split at h
      · exact hread () nofun h
      · cases h
        exact .same _ _ nofun
  | discoverCurrentSha =>
      simp only [exec] at h
      split at h
      · exact hread _ nofun h
      · cases h
        exact .same _ _ nofun
  | resolveCurrent =>
      simp only [exec] at h
      split at h
      · exact hread s.current nofun h
      · cases h
        exact .same _ _ nofun
  | symlinkCurrent sha =>
      obtain ⟨x, rfl, rfl⟩ | ⟨rfl, rfl⟩ := step_cases h
      · exact .unlinked sha x
      · exact .link sha
  | legacyIsEnabled => exact hread s.legacy.enabled nofun h
  | legacyIsActive => exact hread s.legacy.active nofun h
  | disableLegacy =>
      obtain ⟨x, rfl, rfl⟩ | ⟨rfl, rfl⟩ := step_cases h
      · exact .legacy _ _ _ (.inl rfl)
      · exact .legacy _ _ _ (.inl rfl)
  | enableLegacy =>
      obtain ⟨x, rfl, rfl⟩ | ⟨rfl, rfl⟩ := step_cases h
      · exact .legacy _ _ _ (.inr (.inl rfl))
      · exact .legacy _ _ _ (.inr (.inl rfl))
  | restartLegacy =>
      obtain ⟨x, rfl, rfl⟩ | ⟨rfl, rfl⟩ := step_cases h
      · exact .legacy _ _ _ (.inr (.inr rfl))
      · exact .legacy _ _ _ (.inr (.inr rfl))
  | shipsLegacyUnit sha =>
      cases h
      exact .same _ _ nofun
  | restartService => exact hread () nofun h
  | serviceIsActive => exact hread env.active nofun h
  | readMainSha =>
      simp only [exec] at h
      split at h
      · next sha _ => exact hread sha nofun h
      · cases h
        exact .same _ _ nofun
  | hasSuccessfulCiRun sha => exact hread env.ci nofun h
  | stageRelease sha =>
      obtain ⟨x, rfl, rfl⟩ | ⟨rfl, rfl⟩ := step_cases h
      · split
        · exact .stage sha _
        · exact .same _ _ nofun
      · exact .stage sha _
  | releaseEntries =>
      simp only [exec] at h
      split at h
      · exact hread env.entries nofun h
      · cases h
        exact .same _ _ nofun
  | removeRelease sha =>
      obtain ⟨x, rfl, rfl⟩ | ⟨rfl, rfl⟩ := step_cases h
      · split
        · exact .remove sha _
        · exact .same _ _ nofun
      · exact .remove sha _
  | confirmed =>
      cases h
      exact .same _ _ nofun
  | raised record =>
      cases h
      exact .same _ _ nofun
  | pruned previous candidate =>
      cases h
      exact .same _ _ nofun

/-- The lock is kept by every step but its end. -/
theorem Change.lock {s s' : Host} {e : UpdaterEff} {r : Except UpdaterExc e.Ans}
    (h : Change s e r s') (he : e ≠ .unlock) : s'.lock = s.lock := by
  cases h with
  | unlock => exact absurd rfl he
  | _ => rfl

end Updater

/-! ## What a run knows is true -/

/-- The host is as the watch says. -/
structure UpdaterWatch.Knows (w : UpdaterWatch) (s : Host) (log : List UpdaterEvent) : Prop where
  record : ∀ record, w.record = some record → s.pending = record
  current : ∀ sha, w.current = some sha → s.current = sha
  there : ∀ sha ∈ w.there, sha ∈ s.releases
  confirmed : w.confirmed = true → ConfirmedSince log
  enabled : w.up.enabled = true → s.legacy.enabled = true
  active : w.up.active = true → s.legacy.active = true
  seenEnabled : ∀ b, w.seenEnabled = some b → s.legacy.enabled = b
  seenActive : ∀ b, w.seenActive = some b → s.legacy.active = b
  kept : ∀ shas, w.kept = some shas → shas.Perm s.releases

/-- The invariant of the host. -/
structure HostInv (initial : Sha) (s : Host) (log : List UpdaterEvent) : Prop where
  linked : s.current ∈ s.releases
  nodup : s.releases.Nodup
  pending : ∀ record, s.pending = some record → record.candidate ≠ record.previous ∧
    (s.current = record.candidate ∨ s.current = record.previous) ∧
    record.candidate ∈ s.releases ∧ record.previous ∈ s.releases
  settled : s.pending = none → s.current = initial ∧ ¬ Linked log ∨ ConfirmedSince log

section Step

variable {config : UpdateConfig} {ships : Sha → Bool} {w : UpdaterWatch} {s s' : Host}
  {log : List UpdaterEvent} {c : CallId} {env : UpdaterEnv} {initial : Sha} {e : UpdaterEff}
  {r : Except UpdaterExc e.Ans}

theorem UpdaterWatch.Knows.touch (h : w.Knows s log) (up legacy : LegacyCommandState)
    (henabled : up.enabled = true → legacy.enabled = true)
    (hactive : up.active = true → legacy.active = true) :
    (w.touch up).Knows { s with legacy := legacy } log :=
  { h with enabled := henabled, active := hactive, seenEnabled := nofun, seenActive := nofun }

theorem UpdaterWatch.Knows.see (h : w.Knows s log) (hcurrent : s.current ∈ s.releases) :
    (w.see s.current).Knows s log :=
  { h with
    current := fun sha hsha => Option.some.inj hsha
    there := fun sha hsha => by
      rcases List.mem_cons.1 hsha with rfl | hsha
      · exact hcurrent
      · exact h.there sha hsha }

/-- A staged directory is there.  Another may be, too, after a failure. -/
theorem UpdaterWatch.Knows.stage (h : w.Knows s log) (sha : Sha) :
    ({ w with there := sha :: w.there, listing := none, kept := none } : UpdaterWatch).Knows
      (s.stage sha) log :=
  { record := h.record, current := h.current, confirmed := h.confirmed, enabled := h.enabled
    active := h.active, seenEnabled := h.seenEnabled, seenActive := h.seenActive, kept := nofun
    there := fun other hother =>
      Host.mem_stage.2 ((List.mem_cons.1 hother).imp id (h.there other)) }

theorem UpdaterWatch.Knows.remove (h : w.Knows s log) (sha : Sha) (kept : Option (List Sha))
    (hkept : ∀ shas, kept = some shas → shas.Perm (s.remove sha).releases) :
    ({ w with there := w.there.filter fun other => other ≠ sha, kept := kept } : UpdaterWatch).Knows
      (s.remove sha) log :=
  { record := h.record, current := h.current, confirmed := h.confirmed, enabled := h.enabled
    active := h.active, seenEnabled := h.seenEnabled, seenActive := h.seenActive, kept := hkept
    there := fun other hother => by
      obtain ⟨hmem, hne⟩ := List.mem_filter.1 hother
      exact List.mem_filter.2 ⟨h.there other hmem, hne⟩ }

/-- A step of a run teaches it what is true. -/
theorem UpdaterWatch.Knows.own (h : w.Knows s log) (hnodup : s.releases.Nodup)
    (hexec : Updater.exec ships env s e = some (r, s')) :
    w.expect ships e r ∧ (w.next e r).Knows s' (.did c e r :: log) := by
  cases e with
  | unlock =>
      cases hexec
      exact ⟨rfl, { h with }⟩
  | readRecord =>
      obtain ⟨x, rfl, rfl⟩ | ⟨rfl, rfl⟩ := Updater.step_cases hexec
      · exact ⟨trivial, { h with }⟩
      · exact ⟨trivial, { h with record := fun r hr => Option.some.inj hr }⟩
  | writeRecord record =>
      obtain ⟨x, rfl, rfl⟩ | ⟨rfl, rfl⟩ := Updater.step_cases hexec
      · exact ⟨trivial, { h with }⟩
      · exact ⟨trivial, { h with record := fun r hr => Option.some.inj hr }⟩
  | unlinkRecord =>
      obtain ⟨x, rfl, rfl⟩ | ⟨rfl, rfl⟩ := Updater.step_cases hexec
      · exact ⟨trivial, { h with }⟩
      · exact ⟨trivial, { h with record := fun r hr => Option.some.inj hr }⟩
  | managedReleasePath sha =>
      simp only [Updater.exec] at hexec
      split at hexec
      · obtain ⟨x, rfl, rfl⟩ | ⟨rfl, rfl⟩ := Updater.step_cases hexec
        · exact ⟨trivial, { h with }⟩
        · exact ⟨trivial, { h with }⟩
      · cases hexec
        exact ⟨trivial, { h with }⟩
  | discoverCurrentSha =>
      simp only [Updater.exec] at hexec
      split at hexec
      · next hcurrent =>
        obtain ⟨x, rfl, rfl⟩ | ⟨rfl, rfl⟩ := Updater.step_cases hexec
        · exact ⟨trivial, { h with }⟩
        · exact ⟨rfl, { h.see hcurrent with }⟩
      · cases hexec
        exact ⟨trivial, { h with }⟩
  | resolveCurrent =>
      simp only [Updater.exec] at hexec
      split at hexec
      · next hcurrent =>
        obtain ⟨x, rfl, rfl⟩ | ⟨rfl, rfl⟩ := Updater.step_cases hexec
        · exact ⟨trivial, { h with }⟩
        · exact ⟨fun current hw => h.current current hw, { h.see hcurrent with }⟩
      · cases hexec
        exact ⟨trivial, { h with }⟩
  | symlinkCurrent sha =>
      obtain ⟨x, rfl, rfl⟩ | ⟨rfl, rfl⟩ := Updater.step_cases hexec
      · exact ⟨trivial, { h with }⟩
      · exact ⟨trivial, { h with current := fun x hx => Option.some.inj hx, confirmed := nofun }⟩
  | legacyIsEnabled =>
      obtain ⟨x, rfl, rfl⟩ | ⟨rfl, rfl⟩ := Updater.step_cases hexec
      · exact ⟨trivial, { h with }⟩
      · exact ⟨trivial, { h with seenEnabled := fun b hb => Option.some.inj hb }⟩
  | legacyIsActive =>
      obtain ⟨x, rfl, rfl⟩ | ⟨rfl, rfl⟩ := Updater.step_cases hexec
      · exact ⟨trivial, { h with }⟩
      · exact ⟨trivial, { h with seenActive := fun b hb => Option.some.inj hb }⟩
  | disableLegacy =>
      obtain ⟨x, rfl, rfl⟩ | ⟨rfl, rfl⟩ := Updater.step_cases hexec
      · exact ⟨trivial, { h.touch ⟨false, false⟩ ⟨s.legacy.enabled && env.left.enabled, s.legacy.active && env.left.active⟩
          nofun nofun with }⟩
      · exact ⟨trivial, { h.touch ⟨false, false⟩ ⟨false, false⟩ nofun nofun with }⟩
  | enableLegacy =>
      obtain ⟨x, rfl, rfl⟩ | ⟨rfl, rfl⟩ := Updater.step_cases hexec
      · have htouch := h.touch w.up ⟨s.legacy.enabled || env.left.enabled, s.legacy.active⟩
          (fun hup => by simp only [h.enabled hup, Bool.true_or]) h.active
        exact ⟨trivial, { htouch with }⟩
      · exact ⟨trivial, { h.touch ⟨true, w.up.active⟩ ⟨true, s.legacy.active⟩ (fun _ => rfl)
          h.active with }⟩
  | restartLegacy =>
      obtain ⟨x, rfl, rfl⟩ | ⟨rfl, rfl⟩ := Updater.step_cases hexec
      · exact ⟨trivial, { h.touch ⟨w.up.enabled, false⟩ ⟨s.legacy.enabled, env.left.active⟩
          h.enabled nofun with }⟩
      · exact ⟨trivial, { h.touch ⟨w.up.enabled, true⟩ ⟨s.legacy.enabled, true⟩ h.enabled
          (fun _ => rfl) with }⟩
  | shipsLegacyUnit sha =>
      cases hexec
      exact ⟨rfl, { h with }⟩
  | restartService =>
      obtain ⟨x, rfl, rfl⟩ | ⟨rfl, rfl⟩ := Updater.step_cases hexec
      · exact ⟨trivial, { h with }⟩
      · exact ⟨trivial, { h with }⟩
  | serviceIsActive =>
      obtain ⟨x, rfl, rfl⟩ | ⟨rfl, rfl⟩ := Updater.step_cases hexec
      · exact ⟨trivial, { h with }⟩
      · exact ⟨trivial, { h with }⟩
  | readMainSha =>
      simp only [Updater.exec] at hexec
      split at hexec
      · obtain ⟨x, rfl, rfl⟩ | ⟨rfl, rfl⟩ := Updater.step_cases hexec
        · exact ⟨trivial, { h with }⟩
        · exact ⟨trivial, { h with }⟩
      · cases hexec
        exact ⟨trivial, { h with }⟩
  | hasSuccessfulCiRun sha =>
      obtain ⟨x, rfl, rfl⟩ | ⟨rfl, rfl⟩ := Updater.step_cases hexec
      · exact ⟨trivial, { h with }⟩
      · exact ⟨trivial, { h with }⟩
  | stageRelease sha =>
      obtain ⟨x, rfl, rfl⟩ | ⟨rfl, rfl⟩ := Updater.step_cases hexec
      · refine ⟨trivial, ?_⟩
        split
        · exact { h.stage sha with
            there := fun other ho => (h.stage sha).there other (List.mem_cons_of_mem _ ho) }
        · exact { h with kept := nofun }
      · exact ⟨trivial, { h.stage sha with }⟩
  | releaseEntries =>
      simp only [Updater.exec] at hexec
      split at hexec
      · next hperm =>
        have hperm := List.isPerm_iff.1 hperm
        obtain ⟨x, rfl, rfl⟩ | ⟨rfl, rfl⟩ := Updater.step_cases hexec
        · exact ⟨trivial, { h with }⟩
        · refine ⟨⟨hperm.nodup_iff.2 hnodup, fun sha hsha => hperm.mem_iff.2 (h.there sha hsha)⟩, ?_⟩
          exact { h with kept := fun shas hshas => Option.some.inj hshas ▸ hperm }
      · cases hexec
        exact ⟨trivial, { h with }⟩
  | removeRelease sha =>
      obtain ⟨x, rfl, rfl⟩ | ⟨rfl, rfl⟩ := Updater.step_cases hexec
      · refine ⟨trivial, ?_⟩
        split
        · exact { h.remove sha none nofun with }
        · exact { h with
            kept := nofun, there := fun other ho => h.there other (List.mem_filter.1 ho).1 }
      · have hremove := h.remove sha (w.kept.map (List.filter fun other => other ≠ sha))
          fun shas hshas => by
            obtain ⟨kept, hkept, rfl⟩ := Option.map_eq_some_iff.1 hshas
            exact (h.kept kept hkept).filter _
        exact ⟨trivial, { hremove with }⟩
  | confirmed =>
      cases hexec
      exact ⟨rfl, { h with confirmed := fun _ => trivial }⟩
  | raised record =>
      cases hexec
      exact ⟨rfl, { h with }⟩
  | pruned previous candidate =>
      cases hexec
      exact ⟨rfl, { h with }⟩

theorem HostInv.stage (h : HostInv initial s log) (sha : Sha) : HostInv initial (s.stage sha) log :=
  { linked := Host.mem_stage.2 (.inr h.linked)
    nodup := Host.nodup_stage sha h.nodup
    pending := fun record hrecord => by
      obtain ⟨hne, hcurrent, hcandidate, hprevious⟩ := h.pending record hrecord
      exact ⟨hne, hcurrent, Host.mem_stage.2 (.inr hcandidate), Host.mem_stage.2 (.inr hprevious)⟩
    settled := h.settled }

theorem HostInv.remove (h : HostInv initial s log) {sha : Sha} (hpending : s.pending = none)
    (hne : sha ≠ s.current) : HostInv initial (s.remove sha) log :=
  { linked := List.mem_filter.2 ⟨h.linked, decide_eq_true (Ne.symm hne)⟩
    nodup := h.nodup.filter _
    pending := fun record hrecord => by
      rw [show (s.remove sha).pending = none from hpending] at hrecord
      cases hrecord
    settled := h.settled }

/-- A first record, or the upgrade of one. -/
theorem HostInv.write (h : HostInv initial s log) (hw : w.Knows s log) {candidate previous : Sha}
    {legacy : LegacyCommandState} (hwrite : w.MayWrite candidate previous legacy)
    (log' : List UpdaterEvent) :
    HostInv initial { s with pending := some (.v2 candidate previous legacy) } log' := by
  refine ⟨h.linked, h.nodup, fun record hrecord => ?_, nofun⟩
  cases hrecord
  obtain ⟨hne, -, -, ⟨-, hcurrent, hthere⟩ | hold⟩ := hwrite
  · have hprev : s.current = previous := hw.current previous hcurrent
    exact ⟨hne, .inr hprev, hw.there candidate hthere, hprev ▸ h.linked⟩
  · exact h.pending (.v1 candidate previous) (hw.record _ hold)

/-- A link is made to one of the two releases of the record. -/
theorem HostInv.link (h : HostInv initial s log) (hw : w.Knows s log) {sha : Sha}
    (hlink : ∃ record, w.record = some (some record) ∧
      (sha = record.candidate ∨ sha = record.previous)) (log' : List UpdaterEvent) :
    HostInv initial { s with current := sha } log' := by
  obtain ⟨record, hrecord, hsha⟩ := hlink
  have hpending : s.pending = some record := hw.record _ hrecord
  obtain ⟨hne, -, hcandidate, hprevious⟩ := h.pending record hpending
  refine ⟨?_, h.nodup, fun other hother => ?_, fun hnone => ?_⟩
  · exact hsha.elim (fun h => h ▸ hcandidate) (fun h => h ▸ hprevious)
  · cases hpending.symm.trans hother
    exact ⟨hne, hsha, hcandidate, hprevious⟩
  · cases hpending.symm.trans hnone

/-- A step that reads, or changes what the invariant does not speak of. -/
theorem HostInv.quiet (h : HostInv initial s log) (he : ∀ sha, e ≠ .symlinkCurrent sha) :
    HostInv initial s (.did c e r :: log) :=
  { h with
    settled := fun hnone => (h.settled hnone).imp (And.imp_right (mt (linked_cons he).1))
      fun hc => hc.cons he }

/-- A step of a run keeps the invariant of the host. -/
theorem HostInv.did (h : HostInv initial s log) (hw : w.Knows s log)
    (hallow : w.allow config ships e) (hchange : Updater.Change s e r s') :
    HostInv initial s' (.did c e r :: log) := by
  obtain ⟨-, hallow⟩ := hallow
  cases hchange with
  | same e r he => exact h.quiet he
  | unlock => exact { h with }
  | write record =>
      obtain ⟨candidate, previous, legacy, rfl, hwrite⟩ := hallow
      exact h.write hw hwrite _
  | unlink =>
      obtain ⟨-, -, -, -, hconfirmed, -⟩ := hallow
      exact { h with pending := nofun, settled := fun _ => .inr (hw.confirmed hconfirmed) }
  | link sha => exact h.link hw hallow _
  | unlinked sha x => exact { h with }
  | legacy e r legacy he =>
      have hquiet : HostInv initial s (.did c e r :: log) :=
        h.quiet (by rintro sha rfl; simp at he)
      exact { hquiet with }
  | stage sha r => exact { h.stage sha with }
  | remove sha r =>
      obtain ⟨hrecord, current, hcurrent, hne⟩ := hallow
      have hne' : sha ≠ s.current := hw.current current hcurrent ▸ hne
      exact { h.remove (hw.record _ hrecord) hne' with }

end Step

/-! ## Runs -/

/-- A run that holds the lock knows what is true. -/
def UpdaterWatch.Fits (s : Host) (log : List UpdaterEvent) (c : CallId) (w : UpdaterWatch) : Prop :=
  w.locked = true → s.lock = some c ∧ w.Knows s log

/-- A function that raised left a record, or the previous release linked and confirmed. -/
def RaisedSafely (s : Host) : List UpdaterEvent → Prop
  | .did _ (.raised record) _ :: log =>
      s.pending = none → s.current = record.previous ∧ ConfirmedSince log
  | _ => True

structure UpdaterInv (config : UpdateConfig) (ships : Sha → Bool) (initial : Sha) (s : Host)
    (log : List UpdaterEvent) : Prop where
  each : Each (fun _ => updaterWatch config ships) (fun c w => w.Fits s log c) log
  host : HostInv initial s log
  raised : RaisedSafely s log

section Runs

variable {config : UpdateConfig} {ships : Sha → Bool} {initial : Sha}

/-- A run that does not hold the lock knows nothing. -/
theorem UpdaterWatch.Fits.unlocked {s s' : Host} {log log' : List UpdaterEvent} {c d : CallId}
    {w : UpdaterWatch} (h : w.Fits s log d) (hd : d ≠ c) (hlock : s.lock = none ∨ s.lock = some c) :
    w.Fits s' log' d := by
  intro hlocked
  have hholds := (h hlocked).1
  rcases hlock with hlock | hlock
  · cases hlock.symm.trans hholds
  · exact absurd (Option.some.inj (hlock.symm.trans hholds)).symm hd

theorem updater_invariant (config : UpdateConfig) (ships : Sha → Bool) (initial : Sha) :
    Invariant (Updater.machine config ships) (fun _ => updaterWatch config ships)
      (fun _ v _ => v.locked = false) (fun _ _ => True) (UpdaterInv config ships initial) where
  obeys _ _ _ _ _ _ _ := Updater.obeys_service config ships
  began w c call s' _ hI _ _ haccept := by
    simp only [Updater.machine] at haccept
    split at haccept
    · next hlock =>
      cases haccept
      refine ⟨hI.each.began (fun _ => ⟨rfl, ?_⟩) fun d v hd _ hv => hv.unlocked hd (.inl hlock), ?_,
        trivial⟩
      · exact ⟨nofun, nofun, nofun, nofun, nofun, nofun, nofun, nofun, nofun⟩
      · exact { hI.host with }
    · cases haccept
  did w c env e k s r s' _ hI _ _ hlive hghost hallow hexec := by
    obtain ⟨hlock, hknows⟩ := hI.each c s hlive hghost hallow.1
    obtain ⟨hexpect, hknows'⟩ := hknows.own (c := c) hI.host.nodup hexec
    refine ⟨hexpect, hI.each.did hghost (fun hlocked => ⟨?_, hknows'⟩)
      fun d v hd _ hv => hv.unlocked hd (.inr hlock), hI.host.did hknows hallow (Updater.exec_change hexec), ?_⟩
    · rw [(Updater.exec_change hexec).lock (by rintro rfl; cases hlocked)]
      exact hlock
    · cases e with
      | raised record =>
          cases hexec
          intro hnone
          rcases hallow.2 with ⟨other, hother⟩ | ⟨-, hcurrent, hconfirmed⟩
          · cases (hknows.record _ hother).symm.trans hnone
          · exact ⟨hknows.current _ hcurrent, hknows.confirmed hconfirmed⟩
      | _ => trivial
  ended w c s r _ hI _ _ _ :=
    ⟨fun d v hlive hghost hlocked => by
      obtain ⟨hlock, hknows⟩ := hI.each d v hlive.2 hghost hlocked
      exact ⟨hlock, { hknows with }⟩, { hI.host with }, trivial⟩
  crashed w p env _ hI _ := by
    refine ⟨hI.each.crashed fun d v hp _ hv => ?_, ?_, trivial⟩
    · simp only [Updater.machine]
      split
      · next hall =>
        -- the run that held the lock is gone
        refine fun hlocked => absurd ?_ hp
        simpa [(hv hlocked).1] using hall
      · intro hlocked
        obtain ⟨hlock, hknows⟩ := hv hlocked
        exact ⟨hlock, { hknows with }⟩
    · simp only [Updater.machine]
      split
      · exact { hI.host with }
      · exact { hI.host with }

end Runs

/-- A host as `install.sh` or an earlier run leaves it: no run is under way, a managed release
is linked, and a record speaks of two managed releases of which one is linked. -/
structure InstalledHost where
  host : Host
  unlocked : host.lock = none
  linked : host.current ∈ host.releases
  nodup : host.releases.Nodup
  pending : ∀ record, host.pending = some record → record.candidate ≠ record.previous ∧
    (host.current = record.candidate ∨ host.current = record.previous) ∧
    record.candidate ∈ host.releases ∧ record.previous ∈ host.releases

/-- The world after a list of choices. -/
def updaterRun (config : UpdateConfig) (ships : Sha → Bool) (start : InstalledHost)
    (choices : List (Choice UpdaterEnv Unit)) : UpdaterWorld :=
  (Updater.machine config ships).run (World.init start.host) choices

theorem updater_run (config : UpdateConfig) (ships : Sha → Bool) (start : InstalledHost)
    (choices : List (Choice UpdaterEnv Unit)) :
    Sound (fun _ => updaterWatch config ships) (fun _ v _ => v.locked = false)
        (updaterRun config ships start choices) ∧
      UpdaterInv config ships start.host.current (updaterRun config ships start choices).state
        (updaterRun config ships start choices).log :=
  (updater_invariant config ships start.host.current).run (Sound.init _ _ _)
    ⟨fun _ _ h => h.elim, ⟨start.linked, start.nodup, start.pending, fun _ => .inl ⟨rfl, id⟩⟩, trivial⟩
    (Machine.admits_true _ _)

/-- In every state that runs of the updater can reach, with power lost between any two steps:
`current` points to a managed release.  Without a record it is the initial release, never linked
over, or the service was confirmed since the last link.  With a record it is one of the two
releases of the record, and both are there.  And when `activate_release` or
`reconcile_pending_activation` raises with a record in its hands and none is left, the previous
release of that record is linked and was confirmed since. -/
theorem unconfirmed_release_recorded (config : UpdateConfig) (ships : Sha → Bool)
    (start : InstalledHost) (choices : List (Choice UpdaterEnv Unit)) :
    let w := updaterRun config ships start choices
    w.state.current ∈ w.state.releases ∧
    (w.state.pending = none →
      w.state.current = start.host.current ∧ ¬ Linked w.log ∨ ConfirmedSince w.log) ∧
    (∀ record, w.state.pending = some record →
      (w.state.current = record.candidate ∨ w.state.current = record.previous) ∧
      record.candidate ∈ w.state.releases ∧ record.previous ∈ w.state.releases) ∧
    (∀ c record r earlier, w.log = .did c (.raised record) r :: earlier →
      w.state.pending = none → w.state.current = record.previous ∧ ConfirmedSince earlier) := by
  intro w
  obtain ⟨-, hI⟩ := updater_run config ships start choices
  refine ⟨hI.host.linked, hI.host.settled, fun record hrecord => (hI.host.pending record hrecord).2,
    fun c record r earlier hlog hnone => ?_⟩
  have hraised := hI.raised
  rw [show (updaterRun config ships start choices).log = _ from hlog] at hraised
  exact hraised hnone

end GateController

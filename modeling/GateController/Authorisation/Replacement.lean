import GateController.Authorisation.Cache

/-!
# A replacement is whole or it is not made

A failing call before the rename leaves the cache and its file as they were.  After the
rename the file is new, and every call that comes before the plates are taken into memory
leaves the old ones there.
-/

namespace GateController

open Data Effects

namespace AuthorisedPlateCache

variable {env : Surroundings} {s s' : State} {plates : List String} {fails : Call → Bool}

/-! ## What must hold -/

/-- The old file and the old plates are in force. -/
def Kept (s s' : State) : Prop := s'.csv = s.csv ∧ s'.plates = s.plates

/-- The new file and the new plates are in force. -/
def Taken (plates : List String) (s' : State) : Prop :=
  s'.csv = some (csvBytes plates) ∧ s'.plates = some (normalized plates)

/-- What `get` returns is what is in force in memory. -/
theorem plates_of_get {maxStaleness : Option Int} {now : DateTime}
    (h : getPlates maxStaleness now s = .ok plates) : s.plates = some plates := by
  unfold getPlates at h
  split at h
  next => cases h
  next found hfound =>
    split at h
    next =>
      split at h
      next => cases h
      next =>
        cases h
        exact hfound
    next =>
      cases h
      exact hfound

/-- If the replacement raises, what is in force is old on disk and in memory or new on disk
and in memory, and a refresh that reports failure leaves the old in force.  The refresh
has fetched these plates, or what it has fetched is malformed. -/
structure WholeOrNothing (env : Surroundings) (s : State) (plates : List String)
    (failing : Option Call) : Prop where
  replaced : ∀ x s', replace env plates (Fallible.single failing) s = (.error x, s') →
    Kept s s' ∨ Taken plates s'
  refused : ∀ fetched, (∀ rows found, fetched = .ok rows → fetchedPlates rows = some found →
      found = plates) →
    ∀ s', runOnce env fetched (Fallible.single failing) s = (.ok false, s') → Kept s s'

/-- The calls between the rename and the plates. -/
def afterRename : List Call := [.openDirectory, .fsyncDirectory, .closeDirectory, .unlink]

/-! ## The file -/

theorem os_ok {l : Call} {f : State → State} (h : fails l = false) :
    os env l f fails s = (.ok (), f s) := Fallible.call_of_not h

theorem os_id_ok {l : Call} (h : fails l = false) : os env l id fails s = (.ok (), s) := os_ok h

theorem os_fails {l : Call} {f : State → State} (h : fails l = true) :
    os env l f fails s = (.error (env.message l), s) := Fallible.call_of_fails h

/-- All of the text is in the temporary file, or a write or the syncing has failed. -/
theorem writeText_cases (bytes : List UInt8) :
    (writeText env bytes fails s =
        (.ok (), { s with temporary := s.temporary.map (· ++ bytes) }) ∧ fails .fsync = false) ∨
    ∃ x temporary, writeText env bytes fails s = (.error x, { s with temporary }) ∧
      (fails .fsync = true ∨ ∃ i, fails (.write i) = true) := by
  obtain hwrite | ⟨j, written, hj, hwrite⟩ :=
    @Fallible.writeAll_cases _ _ _ _ (env.message (.write 0)) _ (fun part (s : State) =>
        { s with temporary := s.temporary.map (· ++ part) })
      (by intro s; simp) (by intro a b s; simp [Function.comp_def, List.append_assoc])
      fails 0 bytes s
  · rw [writeText, Fallible.bind_of_ok hwrite]
    cases hfsync : fails .fsync with
    | true => exact .inr ⟨_, _, os_fails hfsync, .inl rfl⟩
    | false => exact .inl ⟨os_ok hfsync, rfl⟩
  · rw [writeText, Fallible.bind_of_error hwrite]
    exact .inr ⟨_, _, rfl, .inr ⟨j, hj⟩⟩

/-- The file is written and closed, or one of the calls has failed. -/
theorem writeFile_cases (bytes : List UInt8) :
    (writeFile env bytes fails s =
        (.ok (), { s with temporary := s.temporary.map (· ++ bytes) }) ∧
      fails .fsync = false ∧ fails .close = false) ∨
    ∃ x temporary, writeFile env bytes fails s = (.error x, { s with temporary }) ∧
      (fails .fsync = true ∨ fails .close = true ∨ ∃ i, fails (.write i) = true) := by
  obtain ⟨htext, hfsync⟩ | ⟨x, temporary, htext, hfailed⟩ := writeText_cases (s := s) bytes
  · cases hclose : fails .close with
    | true => exact .inr ⟨_, _, Fallible.finally_of_error htext (os_fails hclose), .inr (.inl rfl)⟩
    | false => exact .inl ⟨Fallible.finally_of_ok htext (os_ok hclose), hfsync, rfl⟩
  · have hone : fails .fsync = true ∨ fails .close = true ∨ ∃ i, fails (.write i) = true :=
      hfailed.imp_right .inr
    cases hclose : fails .close with
    | true => exact .inr ⟨_, _, Fallible.finally_of_error htext (os_fails hclose), hclose ▸ hone⟩
    | false => exact .inr ⟨_, _, Fallible.finally_of_ok htext (os_ok hclose), hclose ▸ hone⟩

/-- Syncing the directory does nothing to the state. -/
theorem fsyncDirectory_cases :
    fsyncDirectory env fails s = (.ok (), s) ∧ fails .openDirectory = false ∧
      fails .fsyncDirectory = false ∧ fails .closeDirectory = false ∨
    ∃ x, fsyncDirectory env fails s = (.error x, s) ∧ (fails .openDirectory = true ∨
      fails .fsyncDirectory = true ∨ fails .closeDirectory = true) := by
  cases hopen : fails .openDirectory with
  | true => exact .inr ⟨_, Fallible.bind_of_error (os_fails hopen), .inl rfl⟩
  | false =>
      rw [fsyncDirectory, Fallible.bind_of_ok (os_ok hopen)]
      cases hfsync : fails .fsyncDirectory with
      | true =>
          have hbody := @os_fails env s _ _ id hfsync
          cases hclose : fails .closeDirectory with
          | true =>
              exact .inr ⟨_, Fallible.finally_of_error hbody (os_fails hclose), .inr (.inl rfl)⟩
          | false => exact .inr ⟨_, Fallible.finally_of_ok hbody (os_ok hclose), .inr (.inl rfl)⟩
      | false =>
          have hbody := @os_ok env s _ _ id hfsync
          cases hclose : fails .closeDirectory with
          | true =>
              exact .inr ⟨_, Fallible.finally_of_error hbody (os_fails hclose), .inr (.inr rfl)⟩
          | false => exact .inl ⟨Fallible.finally_of_ok hbody (os_ok hclose), rfl, rfl, rfl⟩

/-- The new file is in place, or one of the calls before the rename has failed, or the file
is in place and the directory was not synced. -/
theorem install_cases (bytes : List UInt8) (htemporary : s.temporary = some []) :
    (install env bytes fails s = (.ok (), { s with csv := some bytes, temporary := none }) ∧
      fails .openDirectory = false ∧ fails .fsyncDirectory = false ∧
      fails .closeDirectory = false) ∨
    (∃ x temporary, install env bytes fails s = (.error x, { s with temporary }) ∧
      (fails .fsync = true ∨ fails .close = true ∨ (∃ i, fails (.write i) = true) ∨
        fails .replace = true)) ∨
    ∃ x, install env bytes fails s =
        (.error x, { s with csv := some bytes, temporary := none }) ∧
      (fails .openDirectory = true ∨ fails .fsyncDirectory = true ∨
        fails .closeDirectory = true) := by
  rw [install]
  obtain ⟨hwrite, -, -⟩ | ⟨x, temporary, hwrite, hfailed⟩ := writeFile_cases (s := s) bytes
  · rw [Fallible.bind_of_ok hwrite]
    cases hreplace : fails .replace with
    | true =>
        rw [Fallible.bind_of_error (os_fails hreplace)]
        exact .inr (.inl ⟨_, _, rfl, .inr (.inr (.inr rfl))⟩)
    | false =>
        have hnew : s.temporary.map (· ++ bytes) = some bytes := by
          rw [htemporary]
          rfl
        rw [Fallible.bind_of_ok (os_ok hreplace), hnew]
        obtain ⟨hsync, hnone⟩ | ⟨x, hsync, hfailed⟩ := fsyncDirectory_cases (s := { s with csv := some bytes, temporary := none })
        · exact .inl ⟨hsync, hnone⟩
        · exact .inr (.inr ⟨x, hsync, hfailed⟩)
  · rw [Fallible.bind_of_error hwrite]
    exact .inr (.inl ⟨x, temporary, rfl, by tauto⟩)

/-! ## One failing call -/

section Single

variable {failing : Option Call}

/-- Once the file is in place, the `unlink` and the `stat` are left. -/
theorem replace_of_installed
    (hmkdir : failing ≠ some .mkdir) (hmkstemp : failing ≠ some .mkstemp)
    (hinstall : install env (csvBytes plates) (Fallible.single failing)
      { s with temporary := some [] } =
        (.ok (), { s with csv := some (csvBytes plates), temporary := none })) :
    (failing ≠ some .unlink ∧ failing ≠ some .stat ∧
      ∃ s', replace env plates (Fallible.single failing) s = (.ok (), s')) ∨
    (failing = some .unlink ∧ ∃ x s', replace env plates (Fallible.single failing) s =
      (.error x, s') ∧ s'.csv = some (csvBytes plates) ∧ s'.plates = s.plates) ∨
    (failing = some .stat ∧ ∃ x s', replace env plates (Fallible.single failing) s =
      (.error x, s') ∧ Taken plates s') := by
  rw [replace, Fallible.bind_of_ok (os_id_ok (Fallible.single_eq_false.2 hmkdir)),
    Fallible.bind_of_ok (os_ok (Fallible.single_eq_false.2 hmkstemp))]
  by_cases hunlink : failing = some .unlink
  · have hfinally := Fallible.finally_of_error hinstall
      (@os_fails env _ _ _ (fun s : State => { s with temporary := none })
        (Fallible.single_eq_true.2 hunlink))
    exact .inr (.inl ⟨hunlink, _, _, Fallible.bind_of_error hfinally, rfl, rfl⟩)
  · have hfinally := Fallible.finally_of_ok hinstall
      (@os_ok env _ _ _ (fun s : State => { s with temporary := none })
        (Fallible.single_eq_false.2 hunlink))
    rw [Fallible.bind_of_ok hfinally, take, Fallible.bind_of_ok (Fallible.modify_run _)]
    by_cases hstat : failing = some .stat
    · rw [Fallible.bind_of_error (os_fails (Fallible.single_eq_true.2 hstat))]
      exact .inr (.inr ⟨hstat, _, _, rfl, rfl, rfl⟩)
    · rw [Fallible.bind_of_ok (os_ok (Fallible.single_eq_false.2 hstat)), Fallible.modify_run]
      exact .inl ⟨hunlink, hstat, _, rfl⟩

/-- If the new file is not installed, the `unlink` removes the temporary one. -/
theorem replace_of_not_installed {x : String} {s₁ : State}
    (hmkdir : failing ≠ some .mkdir) (hmkstemp : failing ≠ some .mkstemp)
    (hunlink : failing ≠ some .unlink)
    (hinstall : install env (csvBytes plates) (Fallible.single failing)
      { s with temporary := some [] } = (.error x, s₁)) :
    replace env plates (Fallible.single failing) s = (.error x, { s₁ with temporary := none }) := by
  rw [replace, Fallible.bind_of_ok (os_id_ok (Fallible.single_eq_false.2 hmkdir)),
    Fallible.bind_of_ok (os_ok (Fallible.single_eq_false.2 hmkstemp))]
  exact Fallible.bind_of_error (Fallible.finally_of_ok hinstall
    (os_ok (Fallible.single_eq_false.2 hunlink)))

/-- What becomes of a replacement. -/
theorem replace_cases (env : Surroundings) (s : State) (plates : List String)
    (failing : Option Call) :
    ((∀ l ∈ afterRename, failing ≠ some l) ∧ failing ≠ some .stat ∧
      ((∃ s', replace env plates (Fallible.single failing) s = (.ok (), s')) ∨
        ∃ x s', replace env plates (Fallible.single failing) s = (.error x, s') ∧ Kept s s')) ∨
    ((∃ l ∈ afterRename, failing = some l) ∧ failing ≠ some .stat ∧
      ∃ x s', replace env plates (Fallible.single failing) s = (.error x, s') ∧
        s'.csv = some (csvBytes plates) ∧ s'.plates = s.plates) ∨
    ((∀ l ∈ afterRename, failing ≠ some l) ∧ failing = some .stat ∧
      ∃ x s', replace env plates (Fallible.single failing) s = (.error x, s') ∧
        Taken plates s') := by
  by_cases hmkdir : failing = some .mkdir
  · have hrun : replace env plates (Fallible.single failing) s = (.error _, s) :=
      Fallible.bind_of_error (os_fails (Fallible.single_eq_true.2 hmkdir))
    exact .inl ⟨by simp [hmkdir, afterRename], by simp [hmkdir], .inr ⟨_, s, hrun, rfl, rfl⟩⟩
  by_cases hmkstemp : failing = some .mkstemp
  · have hrun : replace env plates (Fallible.single failing) s =
        (.error (env.message .mkstemp), s) := by
      rw [replace, Fallible.bind_of_ok (os_id_ok (Fallible.single_eq_false.2 hmkdir))]
      exact Fallible.bind_of_error (os_fails (Fallible.single_eq_true.2 hmkstemp))
    exact .inl ⟨by simp [hmkstemp, afterRename], by simp [hmkstemp], .inr ⟨_, s, hrun, rfl, rfl⟩⟩
  obtain ⟨hinstall, hnone⟩ | ⟨x, temporary, hinstall, hfailed⟩ | ⟨x, hinstall, hfailed⟩ :=
    @install_cases _ { s with temporary := some [] } (Fallible.single failing) (csvBytes plates) rfl
  · simp only [Fallible.single_eq_false] at hnone
    have hafter : failing ≠ some .unlink → ∀ l ∈ afterRename, failing ≠ some l := by
      intro hunlink l hl
      simp only [afterRename, List.mem_cons, List.not_mem_nil, or_false] at hl
      obtain rfl | rfl | rfl | rfl := hl
      · exact hnone.1
      · exact hnone.2.1
      · exact hnone.2.2
      · exact hunlink
    obtain ⟨hunlink, hstat, hrun⟩ | ⟨hunlink, hrun⟩ | ⟨hstat, hrun⟩ :=
      replace_of_installed hmkdir hmkstemp hinstall
    · exact .inl ⟨hafter hunlink, hstat, .inl hrun⟩
    · exact .inr (.inl ⟨⟨.unlink, by simp [afterRename], hunlink⟩, by simp [hunlink], hrun⟩)
    · exact .inr (.inr ⟨hafter (by simp [hstat]), hstat, hrun⟩)
  · simp only [Fallible.single_eq_true] at hfailed
    have hearly : (∀ l ∈ afterRename, failing ≠ some l) ∧ failing ≠ some .stat := by
      obtain rfl | rfl | ⟨i, rfl⟩ | rfl := hfailed
      · simp [afterRename]
      · simp [afterRename]
      · simp [afterRename]
      · simp [afterRename]
    refine .inl ⟨hearly.1, hearly.2, .inr ⟨x, _, replace_of_not_installed hmkdir hmkstemp
      (hearly.1 _ (by simp [afterRename])) hinstall, rfl, rfl⟩⟩
  · simp only [Fallible.single_eq_true] at hfailed
    have hlate : (∃ l ∈ afterRename, failing = some l) ∧ failing ≠ some .stat ∧
        failing ≠ some .unlink := by
      obtain rfl | rfl | rfl := hfailed
      · simp [afterRename]
      · simp [afterRename]
      · simp [afterRename]
    exact .inr (.inl ⟨hlate.1, hlate.2.1, x, _, replace_of_not_installed hmkdir hmkstemp
      hlate.2.2 hinstall, rfl, rfl⟩)

end Single

/-! ## A refresh -/

/-- The rows that a fetch returns for these plates. -/
def rowsOf (plates : List String) : Json :=
  .arr (plates.map fun plate => .obj [("plate", .str plate)])

theorem fetchedPlates_rowsOf (plates : List String) :
    fetchedPlates (rowsOf plates) = some plates := by
  simp only [rowsOf, fetchedPlates]
  induction plates with
  | nil => rfl
  | cons plate rest ih =>
      rw [List.map_cons, List.mapM_cons, ih]
      rfl

/-- A refresh reports what the replacement has come to. -/
theorem runOnce_of_ok {rows : Json} (hrows : fetchedPlates rows = some plates)
    (h : replace env plates fails s = (.ok (), s')) :
    runOnce env (.ok rows) fails s = (.ok true, s') := by
  simp only [runOnce, hrows]
  rw [Fallible.bind_of_ok (Fallible.attempt_run _), h]
  rfl

theorem runOnce_of_error {rows : Json} {x : String} (hrows : fetchedPlates rows = some plates)
    (h : replace env plates fails s = (.error x, s')) :
    runOnce env (.ok rows) fails s = (.ok false, { s' with lastError := some x }) := by
  simp only [runOnce, hrows]
  rw [Fallible.bind_of_ok (Fallible.attempt_run _), h]
  rfl

/-- A refresh that has nothing to take in leaves what is in force. -/
theorem runOnce_kept {fetched : Except String Json}
    (hnone : ∀ rows, fetched = .ok rows → fetchedPlates rows = none) {r : Except String Bool}
    (h : runOnce env fetched fails s = (r, s')) : Kept s s' := by
  cases fetched with
  | error message =>
      cases h
      exact ⟨rfl, rfl⟩
  | ok rows =>
      simp only [runOnce, hnone rows rfl] at h
      cases h
      exact ⟨rfl, rfl⟩

/-- A replacement is whole or not made, and a refresh reports it, unless a call fails that
comes after the rename and the file is not as it was, or the last `stat` fails and the
file or the plates are not as they were. -/
theorem wholeOrNothing_iff (env : Surroundings) (s : State) (plates : List String)
    (failing : Option Call) :
    WholeOrNothing env s plates failing ↔
      ((∃ l ∈ afterRename, failing = some l) → s.csv = some (csvBytes plates)) ∧
      (failing = some .stat →
        s.csv = some (csvBytes plates) ∧ s.plates = some (normalized plates)) := by
  have hrefused : WholeOrNothing env s plates failing → ∀ x s',
      replace env plates (Fallible.single failing) s = (.error x, s') → Kept s s' := by
    intro h x s' hrun
    refine h.refused (.ok (rowsOf plates)) ?_ { s' with lastError := some x }
      (runOnce_of_error (fetchedPlates_rowsOf plates) hrun)
    intro rows found hrows hfound
    cases hrows
    exact Option.some.inj (hfound.symm.trans (fetchedPlates_rowsOf plates))
  have hrefuses : (∀ x s', replace env plates (Fallible.single failing) s = (.error x, s') →
      Kept s s') → WholeOrNothing env s plates failing := by
    intro h
    refine ⟨fun x s' hrun => .inl (h x s' hrun), ?_⟩
    intro fetched hfetched s' hrun
    by_cases hnone : ∀ rows, fetched = .ok rows → fetchedPlates rows = none
    · exact runOnce_kept hnone hrun
    · push Not at hnone
      obtain ⟨rows, rfl, hsome⟩ := hnone
      obtain ⟨found, hfound⟩ := Option.ne_none_iff_exists'.1 hsome
      cases hfetched rows found rfl hfound
      cases hreplace : replace env plates (Fallible.single failing) s with
      | mk r s₁ =>
          cases r with
          | ok u =>
              rw [runOnce_of_ok hfound hreplace] at hrun
              cases hrun
          | error x =>
              rw [runOnce_of_error hfound hreplace] at hrun
              cases hrun
              exact h x s₁ hreplace
  obtain ⟨hafter, hstat, hrun⟩ | ⟨hafter, hstat, x, s', hrun, hcsv, hplates⟩ |
    ⟨hafter, hstat, x, s', hrun, hcsv, hplates⟩ := replace_cases env s plates failing
  · refine iff_of_true (hrefuses ?_) ⟨?_, fun h => absurd h hstat⟩
    · intro x s' herror
      obtain ⟨s'', hok⟩ | ⟨y, s'', herror', hkept⟩ := hrun
      · cases hok.symm.trans herror
      · cases herror'.symm.trans herror
        exact hkept
    · rintro ⟨l, hl, hfailing⟩
      exact absurd hfailing (hafter l hl)
  · constructor
    · intro h
      exact ⟨fun _ => (hrefused h x s' hrun).1.symm.trans hcsv, fun h => absurd h hstat⟩
    · rintro ⟨hsame, -⟩
      refine hrefuses fun y s'' herror => ?_
      cases hrun.symm.trans herror
      exact ⟨hcsv.trans (hsame hafter).symm, hplates⟩
  · constructor
    · intro h
      have hkept := hrefused h x s' hrun
      refine ⟨fun _ => hkept.1.symm.trans hcsv, fun _ => ⟨hkept.1.symm.trans hcsv, ?_⟩⟩
      exact hkept.2.symm.trans hplates
    · rintro ⟨-, hsame⟩
      refine hrefuses fun y s'' herror => ?_
      cases hrun.symm.trans herror
      exact ⟨hcsv.trans (hsame hstat).1.symm, hplates.trans (hsame hstat).2.symm⟩

namespace Revoked

/-- The surroundings of a replacement. -/
def surroundings : Surroundings where
  message := fun _ => "[Errno 5] Input/output error"
  chunk := fun _ => 8191
  stat := ⟨2, 7, 0⟩
  now := ⟨⟨0, by decide⟩, some 0⟩

/-- One plate is authorised, on disk and in memory. -/
def authorised : State where
  csv := some (csvBytes ["A1"])
  plates := some ["A1"]
  version := some ⟨1, 11, 0⟩
  refreshedAt := some ⟨⟨0, by decide⟩, some 0⟩
  lastError := none

/-- The plate is revoked, and the directory is not synced. -/
theorem revoked_in_memory_only :
    ¬ WholeOrNothing surroundings authorised [] (some .fsyncDirectory) := by
  rw [wholeOrNothing_iff]
  rintro ⟨h, -⟩
  exact absurd (h ⟨.fsyncDirectory, by decide, rfl⟩) (by decide +kernel)

end Revoked

end AuthorisedPlateCache

end GateController

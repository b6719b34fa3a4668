import GateController.Media.Refresh

/-!
# One write of an environment file

With one failing call at most, a write leaves the old file or the new one, and no
temporary file.  There are two exceptions.  A call that fails after the rename raises with
the new file in place.  A close that fails and gives the descriptor up makes the clean-up
raise at its first step, and the temporary file stays.
-/

namespace GateController

open Data Effects MediaConfig

namespace TurnRefresh

variable {env : Surroundings} {body : List UInt8} {s s' : Scratch} {failing : Option WriteCall}
  {fails : WriteCall → Bool}

/-- The file that a write makes. -/
def written (env : Surroundings) (body : List UInt8) : File := ⟨body, true, env.ownerControlled⟩

/-- The calls after the rename. -/
def late : List WriteCall := [.fsyncDirectory, .closeDirectory]

theorem os_ok {l : WriteCall} {f : Scratch → Scratch} (h : failing ≠ some l) :
    os l f (Fallible.single failing) s = (.ok (), f s) :=
  Fallible.call_of_not (Fallible.single_eq_false.2 h)

theorem os_id_ok {l : WriteCall} (h : failing ≠ some l) :
    os l id (Fallible.single failing) s = (.ok (), s) := os_ok h

theorem os_fails {l : WriteCall} {f : Scratch → Scratch} (h : failing = some l) :
    os l f (Fallible.single failing) s = (.error .os, s) :=
  Fallible.call_of_fails (Fallible.single_eq_true.2 h)

/-- The bytes are in the temporary file, or a write has failed. -/
theorem writeAll_cases (env : Surroundings) (body : List UInt8) (s : Scratch)
    (failing : Option WriteCall) :
    writeAll env body (Fallible.single failing) s = (.ok (), appendTemporary body s) ∨
      ∃ i part, failing = some (.write i) ∧
        writeAll env body (Fallible.single failing) s = (.error .os, appendTemporary part s) := by
  obtain h | ⟨i, part, hi, h⟩ := @Fallible.writeAll_cases _ _ _ _
    RefreshError.os _ appendTemporary
    (by intro s; simp [appendTemporary]) (by intro a b s; simp [appendTemporary, Function.comp_def])
    (Fallible.single failing) 0 body s
  · exact .inl h
  · exact .inr ⟨i, part, Fallible.single_eq_true.1 hi, h⟩

/-- How the `try` of a write ends. -/
inductive TryEnds (env : Surroundings) (body : List UInt8) (t : Option File)
    (failing : Option WriteCall) : Except RefreshError Unit → Scratch → Prop where
  | done (h : ∀ l, failing = some l → (∃ i, l = .write i) ∨ l = .closeDirectory) :
      TryEnds env body t failing (.ok ()) ⟨some (written env body), none, true, none⟩
  | closed (h : failing = some .openDirectory) :
      TryEnds env body t failing (.error .os) ⟨t, none, false, none⟩
  | early (temporary : Option File) (descriptor : Option Bool)
      (h : failing = some .create ∨ failing = some .fchmod ∨ (∃ i, failing = some (.write i)) ∨
        failing = some .fsync ∨ failing = some .replace) (hd : descriptor ≠ some false) :
      TryEnds env body t failing (.error .os) ⟨t, temporary, true, descriptor⟩
  | close (h : failing = some .close) :
      TryEnds env body t failing (.error .os)
        ⟨t, some (written env body), true, some (!env.closeReleases)⟩
  | late (h : failing = some .fsyncDirectory) :
      TryEnds env body t failing (.error .os) ⟨some (written env body), none, true, none⟩

theorem writeTemporary_ends (env : Surroundings) (body : List UInt8) (t : Option File)
    (failing : Option WriteCall) : ∃ r s,
      writeTemporary env body (Fallible.single failing) ⟨t, none, false, none⟩ = (r, s) ∧
      TryEnds env body t failing r s := by
  rw [writeTemporary]
  by_cases hopen : failing = some .openDirectory
  · rw [Fallible.bind_of_error (os_fails hopen)]
    exact ⟨_, _, rfl, .closed hopen⟩
  rw [Fallible.bind_of_ok (os_ok hopen)]
  by_cases hcreate : failing = some .create
  · rw [Fallible.bind_of_error (os_fails hcreate)]
    exact ⟨_, _, rfl, .early _ _ (.inl hcreate) (by simp)⟩
  rw [Fallible.bind_of_ok (os_ok hcreate)]
  by_cases hfchmod : failing = some .fchmod
  · rw [Fallible.bind_of_error (os_fails hfchmod)]
    exact ⟨_, _, rfl, .early _ _ (.inr (.inl hfchmod)) (by simp)⟩
  rw [Fallible.bind_of_ok (os_id_ok hfchmod)]
  dsimp only
  obtain hwrite | ⟨i, part, hi, hwrite⟩ := writeAll_cases env body
    ⟨t, some ⟨[], true, env.ownerControlled⟩, true, some true⟩ failing
  · rw [Fallible.bind_of_ok hwrite]
    by_cases hfsync : failing = some .fsync
    · rw [Fallible.bind_of_error (os_fails hfsync)]
      exact ⟨_, _, rfl, .early _ _ (.inr (.inr (.inr (.inl hfsync)))) (by simp)⟩
    rw [Fallible.bind_of_ok (os_ok hfsync)]
    by_cases hclose : failing = some .close
    · rw [Fallible.bind_of_error (Fallible.callOr_of_fails (Fallible.single_eq_true.2 hclose))]
      exact ⟨_, _, rfl, .close hclose⟩
    rw [Fallible.bind_of_ok (Fallible.callOr_of_not (Fallible.single_eq_false.2 hclose))]
    by_cases hreplace : failing = some .replace
    · rw [Fallible.bind_of_error (os_fails hreplace)]
      exact ⟨_, _, rfl, .early _ _ (.inr (.inr (.inr (.inr hreplace)))) (by simp)⟩
    rw [Fallible.bind_of_ok (os_ok hreplace)]
    by_cases hlate : failing = some .fsyncDirectory
    · rw [os_fails hlate]
      exact ⟨_, _, rfl, .late hlate⟩
    · rw [os_ok hlate]
      refine ⟨_, _, rfl, .done ?_⟩
      rintro (_ | _ | _ | i | _ | _ | _ | _ | _) rfl
      · exact absurd rfl hopen
      · exact absurd rfl hcreate
      · exact absurd rfl hfchmod
      · exact .inl ⟨i, rfl⟩
      · exact absurd rfl hfsync
      · exact absurd rfl hclose
      · exact absurd rfl hreplace
      · exact absurd rfl hlate
      · exact .inr rfl
  · rw [Fallible.bind_of_error hwrite]
    exact ⟨_, _, rfl, .early _ _ (.inr (.inr (.inl ⟨i, hi⟩))) (by simp)⟩

/-! ## The clean-up -/

/-- A descriptor that was given up stops the clean-up at once. -/
theorem cleanUp_released (h : s.descriptor = some false) :
    cleanUp fails s = (.error .os, s) := by
  have hclose : closeDescriptor fails s = (.error .os, s) := by
    rw [closeDescriptor, Fallible.bind_of_ok (Fallible.get_run)]
    simp [h]
  exact Fallible.bind_of_error hclose

/-- Otherwise the temporary file is removed, and the directory closed. -/
theorem cleanUp_cases (h : s.descriptor ≠ some false) (hdirectory : s.directory = true) :
    ∃ d, cleanUp (Fallible.single failing) s =
      (if failing = some .closeDirectory then .error .os else .ok (),
        { s with temporary := none, descriptor := d }) := by
  have hclose : ∃ d, closeDescriptor (Fallible.single failing) s =
      (.ok (), { s with descriptor := d }) := by
    obtain ⟨target, temporary, directory, descriptor⟩ := s
    match descriptor with
    | none => exact ⟨none, rfl⟩
    | some true => exact ⟨none, rfl⟩
    | some false => exact absurd rfl h
  obtain ⟨d, hclose⟩ := hclose
  refine ⟨d, ?_⟩
  rw [cleanUp, Fallible.bind_of_ok hclose, Fallible.bind_of_ok (Fallible.get_run)]
  simp only [hdirectory, if_true]
  rw [Fallible.bind_of_ok (Fallible.modify_run _)]
  split
  next hfails => exact os_fails hfails
  next hfails => exact os_ok hfails

/-- Without a directory there is nothing to remove. -/
theorem cleanUp_nothing {t : Option File} :
    cleanUp fails ⟨t, none, false, none⟩ = (.ok (), ⟨t, none, false, none⟩) := rfl

/-! ## The write -/

/-- How a write ends: with the new file, with the old one, with the new one although it
raises, or with the old one and the temporary file. -/
inductive WriteEnds (env : Surroundings) (body : List UInt8) (t : Option File)
    (failing : Option WriteCall) : Except RefreshError Unit → Option File → Option File → Prop where
  | done (h : ∀ l ∈ late, failing ≠ some l) (hclose : failing ≠ some .close) :
      WriteEnds env body t failing (.ok ()) (some (written env body)) none
  | kept (x : RefreshError) (h : ∀ l ∈ late, failing ≠ some l)
      (hclose : ¬ (failing = some .close ∧ env.closeReleases = true)) (hsome : failing ≠ none) :
      WriteEnds env body t failing (.error x) t none
  | replaced (x : RefreshError) (h : ∃ l ∈ late, failing = some l) :
      WriteEnds env body t failing (.error x) (some (written env body)) none
  | lost (x : RefreshError) (file : File) (h : failing = some .close)
      (hreleases : env.closeReleases = true) :
      WriteEnds env body t failing (.error x) t (some file)

theorem atomicWriteEnvironment_ends (env : Surroundings) (body : List UInt8) (t : Option File)
    (failing : Option WriteCall) : ∃ r s,
      atomicWriteEnvironment env body (Fallible.single failing) ⟨t, none, false, none⟩ = (r, s) ∧
      WriteEnds env body t failing r s.target s.temporary := by
  obtain ⟨r, s, hrun, hends⟩ := writeTemporary_ends env body t failing
  have hbody : ((writeTemporary env body).mapError fun _ => RefreshError.turnRefresh
      "runtime TURN environment could not be atomically updated") (Fallible.single failing)
      ⟨t, none, false, none⟩ = (r.mapError fun _ => RefreshError.turnRefresh
        "runtime TURN environment could not be atomically updated", s) := by
    rw [Fallible.mapError_run, hrun]
  cases hends with
  | done h =>
      obtain ⟨d, hclean⟩ := cleanUp_cases
        (s := ⟨some (written env body), none, true, none⟩) (by simp) rfl
      by_cases hlate : failing = some .closeDirectory
      · rw [if_pos hlate] at hclean
        exact ⟨_, _, Fallible.finally_of_error hbody hclean,
          .replaced _ ⟨.closeDirectory, by simp [late], hlate⟩⟩
      · rw [if_neg hlate] at hclean
        refine ⟨_, _, Fallible.finally_of_ok hbody hclean, .done ?_ ?_⟩
        · intro l hl hfailing
          obtain ⟨i, rfl⟩ | rfl := h l hfailing
          · simp [late] at hl
          · exact hlate hfailing
        · intro hclose
          obtain ⟨i, hi⟩ | hi := h .close hclose
          · cases hi
          · cases hi
  | closed h =>
      exact ⟨_, _, Fallible.finally_of_ok hbody cleanUp_nothing,
        .kept _ (by simp [h, late]) (by simp [h]) (by simp [h])⟩
  | early temporary descriptor h hd =>
      have hone : (∀ l ∈ late, failing ≠ some l) ∧ failing ≠ some .close ∧ failing ≠ none ∧
          failing ≠ some .closeDirectory := by
        obtain rfl | rfl | ⟨i, rfl⟩ | rfl | rfl := h
        · simp [late]
        · simp [late]
        · simp [late]
        · simp [late]
        · simp [late]
      obtain ⟨d, hclean⟩ := cleanUp_cases
        (s := ⟨t, temporary, true, descriptor⟩) hd rfl
      rw [if_neg hone.2.2.2] at hclean
      exact ⟨_, _, Fallible.finally_of_ok hbody hclean,
        .kept _ hone.1 (fun hclose => hone.2.1 hclose.1) hone.2.2.1⟩
  | close h =>
      cases hreleases : env.closeReleases with
      | true =>
          rw [hreleases] at hbody
          exact ⟨_, _, Fallible.finally_of_error hbody (cleanUp_released rfl),
            .lost _ _ h hreleases⟩
      | false =>
          rw [hreleases] at hbody
          obtain ⟨d, hclean⟩ := @cleanUp_cases
            ⟨t, some (written env body), true, some (!false)⟩ failing (by simp) rfl
          rw [if_neg (by simp [h])] at hclean
          exact ⟨_, _, Fallible.finally_of_ok hbody hclean,
            .kept _ (by simp [h, late]) (by simp [hreleases]) (by simp [h])⟩
  | late h =>
      obtain ⟨d, hclean⟩ := @cleanUp_cases
        ⟨some (written env body), none, true, none⟩ failing (by simp) rfl
      rw [if_neg (by simp [h])] at hclean
      exact ⟨_, _, Fallible.finally_of_ok hbody hclean,
        .replaced _ ⟨.fsyncDirectory, by simp [late], h⟩⟩

end TurnRefresh

end GateController

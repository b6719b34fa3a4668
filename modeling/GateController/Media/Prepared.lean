import GateController.Media.AtomicWrite
import GateController.Media.Staged

/-!
# Before the new TURN values are written

Everything that is checked before the first write leaves the files alone.  If it succeeds,
the old bytes are those of the runtime file, and the new bytes say the selected values
and nothing else.
-/

namespace GateController

open Data Effects MediaConfig

namespace TurnRefresh

variable {env : Surroundings} {lib : Library} {inputs : Inputs} {runtime : Option File}
  {c : Candidate} {previous staged : List UInt8} {s s' : State} {fails : Call → Bool}

/-! ## What is prepared -/

/-- The relay is selected from what is fetched with the key of the service. -/
def Selected (lib : Library) (inputs : Inputs) (c : Candidate) : Prop :=
  ∃ values payload, turnValues inputs = .ok values ∧
    inputs.fetchIceServers (get values "TURN_KEY_ID") (get values "TURN_KEY_API_TOKEN") =
      .ok payload ∧
    selectTurnCredentials lib payload = .ok c

/-- The file says the three values of the relay and nothing else, and it is valid with the
other files. -/
structure Holds (lib : Library) (inputs : Inputs) (file : Option File) (c : Candidate) : Prop where
  values : ∃ values, parseTrustedEnvironment file = .ok values ∧ ∀ key value,
    (key, value) ∈ values ↔ key ∈ runtimeTurnKeyOrder ∧ value = turnValue c key
  valid : ∃ out, completeEnvironment lib inputs file = .ok out

/-- The old bytes are those of an empty file that is trusted, or of one that is valid with
the other files. -/
inductive OldBytes (lib : Library) (inputs : Inputs) (runtime : Option File) :
    Bool → List UInt8 → Prop where
  | empty {file : File} {out : Values} (hfile : runtime = some file)
      (hregular : file.regular = true) (htrusted : file.trusted = true) (hbody : file.body = [])
      (hvalid : bootstrapEnvironment lib inputs = .ok out) : OldBytes lib inputs runtime true []
  | complete {file : File} {out : Values} (hfile : runtime = some file)
      (hvalid : completeEnvironment lib inputs runtime = .ok out) :
      OldBytes lib inputs runtime false file.body

/-- What is there is valid, and values are selected that make the new bytes. -/
def Prepared (lib : Library) (inputs : Inputs) (runtime : Option File)
    (previous staged : List UInt8) (c : Candidate) : Prop :=
  ∃ bootstrap, OldBytes lib inputs runtime bootstrap previous ∧ Selected lib inputs c ∧
    stagedRuntimeTurn bootstrap previous c = .ok staged

/-! ## The checks before the first write -/

/-- The steps before the first write. -/
def preparations : List Call := [.loadTurn, .lstat, .openEmpty, .validateCurrent, .readCurrent]

theorem checked_run {α : Type} (l : Call) (message : String) (r : Except String α) :
    (checked l message r : Refresh α) fails s =
      (if fails l then .error (.turnRefresh message) else r.mapError fun _ => .turnRefresh message,
        s) := by
  cases h : fails l with
  | true => exact Fallible.bind_of_error (Fallible.call_of_fails h)
  | false => exact Fallible.bind_of_ok (Fallible.call_of_not h)

theorem checked_still {α : Type} (l : Call) (message : String) (r : Except String α) :
    (checked l message r : Refresh α).Still := fun fails s => by rw [checked_run]

theorem checked_ok {α : Type} {l : Call} {message : String} {r : Except String α} {a : α}
    (h : (checked l message r : Refresh α) fails s = (.ok a, s')) : r = .ok a := by
  rw [checked_run] at h
  split at h
  next => cases h
  next =>
    cases r with
    | error x => cases h
    | ok b =>
        cases h
        rfl

theorem checked_of_ok {α : Type} {l : Call} {message : String} {r : Except String α} {a : α}
    (hl : fails l = false) (h : r = .ok a) :
    (checked l message r : Refresh α) fails s = (.ok a, s) := by
  rw [checked_run, hl, h]
  rfl

/-- What is made of an empty file. -/
def emptyTrusted (fails : Call → Bool) (runtime : Option File) : Except RefreshError Bool :=
  match runtime with
  | none => .ok false
  | some file =>
      if !file.regular || !file.body.isEmpty then .ok false
      else if fails .openEmpty || !file.trusted then
        .error (.turnRefresh "empty runtime TURN environment is not trusted")
      else .ok true

theorem emptyRuntimeEnvironmentIsTrusted_run :
    emptyRuntimeEnvironmentIsTrusted fails s =
      (if fails .lstat then .ok false else emptyTrusted fails s.runtime, s) := by
  have hstat : ((Fallible.call Call.lstat RefreshError.os id).attempt : Refresh _) fails s =
      (.ok (if fails .lstat then .error RefreshError.os else .ok ()), s) := by
    cases h : fails .lstat with
    | true => rw [Fallible.attempt_run, Fallible.call_of_fails h]; rfl
    | false => rw [Fallible.attempt_run, Fallible.call_of_not h]; rfl
  rw [emptyRuntimeEnvironmentIsTrusted, Fallible.bind_of_ok hstat]
  cases fails .lstat with
  | true => rfl
  | false =>
      change (Fallible.get >>= _) fails s = _
      rw [Fallible.bind_of_ok Fallible.get_run]
      cases s.runtime with
      | none => rfl
      | some file =>
          dsimp only [emptyTrusted]
          split
          next => rfl
          next =>
            cases hopen : fails .openEmpty with
            | true => exact Fallible.bind_of_error (Fallible.call_of_fails hopen)
            | false =>
                rw [Fallible.bind_of_ok (Fallible.call_of_not hopen)]
                cases file.trusted with
                | true => rfl
                | false => rfl

theorem emptyRuntimeEnvironmentIsTrusted_still : emptyRuntimeEnvironmentIsTrusted.Still := by
  intro fails s
  rw [emptyRuntimeEnvironmentIsTrusted_run]

theorem previousRuntimeTurn_still {bootstrap : Bool} :
    (previousRuntimeTurn lib inputs bootstrap).Still := by
  unfold previousRuntimeTurn
  split
  next => exact .bind (checked_still _ _ _) fun _ => .pure _
  next =>
    exact .bind .get fun _ => .bind (checked_still _ _ _) fun _ => .bind .get fun _ =>
      checked_still _ _ _

/-- Nothing is written before the new bytes are known. -/
theorem prepare_still : (prepare lib inputs).Still :=
  .bind (checked_still _ _ _) fun _ => .bind emptyRuntimeEnvironmentIsTrusted_still fun _ =>
    .bind previousRuntimeTurn_still fun _ => .bind (.ofExcept _) fun _ =>
      .bind (.ofExcept _) fun _ => .bind (.ofExcept _) fun _ => .pure _

/-- The file that is found empty is there, and it is trusted. -/
theorem emptyRuntimeEnvironmentIsTrusted_true
    (h : emptyRuntimeEnvironmentIsTrusted fails s = (.ok true, s')) :
    ∃ file, s.runtime = some file ∧ file.regular = true ∧ file.trusted = true ∧
      file.body = [] := by
  rw [emptyRuntimeEnvironmentIsTrusted_run] at h
  have hok := congrArg Prod.fst h
  dsimp only at hok
  split at hok
  next => cases hok
  next =>
    unfold emptyTrusted at hok
    split at hok
    next => cases hok
    next file hfile =>
      split at hok
      next => cases hok
      next hempty =>
        split at hok
        next => cases hok
        next htrusted =>
          simp only [Bool.or_eq_true, Bool.not_eq_true', not_or, Bool.not_eq_false,
            List.isEmpty_iff] at hempty htrusted
          exact ⟨file, hfile, hempty.1, htrusted.2, hempty.2⟩

/-! ### The files that are read -/

/-- A sequence of checks comes to a value through each of them. -/
theorem ok_of_bind {ε α β : Type} {x : Except ε α} {f : α → Except ε β} {b : β}
    (h : (x >>= f) = .ok b) : ∃ a, x = .ok a ∧ f a = .ok b := by
  cases x with
  | error e => cases h
  | ok a => exact ⟨a, rfl, h⟩

theorem require_ok {condition : Bool} {message : String} {u : Unit}
    (h : require condition message = .ok u) : condition = true := by
  unfold require at h
  split at h
  next hc => exact hc
  next => cases h

/-- A complete environment has the three keys of the runtime file in it. -/
theorem completeEnvironment_ok {file : Option File} {out : Values}
    (h : completeEnvironment lib inputs file = .ok out) :
    ∃ values, parseTrustedEnvironment file = .ok values ∧
      hasKeys values runtimeTurnKeyOrder = true := by
  obtain ⟨auth, -, h⟩ := ok_of_bind h
  obtain ⟨auth', -, h⟩ := ok_of_bind h
  obtain ⟨gateway, -, h⟩ := ok_of_bind h
  obtain ⟨values, hvalues, h⟩ := ok_of_bind h
  obtain ⟨static, -, h⟩ := ok_of_bind h
  obtain ⟨values', hruntime, -⟩ := ok_of_bind h
  obtain ⟨u, -, hruntime⟩ := ok_of_bind hruntime
  obtain ⟨u, hkeys, -⟩ := ok_of_bind hruntime
  exact ⟨values, hvalues, require_ok hkeys⟩

/-- A file that is read is there, is a regular file, and has bytes in it, which are a
text. -/
theorem file_of_parse {file : Option File} {values : Values}
    (h : parseTrustedEnvironment file = .ok values) :
    ∃ found text, file = some found ∧ found.regular = true ∧ found.body ≠ [] ∧
      Utf8.decode found.body = some text := by
  cases file with
  | none => cases h
  | some found =>
      obtain ⟨text, htext, -⟩ := parseTrustedEnvironment_ok h
      unfold parseTrustedEnvironment at h
      dsimp only at h
      split at h
      next => cases h
      next hempty =>
        simp only [Bool.or_eq_true, Bool.not_eq_true', not_or, Bool.not_eq_false,
          List.isEmpty_iff] at hempty
        exact ⟨found, text, rfl, hempty.1.1.1, hempty.1.2, htext⟩

/-! ### The old and the new bytes -/

theorem previousRuntimeTurn_ok {bootstrap : Bool}
    (hempty : bootstrap = true → ∃ file, s.runtime = some file ∧ file.regular = true ∧
      file.trusted = true ∧ file.body = [])
    (h : previousRuntimeTurn lib inputs bootstrap fails s = (.ok previous, s')) :
    OldBytes lib inputs s.runtime bootstrap previous := by
  cases bootstrap with
  | true =>
      obtain ⟨out, s₁, hcheck, h⟩ := Fallible.bind_eq_ok_iff.1 h
      cases h
      obtain ⟨file, hfile, hregular, htrusted, hbody⟩ := hempty rfl
      exact .empty hfile hregular htrusted hbody (checked_ok hcheck)
  | false =>
      obtain ⟨t, s₁, hget, h⟩ := Fallible.bind_eq_ok_iff.1 h
      cases hget
      obtain ⟨out, s₁, hcheck, h⟩ := Fallible.bind_eq_ok_iff.1 h
      have hs := checked_still _ _ _ fails s ▸ congrArg Prod.snd hcheck
      dsimp only at hs
      subst hs
      obtain ⟨t, s₂, hget, h⟩ := Fallible.bind_eq_ok_iff.1 h
      cases hget
      have hvalid := checked_ok hcheck
      obtain ⟨values, hvalues, -⟩ := completeEnvironment_ok hvalid
      obtain ⟨file, text, hfile, -, -, htext⟩ := file_of_parse hvalues
      have hread := checked_ok h
      rw [hfile, environmentBytes, htext] at hread
      cases hread
      exact .complete hfile hvalid

/-- What was found is valid, and the new bytes are made of what was selected. -/
theorem prepare_ok (h : prepare lib inputs fails s = (.ok (previous, staged), s')) :
    ∃ c, Prepared lib inputs s.runtime previous staged c := by
  obtain ⟨values, s₁, hload, h⟩ := Fallible.bind_eq_ok_iff.1 h
  have hs := checked_still _ _ _ fails s ▸ congrArg Prod.snd hload
  dsimp only at hs
  subst hs
  obtain ⟨bootstrap, s₁, hempty, h⟩ := Fallible.bind_eq_ok_iff.1 h
  have hs := emptyRuntimeEnvironmentIsTrusted_still fails s ▸ congrArg Prod.snd hempty
  dsimp only at hs
  subst hs
  obtain ⟨old, s₁, hold, h⟩ := Fallible.bind_eq_ok_iff.1 h
  obtain ⟨payload, s₂, hfetch, h⟩ := Fallible.bind_eq_ok_iff.1 h
  obtain ⟨c, s₃, hselect, h⟩ := Fallible.bind_eq_ok_iff.1 h
  obtain ⟨new, s₄, hnew, h⟩ := Fallible.bind_eq_ok_iff.1 h
  cases h
  refine ⟨c, bootstrap, previousRuntimeTurn_ok ?_ hold, ?_, congrArg Prod.fst hnew⟩
  · intro hbootstrap
    subst hbootstrap
    exact emptyRuntimeEnvironmentIsTrusted_true hempty
  · exact ⟨values, payload, checked_ok hload, congrArg Prod.fst hfetch, congrArg Prod.fst hselect⟩

theorem previousRuntimeTurn_of_oldBytes {bootstrap : Bool}
    (hfails : ∀ l ∈ preparations, fails l = false)
    (h : OldBytes lib inputs s.runtime bootstrap previous) :
    previousRuntimeTurn lib inputs bootstrap fails s = (.ok previous, s) := by
  have hcurrent := hfails .validateCurrent (by simp [preparations])
  have hread := hfails .readCurrent (by simp [preparations])
  cases h with
  | empty hfile hregular htrusted hbody hvalid =>
      exact Fallible.bind_of_ok (checked_of_ok hcurrent hvalid)
  | @complete file out hfile hvalid =>
      obtain ⟨values, hvalues, -⟩ := completeEnvironment_ok hvalid
      obtain ⟨found, text, hfound, -, -, htext⟩ := file_of_parse hvalues
      rw [hfile] at hfound
      cases hfound
      have hbytes : environmentBytes s.runtime = .ok file.body := by
        rw [hfile, environmentBytes, htext]
      rw [previousRuntimeTurn]
      simp only [Bool.false_eq_true, if_false]
      rw [Fallible.bind_of_ok Fallible.get_run,
        Fallible.bind_of_ok (checked_of_ok hcurrent hvalid),
        Fallible.bind_of_ok Fallible.get_run, checked_of_ok hread hbytes]

theorem emptyRuntimeEnvironmentIsTrusted_of_oldBytes {bootstrap : Bool}
    (hfails : ∀ l ∈ preparations, fails l = false)
    (h : OldBytes lib inputs s.runtime bootstrap previous) :
    emptyRuntimeEnvironmentIsTrusted fails s = (.ok bootstrap, s) := by
  have hstat := hfails .lstat (by simp [preparations])
  have hopen := hfails .openEmpty (by simp [preparations])
  rw [emptyRuntimeEnvironmentIsTrusted_run, hstat]
  cases h with
  | empty hfile hregular htrusted hbody hvalid =>
      rw [hfile]
      simp [emptyTrusted, hregular, htrusted, hbody, hopen]
  | complete hfile hvalid =>
      obtain ⟨values, hvalues, -⟩ := completeEnvironment_ok hvalid
      obtain ⟨found, text, hfound, -, hbody, -⟩ := file_of_parse hvalues
      rw [hfound]
      simp [emptyTrusted, hbody]

/-- If none of the checks fails, the old and the new bytes are what they must be. -/
theorem prepare_of_prepared (hfails : ∀ l ∈ preparations, fails l = false)
    (h : Prepared lib inputs s.runtime previous staged c) :
    prepare lib inputs fails s = (.ok (previous, staged), s) := by
  obtain ⟨bootstrap, hold, ⟨values, payload, hvalues, hfetch, hselect⟩, hnew⟩ := h
  have hload := hfails .loadTurn (by simp [preparations])
  rw [prepare, loadTurnEnvironment, Fallible.bind_of_ok (checked_of_ok hload hvalues),
    Fallible.bind_of_ok (emptyRuntimeEnvironmentIsTrusted_of_oldBytes hfails hold),
    Fallible.bind_of_ok (previousRuntimeTurn_of_oldBytes hfails hold), hfetch,
    Fallible.bind_of_ok (Fallible.ofExcept_run _), hselect,
    Fallible.bind_of_ok (Fallible.ofExcept_run _), hnew,
    Fallible.bind_of_ok (Fallible.ofExcept_run _)]
  rfl

/-- The old bytes are those of the file. -/
theorem Prepared.body (h : Prepared lib inputs runtime previous staged c) :
    runtime.map File.body = some previous := by
  obtain ⟨bootstrap, hold, -⟩ := h
  cases hold with
  | empty hfile hregular htrusted hbody hvalid => rw [hfile, Option.map_some, hbody]
  | complete hfile hvalid => rw [hfile, Option.map_some]

/-- The keys of a complete file are exactly the three. -/
theorem keys_of_hasKeys {values : Values} {keys : List String} (h : hasKeys values keys = true) :
    values.map Prod.fst ⊆ keys ∧ keys ⊆ values.map Prod.fst := of_decide_eq_true h

/-- A new file that is valid says the selected values and nothing else. -/
theorem Prepared.holds (h : Prepared lib inputs runtime previous staged c) {out : Values}
    (hvalid : completeEnvironment lib inputs (some (written env staged)) = .ok out) :
    Holds lib inputs (some (written env staged)) c := by
  obtain ⟨bootstrap, hold, ⟨turn, payload, hturn, hfetch, hselect⟩, hnew⟩ := h
  have hsound := selectTurnCredentials_sound hselect
  obtain ⟨values, hvalues, -⟩ := completeEnvironment_ok hvalid
  -- whatever the order of the lines, the new file has one line for each of the keys
  obtain ⟨keys, hkeys, hall, hbody⟩ : ∃ keys, keys ⊆ runtimeTurnKeyOrder ∧
      runtimeTurnKeyOrder ⊆ keys ∧
      staged = Utf8.encode (String.ofList (turnText c keys)) := by
    cases hold with
    | empty =>
        cases hnew
        exact ⟨runtimeTurnKeyOrder, List.Subset.refl _, List.Subset.refl _, rfl⟩
    | complete hfile hold =>
        obtain ⟨old, hread, hkeys⟩ := completeEnvironment_ok hold
        rw [hfile] at hread
        exact ⟨old.map Prod.fst, (keys_of_hasKeys hkeys).1, (keys_of_hasKeys hkeys).2,
          replaceTurnValues_eq hnew rfl hread (keys_of_hasKeys hkeys).1⟩
  have heq := values_of_turnText hsound hkeys hbody hvalues
  refine ⟨⟨values, hvalues, ?_⟩, ⟨out, hvalid⟩⟩
  intro key value
  rw [heq, List.mem_map]
  constructor
  · rintro ⟨k, hk, hpair⟩
    cases hpair
    exact ⟨hkeys hk, rfl⟩
  · rintro ⟨hk, rfl⟩
    exact ⟨key, hall hk, rfl⟩

end TurnRefresh

end GateController

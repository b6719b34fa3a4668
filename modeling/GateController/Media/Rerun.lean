import GateController.Effects.Alone
import GateController.Media.Migration
import Mathlib.Data.Set.Finite.Basic

/-!
# Migrating again

A migration that was cut short or has failed is run again.  Left alone, and with no call failing,
the new run comes to its end, wherever the earlier ones stopped.  It leaves the files that one
run without a failure would have left (`migrated_in_any_run`).

A run comes to its end only if nothing that it has to write is longer than a file may be.
-/

namespace GateController

open Data Effects

namespace MediaConfig

/-! ## Surroundings in which nothing fails -/

open Classical in
/-- A name that nobody has. -/
noncomputable def fresh (s : MigrateState) : String :=
  if h : ∃ name, s.owner name = none then h.choose else ""

/-- Nothing fails, and every write takes all of its bytes. -/
noncomputable def calmEnv (e : MigrateEff) (s : MigrateState) : MigrateEnv where
  name := fresh s
  count :=
    match e with
    | .write _ body => body.length
    | _ => 0

/-- What an operation does then. -/
noncomputable def calm (p : Splitter) (c : CallId) (e : MigrateEff) (s : MigrateState) :
    Except MigrateError e.Ans × MigrateState :=
  (migrateExec p c (calmEnv e s) s e).getD (.error .os, s)

/-- There is always another name. -/
def Spare (s : MigrateState) : Prop := {name | s.owner name = none}.Infinite

/-- The same files and names, whatever the temporary files. -/
structure Beside (s s' : MigrateState) : Prop where
  gateway : s'.gateway = s.gateway
  runtime : s'.runtime = s.runtime
  owner : s'.owner = s.owner

section Calm

variable {p : Splitter} {c : CallId} {s s' : MigrateState} {name : String} {target : Target}
  {body content : List UInt8}

theorem owner_fresh (h : Spare s) : s.owner (fresh s) = none := by
  have hex : ∃ name, s.owner name = none := h.nonempty
  rw [fresh, dif_pos hex]
  exact hex.choose_spec

theorem Spare.update (h : Spare s) (name : String) (d : CallId) :
    Spare { s with owner := Function.update s.owner name (some d) } := by
  refine (h.sdiff (Set.finite_singleton name)).mono fun other hother => ?_
  show Function.update s.owner name (some d) other = none
  rw [Function.update_of_ne hother.2]
  exact hother.1

theorem Spare.of_owner (h : Spare s) (howner : s'.owner = s.owner) : Spare s' := by
  rw [Spare, howner]
  exact h

/-- No operation waits, and another name is left. -/
theorem calm_exec (e : MigrateEff) (h : Spare s) :
    migrateExec p c (calmEnv e s) s e = some (calm p c e s) ∧ Spare (calm p c e s).2 := by
  cases e with
  | read target => exact ⟨rfl, h⟩
  | stat target => exact ⟨rfl, h⟩
  | token =>
      have hexec : migrateExec p c (calmEnv .token s) s .token =
          some (.ok (fresh s), { s with owner := Function.update s.owner (fresh s) (some c) }) := by
        simp only [migrateExec, calmEnv, owner_fresh h]
        rfl
      rw [calm, hexec]
      exact ⟨rfl, h.update _ _⟩
  | openDirectory target => cases target <;> exact ⟨rfl, h⟩
  | create name => exact ⟨rfl, h⟩
  | fchmod name => exact ⟨rfl, h⟩
  | write name body => exact ⟨rfl, h⟩
  | fsync name => exact ⟨rfl, h⟩
  | close name => exact ⟨rfl, h⟩
  | replace name target =>
      rw [calm]
      cases hfile : s.temporaries name with
      | none =>
          simp only [migrateExec, hfile]
          exact ⟨rfl, h⟩
      | some body =>
          simp only [migrateExec, hfile]
          cases target <;> exact ⟨rfl, h⟩
  | fsyncDirectory target => exact ⟨rfl, h⟩
  | unlink name => exact ⟨rfl, h⟩
  | closeDirectory target => exact ⟨rfl, h⟩

theorem calm_token (h : Spare s) : calm p c .token s =
    (.ok (fresh s), { s with owner := Function.update s.owner (fresh s) (some c) }) := by
  rw [calm]
  simp only [migrateExec, calmEnv, owner_fresh h]
  rfl

theorem calm_write : calm p c (.write name body) s = (.ok body.length, { s with
    temporaries := s.temporaries.modify name (· ++ body) }) := by
  rw [calm]
  simp only [migrateExec, calmEnv, Nat.min_self, List.take_length]
  rfl

theorem calm_replace (hfile : s.temporaries name = some body) :
    calm p c (.replace name target) s = (.ok (), { s.setFile (writtenFile body) target with
      temporaries := s.temporaries.remove name }) := by
  rw [calm]
  simp only [migrateExec, calmEnv, hfile]
  rfl

/-- The loop comes to its end with all of the bytes written. -/
theorem writeAll_calm (rounds : Nat) (hrounds : body.length ≤ rounds)
    (hfile : s.temporaries name = some content) :
    ∃ s', runAlone (calm p c) (writeAll name rounds body) s = (.ok (), s') ∧ Beside s s' ∧
      s'.temporaries name = some (content ++ body) := by
  by_cases hempty : body = []
  · subst hempty
    refine ⟨s, ?_, ⟨rfl, rfl, rfl⟩, by rw [List.append_nil]; exact hfile⟩
    cases rounds <;> rfl
  · have hlength : body.length ≠ 0 := by
      rw [Ne, List.length_eq_zero_iff]
      exact hempty
    obtain ⟨rest, rfl⟩ := Nat.exists_eq_succ_of_ne_zero (n := rounds) (by omega)
    refine ⟨{ s with temporaries := s.temporaries.modify name (· ++ body) }, ?_, ⟨rfl, rfl, rfl⟩,
      ?_⟩
    · have hisEmpty : body.isEmpty = false := by
        rw [List.isEmpty_eq_false_iff]
        exact hempty
      have hop : runAlone (calm p c) (migrateOp (.write name body)) s =
          (.ok body.length, { s with temporaries := s.temporaries.modify name (· ++ body) }) :=
        runAlone_perform.trans calm_write
      rw [writeAll, hisEmpty, if_neg Bool.false_ne_true, runAlone_bind_ok hop, if_neg hlength,
        List.drop_length]
      cases rest <;> rfl
    · show Files.modify name (· ++ body) s.temporaries name = _
      rw [Files.modify, Function.update_self, hfile]
      rfl

theorem fillTemporary_calm (body : List UInt8) (hfile : s.temporaries name = some []) :
    ∃ s', runAlone (calm p c) (fillTemporary name body) s = (.ok (), s') ∧ Beside s s' ∧
      s'.temporaries name = some body := by
  obtain ⟨s', hrun, hbeside, hfilled⟩ := writeAll_calm (p := p) (c := c) _ (Nat.le_refl _) hfile
  refine ⟨s', ?_, hbeside, hfilled⟩
  have hfchmod : runAlone (calm p c) (migrateOp (.fchmod name)) s = (.ok (), s) := rfl
  rw [fillTemporary, runAlone_bind_ok hfchmod, runAlone_bind_ok hrun]
  rfl

/-- A write replaces the file, and leaves the other. -/
theorem atomicWriteEnvironment_calm (hspare : Spare s) (hmay : MayWrite p target)
    (hne : body ≠ []) (hfits : body.length ≤ maxConfigBytes) :
    ∃ s', runAlone (calm p c) (atomicWriteEnvironment target body) s = (.ok (), s') ∧ Spare s' ∧
      s'.gateway = (s.setFile (writtenFile body) target).gateway ∧
      s'.runtime = (s.setFile (writtenFile body) target).runtime := by
  have hchecks : (body.isEmpty || decide (maxConfigBytes < body.length)) = false := by
    rw [Bool.or_eq_false_iff, List.isEmpty_eq_false_iff, decide_eq_false_iff_not, Nat.not_lt]
    exact ⟨hne, hfits⟩
  have htoken : runAlone (calm p c) (migrateOp .token) s =
      (.ok (fresh s), { s with owner := Function.update s.owner (fresh s) (some c) }) :=
    runAlone_perform.trans (calm_token hspare)
  generalize fresh s = name at htoken
  have hspare₁ : Spare { s with owner := Function.update s.owner name (some c) } :=
    hspare.update name c
  have hopen : runAlone (calm p c) (migrateOp (.openDirectory target)).attempt
      { s with owner := Function.update s.owner name (some c) } =
        (.ok (.ok ()), { s with owner := Function.update s.owner name (some c) }) := by
    refine runAlone_attempt (runAlone_perform.trans ?_)
    cases target with
    | gateway => rfl
    | runtimeTurn =>
        rw [calm]
        simp only [migrateExec, calmEnv, hmay rfl]
        rfl
  generalize hs₁ : { s with owner := Function.update s.owner name (some c) } = s₁ at *
  have hcreate : runAlone (calm p c) (migrateOp (.create name)).attempt s₁ =
      (.ok (.ok ()), { s₁ with temporaries := s₁.temporaries.put name [] }) :=
    runAlone_attempt rfl
  obtain ⟨s₂, hfill, hbeside, hfilled⟩ := fillTemporary_calm (p := p) (c := c) body
    (s := { s₁ with temporaries := s₁.temporaries.put name [] }) (Files.put_self [])
  have hreplace : runAlone (calm p c) (installTemporary target name).attempt s₂ =
      (.ok (.ok ()), { s₂.setFile (writtenFile body) target with
        temporaries := s₂.temporaries.remove name }) := by
    refine runAlone_attempt ?_
    have hop : runAlone (calm p c) (migrateOp (.replace name target)) s₂ =
        (.ok (), { s₂.setFile (writtenFile body) target with
          temporaries := s₂.temporaries.remove name }) :=
      runAlone_perform.trans (calm_replace hfilled)
    rw [installTemporary, runAlone_bind_ok hop]
    rfl
  have hwrite : runAlone (calm p c) (writeTemporary target name body) s₁ =
      (.ok (.ok (), false), { s₂.setFile (writtenFile body) target with
        temporaries := s₂.temporaries.remove name }) := by
    rw [writeTemporary, runAlone_bind_ok hcreate]
    dsimp only
    rw [runAlone_bind_ok (runAlone_attempt hfill)]
    dsimp only
    rw [runAlone_bind_ok hreplace]
    rfl
  refine ⟨{ s₂.setFile (writtenFile body) target with
    temporaries := (s₂.temporaries.remove name).remove name }, ?_, ?_, ?_, ?_⟩
  · rw [atomicWriteEnvironment, hchecks, if_neg Bool.false_ne_true, runAlone_bind_ok htoken]
    dsimp only
    rw [runAlone_bind_ok hopen]
    dsimp only
    rw [runAlone_bind_ok hwrite]
    rfl
  · refine hspare₁.of_owner ?_
    cases target <;> exact hbeside.owner
  · subst hs₁
    cases target with
    | gateway => rfl
    | runtimeTurn => exact hbeside.gateway
  · subst hs₁
    cases target with
    | gateway => exact hbeside.runtime
    | runtimeTurn => rfl

/-! ## A run that nothing disturbs -/

theorem stat_calm : runAlone (calm p c) (migrateOp (.stat .runtimeTurn)) s =
    (.ok s.runtime, s) := rfl

theorem read_calm : runAlone (calm p c) (migrateOp (.read .runtimeTurn)) s =
    (.ok (p.seen s.runtime), s) := rfl

/-- A write of values that are there. -/
theorem writeValues_calm {values : Values} (target : Target) (order : List String)
    (hspare : Spare s) (hmay : MayWrite p target) (hne : order ≠ [])
    (hfits : (bodyOf (select values order)).length ≤ maxConfigBytes) :
    ∃ s', runAlone (calm p c) (atomicWriteEnvironment target (bodyOf (select values order))) s =
      (.ok (), s') ∧ Spare s' := by
  have hbody : bodyOf (select values order) ≠ [] := bodyOf_ne_nil (select_ne_nil hne)
  obtain ⟨s', hrun, hspare', -, -⟩ := atomicWriteEnvironment_calm (c := c) hspare hmay hbody hfits
  exact ⟨s', hrun, hspare'⟩

theorem splitCombined_calm {values turn : Values}
    (hvalid : validateGatewayEnvironment p.lib values = .ok values)
    (hruntime : ∃ s', runAlone (calm p c) (splitRuntime p values) s = (.ok turn, s') ∧ Spare s')
    (hturn : validateRuntimeTurnEnvironment p.lib turn = .ok turn)
    (hfits : (bodyOf (select values gatewayStaticKeyOrder)).length ≤ maxConfigBytes) :
    ∃ s', runAlone (calm p c) (splitCombined p values) s = (.ok (), s') := by
  obtain ⟨-, -, hstatic, -⟩ := validateGatewayEnvironment_parts hvalid
  obtain ⟨s₁, hrun, hspare₁⟩ := hruntime
  obtain ⟨s₂, hwrite, -⟩ := writeValues_calm (p := p) (c := c) .gateway gatewayStaticKeyOrder
    hspare₁ (fun h => by cases h) (by decide) hfits
  refine ⟨s₂, ?_⟩
  rw [splitCombined, runAlone_ofExcept_bind (checked_of hvalid)]
  dsimp only
  rw [runAlone_bind_ok hrun, runAlone_ofExcept_bind (checked_of
    (validateSplitGatewayEnvironment_ok hstatic hturn)), runAlone_ofExcept_bind serialized_select]
  exact hwrite

theorem splitRuntime_calm_kept {values turn : Values} (hspare : Spare s)
    (hcontent : trustedFileHasContent s.runtime = .ok true)
    (hparse : parseTrustedEnvironment (p.seen s.runtime) = .ok turn)
    (hturn : validateRuntimeTurnEnvironment p.lib turn = .ok turn) :
    ∃ s', runAlone (calm p c) (splitRuntime p values) s = (.ok turn, s') ∧ Spare s' := by
  refine ⟨s, ?_, hspare⟩
  rw [splitRuntime, runAlone_bind_ok stat_calm, runAlone_ofExcept_bind (checked_of hcontent),
    if_pos rfl, runAlone_bind_ok read_calm, runAlone_ofExcept_bind (checked_of hparse), hturn]
  rfl

theorem splitRuntime_calm_moved {values : Values} (hspare : Spare s)
    (hempty : trustedFileHasContent s.runtime = .ok false) (howner : p.ownerControlled = true)
    (hfits : (bodyOf (select values runtimeTurnKeyOrder)).length ≤ maxConfigBytes) :
    ∃ s', runAlone (calm p c) (splitRuntime p values) s =
      (.ok (select values runtimeTurnKeyOrder), s') ∧ Spare s' := by
  obtain ⟨s', hwrite, hspare'⟩ := writeValues_calm (p := p) (c := c) .runtimeTurn
    runtimeTurnKeyOrder hspare (fun _ => howner) (by decide) hfits
  refine ⟨s', ?_, hspare'⟩
  rw [splitRuntime, runAlone_bind_ok stat_calm, runAlone_ofExcept_bind (checked_of hempty),
    if_neg Bool.false_ne_true]
  dsimp only
  rw [runAlone_ofExcept_bind serialized_select, runAlone_bind_ok hwrite]
  rfl

theorem checkRuntime_calm {static : Values}
    (hstatic : validateGatewayStaticEnvironment p.lib static = .ok static)
    (hagrees : RuntimeAgrees p s.runtime) :
    runAlone (calm p c) (checkRuntime p static) s = (.ok (), s) := by
  rcases hagrees with hempty | ⟨hcontent, turn, hparse, hturn⟩
  · rw [checkRuntime, runAlone_bind_ok stat_calm, runAlone_ofExcept_bind (checked_of hempty)]
    rfl
  · rw [checkRuntime, runAlone_bind_ok stat_calm, runAlone_ofExcept_bind (checked_of hcontent),
      if_pos rfl, runAlone_bind_ok read_calm, runAlone_ofExcept_bind (checked_of hparse),
      runAlone_ofExcept_bind (checked_of (validateSplitGatewayEnvironment_ok hstatic hturn))]
    rfl

theorem keepStatic_calm {values : Values} {changed : Bool} (hspare : Spare s)
    (hvalid : validateGatewayStaticEnvironment p.lib values = .ok values)
    (hagrees : RuntimeAgrees p s.runtime)
    (hfits : changed = true →
      (bodyOf (select values gatewayStaticKeyOrder)).length ≤ maxConfigBytes) :
    ∃ s', runAlone (calm p c) (keepStatic p values changed) s = (.ok (), s') := by
  have hkeys := (keys_of_static hvalid).2
  have hrequire : checked (require (hasKeys values gatewayStaticKeyOrder)
      "gateway environment has missing or forbidden keys") = .ok () := by
    rw [hkeys]
    rfl
  rw [keepStatic, runAlone_ofExcept_bind hrequire, runAlone_ofExcept_bind (checked_of hvalid),
    runAlone_bind_ok (checkRuntime_calm hvalid hagrees)]
  cases changed with
  | false => exact ⟨s, rfl⟩
  | true =>
      obtain ⟨s', hwrite, -⟩ := writeValues_calm (p := p) (c := c) .gateway
        gatewayStaticKeyOrder hspare (fun h => by cases h) (by decide) (hfits rfl)
      refine ⟨s', ?_⟩
      rw [if_pos rfl, runAlone_ofExcept_bind
        (serialized_eq (TurnRefresh.keys_of_hasKeys hkeys).2)]
      exact hwrite

/-- Where there is a plan, and all that it writes is short enough, a run comes to its end. -/
theorem migrateGatewayEnvironments_calm {t : Plan} (hspare : Spare s)
    (hplan : plan p s.gateway s.runtime = .ok t) (hfits : t.Fits) :
    ∃ s', runAlone (calm p c) (migrateGatewayEnvironments p) s = (.ok (), s') := by
  have hread₀ : runAlone (calm p c) (migrateOp (.read .gateway)) s = (.ok s.gateway, s) := rfl
  rw [migrateGatewayEnvironments, runAlone_bind_ok hread₀]
  cases planned_of_plan hplan with
  | @combined values changed hread hvalid hempty howner =>
      obtain ⟨-, hkeys, -, hturn⟩ := validateGatewayEnvironment_parts hvalid
      rw [runAlone_ofExcept_bind hread]
      dsimp only
      rw [if_pos hkeys]
      exact splitCombined_calm hvalid
        (splitRuntime_calm_moved hspare hempty howner (hfits.2 _ rfl)) hturn (hfits.1 _ rfl)
  | @kept values turn changed hread hvalid hcontent hparse hturn =>
      rw [runAlone_ofExcept_bind hread]
      dsimp only
      rw [if_pos (keys_of_gateway hvalid)]
      exact splitCombined_calm hvalid
        (splitRuntime_calm_kept hspare hcontent hparse hturn) hturn (hfits.1 _ rfl)
  | @static values changed hread hvalid hagrees =>
      rw [runAlone_ofExcept_bind hread]
      dsimp only
      rw [if_neg (by simp [not_gatewayKeys hvalid])]
      exact keepStatic_calm hspare hvalid hagrees fun hchanged => hfits.1 _ (if_pos hchanged)

end Calm

/-! ## Another run -/

/-- Names are left after any run. -/
theorem spare_run (p : Splitter) {st : MigrateState} (hspare : Spare st)
    (l : List (Choice MigrateEnv Unit)) :
    Spare ((migrations p).run (World.init st) l).state := by
  refine Machine.run_state (migrations p) (fun c call s s' hs' h => ?_)
    (fun c e env s r s' hs' h => ?_) (fun _ _ _ h => h) l (World.init st) hspare
  · cases hs'
    exact h
  · have howner : s'.owner = s.owner ∨
        ∃ name, s'.owner = Function.update s.owner name (some c) := by
      change migrateExec p c env s e = some (r, s') at hs'
      cases e with
      | token =>
          simp only [migrateExec] at hs'
          split at hs'
          next => cases hs'
          next =>
            cases hs'
            exact .inr ⟨env.name, rfl⟩
      | read target =>
          cases hs'
          exact .inl rfl
      | stat target =>
          cases hs'
          exact .inl rfl
      | openDirectory target =>
          simp only [migrateExec] at hs'
          split at hs'
          next =>
            cases hs'
            exact .inl rfl
          next =>
            cases target <;> cases hs' <;> exact .inl rfl
      | create name =>
          simp only [migrateExec] at hs'
          split at hs' <;> cases hs' <;> exact .inl rfl
      | fchmod name => exact .inl (congrArg MigrateState.owner (unseen_state hs'))
      | write name body =>
          simp only [migrateExec] at hs'
          split at hs' <;> cases hs' <;> exact .inl rfl
      | fsync name => exact .inl (congrArg MigrateState.owner (unseen_state hs'))
      | close name => exact .inl (congrArg MigrateState.owner (unseen_state hs'))
      | replace name target =>
          simp only [migrateExec] at hs'
          split at hs'
          next =>
            cases hs'
            exact .inl rfl
          next =>
            split at hs'
            next =>
              cases hs'
              exact .inl rfl
            next => cases target <;> cases hs' <;> exact .inl rfl
      | fsyncDirectory target => exact .inl (congrArg MigrateState.owner (unseen_state hs'))
      | unlink name =>
          simp only [migrateExec] at hs'
          split at hs' <;> cases hs' <;> exact .inl rfl
      | closeDirectory target => exact .inl (congrArg MigrateState.owner (unseen_state hs'))
    rcases howner with howner | ⟨name, howner⟩
    · exact h.of_owner howner
    · exact (h.update name c).of_owner howner

/-- What is left to do at a stage is planned, and short enough. -/
theorem plan_stage {p : Splitter} {gateway runtime : Option File} {t : Plan} {n : Nat}
    (hplan : plan p gateway runtime = .ok t) (hfits : t.Fits) :
    ∃ t', plan p (stage p gateway runtime n).1 (stage p gateway runtime n).2 = .ok t' ∧
      t'.Fits := by
  have hgoal := goal_eq hplan
  match n with
  | 0 => exact ⟨t, hplan, hfits⟩
  | 1 =>
      rw [stage, hgoal]
      exact ⟨_, ((planned_of_plan hplan).afterRuntime hfits.2).plan, hfits.1,
        fun _ h => by cases h⟩
  | _ + 2 =>
      rw [stage, hgoal]
      exact ⟨_, ((planned_of_plan hplan).settled hfits).plan, fun _ h => (by cases h),
        fun _ h => by cases h⟩

/-- After any runs that were cut short, have failed or overlap, another run that is left alone, with
no call failing, comes to its end and leaves what one run would have left. -/
theorem rerun_migrates (p : Splitter) (st : MigrateState) (hspare : Spare st) (t : Plan)
    (hplan : plan p st.gateway st.runtime = .ok t) (hfits : t.Fits)
    (l : List (Choice MigrateEnv Unit)) (c : CallId)
    (hfresh : ¬ Begun c ((migrations p).run (World.init st) l).log) :
    ∃ l', .ended c (.ok ()) ∈ ((migrations p).run (World.init st) (l ++ .begin c () :: l')).log ∧
      ((migrations p).run (World.init st) (l ++ .begin c () :: l')).state.gateway =
        afterWrite st.gateway t.gateway ∧
      ((migrations p).run (World.init st) (l ++ .begin c () :: l')).state.runtime =
        afterWrite st.runtime t.runtime := by
  have hsound := fun l => ((migrations_sound p st.gateway st.runtime).run
    (Sound.init _ _ st) (migrating_init p st) (Machine.admits_true _ l)).2
  have hspare' := spare_run p hspare l
  obtain ⟨n, hat⟩ := hsound l
  obtain ⟨t', hplan', hfits'⟩ := plan_stage (n := n) hplan hfits
  rw [← hat.gateway_eq, ← hat.runtime_eq] at hplan'
  obtain ⟨s', halone⟩ := migrateGatewayEnvironments_calm (c := c) hspare' hplan' hfits'
  generalize hw : (migrations p).run (World.init st) l = w at *
  have hbegin : (migrations p).step w (.begin c ()) =
      ⟨w.state, setRunning w.running c (some (migrateGatewayEnvironments p)),
        .began c () :: w.log⟩ := by
    rw [Machine.step, if_neg hfresh]
    rfl
  obtain ⟨l', hended, -⟩ := (migrations p).run_alone (K := Spare) (fun e s h => calm_exec e h) {}
    (migrateGatewayEnvironments p) ((migrations p).step w (.begin c ()))
    (by rw [hbegin]; exact hspare') (by rw [hbegin]; exact setRunning_self _ _ _)
  have hrun : (migrations p).run (World.init st) (l ++ .begin c () :: l') =
      (migrations p).run ((migrations p).step w (.begin c ())) l' := by
    rw [Machine.run_append, hw, Machine.run]
  rw [hbegin, halone, ← hbegin] at hended
  obtain ⟨m, hlast⟩ := hsound (l ++ .begin c () :: l')
  rw [← hrun] at hended
  obtain ⟨hfinal, -⟩ := hlast.ended c hended
  have hfiles := hlast.files.trans hfinal
  rw [stage, goal_eq hplan] at hfiles
  exact ⟨l', hended, Prod.mk.inj hfiles⟩

/-! ### One file under the older key -/

namespace Older

/-- The text of assignments, as a file. -/
def file (values : Values) : File := writtenFile (bodyOf values)

theorem isDigit_not_space (c : Char) (h : c.isDigit = true) : Text.isSpace c = false :=
  Text.not_isSpace_of_isAlphanum (Bool.or_eq_true_iff.2 (.inr h))

/-- The functions of the standard library, on what the file below has in it. -/
def splitter : Splitter where
  lib := {
    urlsplit := fun url =>
      if url = "rtsp://camera/gate_sub" then
        some ⟨"rtsp", some "camera", some none, "/gate_sub", ""⟩
      else if url = "rtsp://camera/gate_main" then
        some ⟨"rtsp", some "camera", some none, "/gate_main", ""⟩
      else none
    ipAddress := fun address =>
      if address = "192.168.1.2" then
        some ⟨"192.168.1.2", false, false, false, false, false, true⟩
      else none
    int := fun number =>
      if number = "8189" then some 8189 else if number = "3478" then some 3478 else none
    isDecimal := Char.isDigit
    isDecimal_not_space := isDigit_not_space }
  replacePath _ path := "rtsp://camera" ++ path
  ownerControlled := true

/-- The settings and the values of the relay, in one file. -/
def before : Values :=
  [("MTX_PATHS_GATE_SOURCE", "rtsp://camera/gate_sub"),
    ("MTX_WEBRTCLOCALUDPADDRESS", "192.168.1.2:8189"),
    ("MTX_WEBRTCLOCALTCPADDRESS", "192.168.1.2:8189"),
    ("MTX_WEBRTCADDITIONALHOSTS", "192.168.1.2"),
    ("MTX_WEBRTCICESERVERS2_0_CLIENTONLY", "false"),
    ("MTX_WEBRTCICESERVERS2_0_URL", "turn:relay.example:3478?transport=udp"),
    ("MTX_WEBRTCICESERVERS2_0_USERNAME", "user"),
    ("MTX_WEBRTCICESERVERS2_0_PASSWORD", "password")]

/-- The same under the keys of today. -/
def after : Values :=
  before.tail ++ [("MTX_PATHS_CAMERA_SOURCE", "rtsp://camera/gate_sub"),
    ("MTX_PATHS_CLEAR_SOURCE", "rtsp://camera/gate_main")]

/-- What is written is short enough. -/
def short (values : Values) : Bool :=
  decide (((writtenText values).flatMap String.utf8EncodeChar).length ≤ maxConfigBytes)

theorem all_short : short before = true ∧ short (select after gatewayStaticKeyOrder) = true ∧
    short (select after runtimeTurnKeyOrder) = true := by
  decide +kernel

theorem length_of_short {values : Values} (h : short values = true) :
    (bodyOf values).length ≤ maxConfigBytes := by
  rw [bodyOf, Utf8.encode_ofList]
  exact of_decide_eq_true h

theorem before_writable : Writable before := .of_check (by decide) (by decide +kernel)

theorem after_writable : Writable after := .of_check (by decide) (by decide +kernel)

theorem migrated_before : migratedValues splitter (some (file before)) = .ok (after, true) := by
  rw [migratedValues, file, parse_writtenFile before_writable (by decide)
    (length_of_short all_short.1), checked_of rfl]
  rfl

theorem valid_after : validateGatewayEnvironment splitter.lib after = .ok after := by
  have hsub : ∀ order ∈ [gatewayStaticKeyOrder, runtimeTurnKeyOrder],
      order ⊆ after.map Prod.fst := by
    decide
  have hstatic := select_effective after_writable.effective (hsub gatewayStaticKeyOrder (by simp))
  have hturn := select_effective after_writable.effective (hsub runtimeTurnKeyOrder (by simp))
  have hkeys : hasKeys after gatewayKeys = true := by decide
  have hvalidStatic : validateGatewayStaticEnvironment splitter.lib
      (select after gatewayStaticKeyOrder) = .ok (select after gatewayStaticKeyOrder) := by
    rw [validateGatewayStaticEnvironment, hstatic]
    rfl
  have hvalidTurn : validateRuntimeTurnEnvironment splitter.lib
      (select after runtimeTurnKeyOrder) = .ok (select after runtimeTurnKeyOrder) := by
    rw [validateRuntimeTurnEnvironment, hturn]
    rfl
  rw [validateGatewayEnvironment, after_writable.effective, hkeys]
  dsimp only [bind, Except.bind, require]
  rw [if_pos rfl]
  dsimp only
  rw [hvalidStatic]
  dsimp only
  rw [hvalidTurn]
  rfl

/-- The file of the relay is there, and empty. -/
def start : MigrateState where
  gateway := some (file before)
  runtime := some { body := [] }
  temporaries _ := none
  owner _ := none

/-- The new files. -/
def planned : Plan where
  gateway := some (bodyOf (select after gatewayStaticKeyOrder))
  runtime := some (bodyOf (select after runtimeTurnKeyOrder))

theorem plan_start : plan splitter start.gateway start.runtime = .ok planned :=
  Planned.plan (.combined migrated_before valid_after rfl rfl)

/-- A run that is cut short in the middle of its first write. -/
def cutShort : List (Choice MigrateEnv Unit) :=
  .begin ⟨0, 0⟩ () :: List.replicate 6 (.step ⟨0, 0⟩ { name := "0", count := 100 }) ++
    [.crash 0 {}]

theorem fits_of {static turn : List UInt8} (hstatic : static.length ≤ maxConfigBytes)
    (hturn : turn.length ≤ maxConfigBytes) :
    Plan.Fits { gateway := some static, runtime := some turn } :=
  ⟨fun _ h => Option.some.inj h ▸ hstatic, fun _ h => Option.some.inj h ▸ hturn⟩

theorem spare_start : Spare start := by
  have hall : {name | start.owner name = none} = Set.univ := Set.eq_univ_of_forall fun _ => rfl
  rw [Spare, hall]
  exact Set.infinite_univ

theorem not_begin_cutShort (call : Unit) : .begin ⟨1, 0⟩ call ∉ cutShort := by
  simp [cutShort]

theorem cutShort_fresh : ¬ Begun ⟨1, 0⟩
    ((migrations splitter).run (World.init start) cutShort).log :=
  (migrations splitter).not_begun cutShort start not_begin_cutShort

theorem rerun_migrates_cutShort : ∃ l',
    .ended ⟨1, 0⟩ (.ok ()) ∈
      ((migrations splitter).run (World.init start) (cutShort ++ .begin ⟨1, 0⟩ () :: l')).log ∧
    ((migrations splitter).run (World.init start)
      (cutShort ++ .begin ⟨1, 0⟩ () :: l')).state.gateway =
        afterWrite start.gateway planned.gateway ∧
    ((migrations splitter).run (World.init start)
      (cutShort ++ .begin ⟨1, 0⟩ () :: l')).state.runtime =
        afterWrite start.runtime planned.runtime :=
  rerun_migrates splitter start spare_start planned plan_start
    (fits_of (length_of_short all_short.2.1) (length_of_short all_short.2.2)) cutShort ⟨1, 0⟩
    cutShort_fresh

end Older

end MediaConfig

end GateController

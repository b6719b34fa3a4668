import GateController.Effects.Crash
import GateController.Effects.System

/-!
# A call that is left alone

What a program comes to by itself (`runAlone`), a call of a machine comes to when nothing else is
scheduled.  So a statement about one program without interleavings is a statement about a
continuation of any run.
-/

namespace Effects

variable {E : Type} {Ans : E → Type} {ε Env σ Call ρ α β : Type}

section Alone

variable {exec : (e : E) → σ → Except ε (Ans e) × σ} {s s' : σ}

theorem runAlone_bind_ok {p : Prog E Ans ε α} {f : α → Prog E Ans ε β} {a : α}
    (h : runAlone exec p s = (.ok a, s')) :
    runAlone exec (p >>= f) s = runAlone exec (f a) s' := by
  induction p generalizing s with
  | ret b =>
      cases h
      rfl
  | raise x => cases h
  | call e k ih => exact ih _ h

theorem runAlone_attempt {p : Prog E Ans ε α} {r : Except ε α} (h : runAlone exec p s = (r, s')) :
    runAlone exec p.attempt s = (.ok r, s') := by
  induction p generalizing s with
  | ret b =>
      cases h
      rfl
  | raise x =>
      cases h
      rfl
  | call e k ih => exact ih _ h

theorem runAlone_perform {e : E} : runAlone exec (Prog.perform e) s = exec e s := by
  rw [Prog.perform, runAlone]
  cases h : (exec e s).1 with
  | error x => exact Prod.ext h.symm rfl
  | ok a => exact Prod.ext h.symm rfl

theorem runAlone_ofExcept_bind {r : Except ε α} {f : α → Prog E Ans ε β} {a : α}
    (h : r = .ok a) : runAlone exec (Prog.ofExcept r >>= f) s = runAlone exec (f a) s := by
  rw [h]
  rfl

end Alone

/-- A call that is left alone, in surroundings that let its operations go on, comes to what its
program comes to. -/
theorem Machine.run_alone (M : Machine E Ans ε Env σ Call ρ) {c : CallId} {K : σ → Prop}
    {exec : (e : E) → σ → Except ε (Ans e) × σ} {env : (e : E) → σ → Env}
    (hexec : ∀ e s, K s → M.exec c e (env e s) s = some (exec e s) ∧ K (exec e s).2) (idle : Env)
    (p : Prog E Ans ε ρ) (w : World E Ans ε σ Call ρ) (hK : K w.state)
    (hrun : w.running c = some p) :
    ∃ l, .ended c (runAlone exec p w.state).1 ∈ (M.run w l).log ∧
      (M.run w l).state = (runAlone exec p w.state).2 := by
  induction p generalizing w with
  | ret a =>
      refine ⟨[.step c idle], ?_⟩
      rw [Machine.run, Machine.run, Machine.step, hrun]
      exact ⟨List.mem_cons_self, rfl⟩
  | raise x =>
      refine ⟨[.step c idle], ?_⟩
      rw [Machine.run, Machine.run, Machine.step, hrun]
      exact ⟨List.mem_cons_self, rfl⟩
  | call e k ih =>
      obtain ⟨hstep, hK'⟩ := hexec e w.state hK
      have hw : M.step w (.step c (env e w.state)) =
          ⟨(exec e w.state).2, setRunning w.running c (some (k (exec e w.state).1)),
            .did c e (exec e w.state).1 :: w.log⟩ := by
        rw [Machine.step, hrun]
        dsimp only
        rw [Machine.advance, hstep]
      obtain ⟨l, hended, hstate⟩ := ih (exec e w.state).1
        (M.step w (.step c (env e w.state))) (by rw [hw]; exact hK') (by
          rw [hw]
          exact setRunning_self _ _ _)
      refine ⟨.step c (env e w.state) :: l, ?_, ?_⟩
      · rw [Machine.run]
        rw [hw] at hended ⊢
        exact hended
      · rw [Machine.run]
        rw [hw] at hstate ⊢
        exact hstate

/-- What every operation, beginning and crash keeps of the state, a run keeps. -/
theorem Machine.run_state (M : Machine E Ans ε Env σ Call ρ) {K : σ → Prop}
    (haccept : ∀ c call s s', M.accept c call s = some s' → K s → K s')
    (hexec : ∀ c e env s r s', M.exec c e env s = some (r, s') → K s → K s')
    (hcrash : ∀ p env s, K s → K (M.crash p env s)) (l : List (Choice Env Call))
    (w : World E Ans ε σ Call ρ) (h : K w.state) : K (M.run w l).state := by
  induction l generalizing w with
  | nil => exact h
  | cons ch rest ih =>
      refine ih (M.step w ch) ?_
      cases ch with
      | begin c call =>
          rw [Machine.step]
          split
          next => exact h
          next =>
            split
            next => exact h
            next s' hs' => exact haccept c call w.state s' hs' h
      | step c env =>
          rw [Machine.step]
          split
          next => exact h
          next p _ =>
            cases p with
            | ret a => exact h
            | raise x => exact h
            | call e k =>
                rw [Machine.advance]
                split
                next => exact h
                next r s' hs' => exact hexec c e env w.state r s' hs' h
      | crash p env => exact hcrash p env w.state h

/-- A call begins only if it is told to. -/
theorem Machine.begun_run (M : Machine E Ans ε Env σ Call ρ) {c : CallId}
    (l : List (Choice Env Call)) (w : World E Ans ε σ Call ρ) (h : Begun c (M.run w l).log) :
    Begun c w.log ∨ ∃ call, .begin c call ∈ l := by
  induction l generalizing w with
  | nil => exact .inl h
  | cons ch rest ih =>
      rcases ih (M.step w ch) h with hbegun | ⟨call, hmem⟩
      · cases ch with
        | begin d call =>
            rw [Machine.step] at hbegun
            split at hbegun
            next => exact .inl hbegun
            next =>
              split at hbegun
              next => exact .inl hbegun
              next =>
                rcases hbegun with rfl | hbegun
                · exact .inr ⟨call, List.mem_cons_self⟩
                · exact .inl hbegun
        | step d env =>
            refine .inl ?_
            rw [Machine.step] at hbegun
            split at hbegun
            next => exact hbegun
            next p _ =>
              cases p with
              | ret a => exact hbegun
              | raise x => exact hbegun
              | call e k =>
                  rw [Machine.advance] at hbegun
                  split at hbegun
                  next => exact hbegun
                  next => exact hbegun
        | crash p env => exact .inl hbegun
      · exact .inr ⟨call, List.mem_cons_of_mem ch hmem⟩

theorem Machine.not_begun (M : Machine E Ans ε Env σ Call ρ) {c : CallId}
    (l : List (Choice Env Call)) (st : σ) (h : ∀ call, .begin c call ∉ l) :
    ¬ Begun c (M.run (World.init st) l).log := by
  intro hbegun
  rcases M.begun_run l (World.init st) hbegun with hinit | ⟨call, hmem⟩
  · exact hinit
  · exact h call hmem

end Effects

import GateController.Effects.Prog
import Mathlib.Data.List.Infix

/-!
# Runs that a crash cuts short

One program runs alone over a state that outlives it.  A crash ends the run before any of its
operations, and what was done so far stays.  `Safe` says what holds at every point where a
crash can come and what holds at the end, and its rules follow the program.

Programs that bring a state up to date are made of steps that do nothing once they are done.
A run that was cut short can be taken up from the beginning then: the steps that are done are
passed over, and the result is that of a run without a crash.
-/

namespace Effects

/-! ## Runs -/

section Runs

variable {E : Type} {Ans : E → Type} {ε σ α β : Type}

/-- A run without a crash. -/
def runAlone (exec : (e : E) → σ → Except ε (Ans e) × σ) : Prog E Ans ε α → σ → Except ε α × σ
  | .ret a, s => (.ok a, s)
  | .raise x, s => (.error x, s)
  | .call e k, s => runAlone exec (k (exec e s).1) (exec e s).2

/-- A run that may do a number of operations before it crashes.  Without an outcome it has
crashed. -/
def runFor (exec : (e : E) → σ → Except ε (Ans e) × σ) :
    Nat → Prog E Ans ε α → σ → Option (Except ε α) × σ
  | _, .ret a, s => (some (.ok a), s)
  | _, .raise x, s => (some (.error x), s)
  | 0, .call _ _, s => (none, s)
  | n + 1, .call e k, s => runFor exec n (k (exec e s).1) (exec e s).2

/-- With enough operations a run comes to its end. -/
theorem exists_runFor (exec : (e : E) → σ → Except ε (Ans e) × σ) (p : Prog E Ans ε α) (s : σ) :
    ∃ n, runFor exec n p s = (some (runAlone exec p s).1, (runAlone exec p s).2) := by
  induction p generalizing s with
  | ret a => exact ⟨0, rfl⟩
  | raise x => exact ⟨0, rfl⟩
  | call e k ih =>
      obtain ⟨n, hn⟩ := ih (exec e s).1 (exec e s).2
      exact ⟨n + 1, hn⟩

/-- Wherever the program can crash `Φ` holds, and it ends in `Q`. -/
def Safe (exec : (e : E) → σ → Except ε (Ans e) × σ) (Φ : σ → Prop)
    (Q : Except ε α → σ → Prop) : Prog E Ans ε α → σ → Prop
  | .ret a, s => Q (.ok a) s
  | .raise x, s => Q (.error x) s
  | .call e k, s => Φ s ∧ Safe exec Φ Q (k (exec e s).1) (exec e s).2

variable {exec : (e : E) → σ → Except ε (Ans e) × σ} {Φ : σ → Prop} {s : σ}

namespace Safe

theorem runAlone {p : Prog E Ans ε α} {Q : Except ε α → σ → Prop} (h : Safe exec Φ Q p s) :
    Q (runAlone exec p s).1 (runAlone exec p s).2 := by
  induction p generalizing s with
  | ret a => exact h
  | raise x => exact h
  | call e k ih => exact ih _ h.2

/-- A run either crashes where it may, or comes to its end. -/
theorem runFor {p : Prog E Ans ε α} {Q : Except ε α → σ → Prop} (h : Safe exec Φ Q p s) (n : Nat)
    {r : Option (Except ε α)} {s' : σ} (hrun : runFor exec n p s = (r, s')) :
    (r = none ∧ Φ s') ∨ ∃ outcome, r = some outcome ∧ Q outcome s' := by
  induction p generalizing s n with
  | ret a =>
      cases n <;> cases hrun <;> exact .inr ⟨_, rfl, h⟩
  | raise x =>
      cases n <;> cases hrun <;> exact .inr ⟨_, rfl, h⟩
  | call e k ih =>
      cases n with
      | zero =>
          cases hrun
          exact .inl ⟨rfl, h.1⟩
      | succ n => exact ih _ h.2 n hrun

theorem mono {p : Prog E Ans ε α} {Q Q' : Except ε α → σ → Prop} (h : Safe exec Φ Q p s)
    (hQ : ∀ r s, Q r s → Q' r s) : Safe exec Φ Q' p s := by
  induction p generalizing s with
  | ret a => exact hQ _ _ h
  | raise x => exact hQ _ _ h
  | call e k ih => exact ⟨h.1, ih _ h.2⟩

/-- The rule of sequencing. -/
theorem bind {p : Prog E Ans ε α} {f : α → Prog E Ans ε β} {R : Except ε α → σ → Prop}
    {Q : Except ε β → σ → Prop} (hp : Safe exec Φ R p s)
    (ok : ∀ a s, R (.ok a) s → Safe exec Φ Q (f a) s)
    (error : ∀ x s, R (.error x) s → Q (.error x) s) : Safe exec Φ Q (p >>= f) s := by
  induction p generalizing s with
  | ret a => exact ok a s hp
  | raise x => exact error x s hp
  | call e k ih => exact ⟨hp.1, ih _ hp.2⟩

theorem ofExcept {r : Except ε α} {Q : Except ε α → σ → Prop} (h : Q r s) :
    Safe exec Φ Q (Prog.ofExcept r) s := by
  cases r <;> exact h

/-- One operation. -/
theorem perform {e : E} {Q : Except ε (Ans e) → σ → Prop} (hcrash : Φ s)
    (h : Q (exec e s).1 (exec e s).2) : Safe exec Φ Q (Prog.perform e) s :=
  ⟨hcrash, ofExcept h⟩

theorem attempt {p : Prog E Ans ε α} {Q : Except ε (Except ε α) → σ → Prop}
    (h : Safe exec Φ (fun r s => Q (.ok r) s) p s) : Safe exec Φ Q p.attempt s := by
  induction p generalizing s with
  | ret a => exact h
  | raise x => exact h
  | call e k ih => exact ⟨h.1, ih _ h.2⟩

end Safe

end Runs

/-! ## Steps that are done once -/

section Steps

variable {ι ε σ : Type} {step : ι → σ → Except ε σ} {done : ι → σ → Prop}

/-- A step brings something about and does nothing where it is there already.  No step undoes
another. -/
structure DoneOnce (step : ι → σ → Except ε σ) (done : ι → σ → Prop) : Prop where
  brings : ∀ {i s s'}, step i s = .ok s' → done i s'
  idle : ∀ {i s}, done i s → step i s = .ok s
  keeps : ∀ {i j s s'}, step i s = .ok s' → done j s → done j s'

/-- The steps in order. -/
def runSteps (step : ι → σ → Except ε σ) : List ι → σ → Except ε σ
  | [], s => .ok s
  | i :: rest, s => step i s >>= runSteps step rest

theorem runSteps_append (before after : List ι) (s : σ) :
    runSteps step (before ++ after) s = runSteps step before s >>= runSteps step after := by
  induction before generalizing s with
  | nil => rfl
  | cons i rest ih =>
      rw [List.cons_append, runSteps, runSteps]
      cases step i s with
      | error x => rfl
      | ok s' => exact ih s'

theorem runSteps_concat {before : List ι} {i : ι} {s s' : σ}
    (h : runSteps step before s = .ok s') : runSteps step (before ++ [i]) s = step i s' := by
  rw [runSteps_append, h]
  show step i s' >>= runSteps step [] = step i s'
  cases step i s' <;> rfl

/-- Where steps raise, what comes after is not reached. -/
theorem runSteps_error {before after : List ι} {s : σ} {x : ε}
    (h : runSteps step before s = .error x) : runSteps step (before ++ after) s = .error x := by
  rw [runSteps_append, h]
  rfl

namespace DoneOnce

variable (h : DoneOnce step done) {before after steps : List ι} {s s' : σ}

include h

theorem keeps_all {j : ι} (hrun : runSteps step steps s = .ok s') (hdone : done j s) :
    done j s' := by
  induction steps generalizing s with
  | nil =>
      cases hrun
      exact hdone
  | cons i rest ih =>
      rw [runSteps] at hrun
      cases hi : step i s with
      | error x =>
          rw [hi] at hrun
          cases hrun
      | ok s₁ =>
          rw [hi] at hrun
          exact ih hrun (h.keeps hi hdone)

theorem done_all (hrun : runSteps step steps s = .ok s') : ∀ i ∈ steps, done i s' := by
  induction steps generalizing s with
  | nil =>
      intro i hi
      cases hi
  | cons j rest ih =>
      rw [runSteps] at hrun
      cases hj : step j s with
      | error x =>
          rw [hj] at hrun
          cases hrun
      | ok s₁ =>
          rw [hj] at hrun
          intro i hi
          rcases List.mem_cons.1 hi with rfl | hi
          · exact h.keeps_all hrun (h.brings hj)
          · exact ih hrun i hi

/-- Where all is done nothing is done again. -/
theorem idle_all (hdone : ∀ i ∈ steps, done i s) : runSteps step steps s = .ok s := by
  induction steps with
  | nil => rfl
  | cons i rest ih =>
      rw [runSteps, h.idle (hdone i List.mem_cons_self)]
      exact ih fun j hj => hdone j (List.mem_cons_of_mem i hj)

/-- Steps that were cut short can be taken up from the beginning. -/
theorem resume (hrun : runSteps step before s = .ok s') :
    runSteps step (before ++ after) s' = runSteps step (before ++ after) s := by
  rw [runSteps_append, runSteps_append, hrun, h.idle_all (h.done_all hrun)]

end DoneOnce

end Steps

end Effects

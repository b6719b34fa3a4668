import GateController.Actuation.Authority
import GateController.Runtime.Machine
import GateController.Store.Affinity

/-!
# Runs on a migrated database

A run on a migrated database and the same choices on a fresh one: as long as the
digits of what a claim compares are harmless, they stay in step.  All operations
answer the same, so the same calls are accepted and refused.
-/

namespace GateController

open Data Effects Proc LocalStore ActuationCoordinator

/-- The same state, on a database with another column. -/
def State.withColumn (s : State) (col : MonotonicColumn) : State :=
  { s with db := s.db.withColumn col }

/-- The same world, on a database with another column. -/
def GateWorld.withColumn (w : GateWorld) (col : MonotonicColumn) : GateWorld :=
  { w with state := w.state.withColumn col }

/-- What the next operation compares with the column. -/
def comparisonAt (w : GateWorld) : Choice Env Call → Option (List ℚ × ℚ)
  | .step c _ =>
      match w.running c with
      | some (.call (.store op) _) => op.comparison w.state.db
      | _ => none
  | _ => none

/-- The column is harmless to what the next operation compares. -/
def HarmlessStep (w : GateWorld) (ch : Choice Env Call) : Prop :=
  ∀ r ∈ comparisonAt w ch, MonotonicHarmless w.state.db.monotonic r.1 r.2

variable {c : CallId} {env : Env} {s : State} {col : MonotonicColumn} {cfg : Nat → Config}

/-- Both branches of a condition that is the same on both sides. -/
theorem ite_map {α β : Type} {p : Prop} [Decidable p] {f : α → β} {x y : Option α}
    {x' y' : Option β} (hx : x' = x.map f) (hy : y' = y.map f) :
    (if p then x' else y') = (if p then x else y).map f := by
  split
  · exact hx
  · exact hy

theorem exec_withColumn (c : CallId) (env : Env) (e : Eff) (hreal : s.db.monotonic = .real)
    (h : ∀ op, e = .store op → ∀ r ∈ op.comparison s.db, MonotonicHarmless col r.1 r.2) :
    e.exec c env (s.withColumn col) =
      (e.exec c env s).map fun p => (p.1, p.2.withColumn col) := by
  cases e with
  | acquire lock =>
      simp only [Eff.exec, State.withColumn]
      split <;> rfl
  | release lock =>
      exact ite_map rfl rfl
  | store op =>
      have hrun := StoreOp.run_withColumn env.now env.storeFault hreal (h op rfl)
      simp only [Eff.exec, State.withColumn] at hrun ⊢
      rw [hrun]
      rfl
  | env op => rfl
  | device op =>
      cases op with
      | monotonicClock =>
          simp only [Eff.exec, DeviceOp.exec, State.withColumn]
          split <;> rfl
      | play key => rfl
  | relay op =>
      cases op with
      | high =>
          simp only [Eff.exec, RelayOp.exec]
          split <;> rfl
      | low =>
          simp only [Eff.exec, RelayOp.exec]
          split <;> rfl
      | waitActivation owner => exact ite_map rfl rfl
      | waitNotified owner => exact ite_map rfl rfl
      | startReport owner =>
          simp only [Eff.exec, RelayOp.exec]
          split <;> rfl
      | _ => rfl
  | mem op => cases op <;> rfl
  | mark m => rfl

/-- The declaration of the column never changes. -/
theorem exec_column {e : Eff} {r : Except Exc e.Ans} {s' : State} (hreal : s.db.monotonic = .real)
    (h : e.exec c env s = some (r, s')) : s'.db.monotonic = .real := by
  have hself : s.withColumn .real = s := by
    simp only [State.withColumn, Db.withColumn, ← hreal]
  have heq := @exec_withColumn s .real c env e hreal fun _ _ _ _ => trivial
  rw [hself, h] at heq
  simp only [Option.map_some, Option.some.injEq, Prod.mk.injEq, true_and] at heq
  rw [heq]
  rfl

theorem accept_withColumn (c : CallId) (s : State) (col : MonotonicColumn) (call : Call) :
    call.accept c (s.withColumn col) = (call.accept c s).map fun s' => s'.withColumn col := by
  cases call <;> exact ite_map rfl rfl

theorem accept_column {call : Call} {s' : State} (hreal : s.db.monotonic = .real)
    (h : call.accept c s = some s') : s'.db.monotonic = .real := by
  cases call <;> simp only [Call.accept] at h <;> split at h <;> cases h <;> exact hreal

theorem crash_withColumn (p : Nat) (env : Env) :
    (s.withColumn col).crash p env = (s.crash p env).withColumn col := by
  simp only [State.crash, State.withColumn]
  split <;> rfl

/-- The column is not part of what is compared. -/
theorem comparisonAt_withColumn {w : GateWorld} {ch : Choice Env Call} :
    comparisonAt (w.withColumn col) ch = comparisonAt w ch := by
  cases ch with
  | step c env =>
      simp only [comparisonAt, GateWorld.withColumn]
      split
      · next op _ _ => cases op <;> rfl
      · rfl
  | _ => rfl

/-- One choice, on both databases. -/
theorem step_withColumn (cfg : Nat → Config) {w : GateWorld} {ch : Choice Env Call}
    (hreal : w.state.db.monotonic = .real) (h : HarmlessStep (w.withColumn col) ch) :
    (gate cfg).step (w.withColumn col) ch = GateWorld.withColumn ((gate cfg).step w ch) col ∧
      ((gate cfg).step w ch).state.db.monotonic = .real := by
  cases ch with
  | begin c call =>
      by_cases hb : Begun c w.log
      · have hstay : ∀ w' : GateWorld, w'.log = w.log → (gate cfg).step w' (.begin c call) = w' := by
          intro w' hlog
          simp only [Machine.step, hlog, if_pos hb]
        rw [hstay w rfl, hstay (w.withColumn col) rfl]
        exact ⟨rfl, hreal⟩
      · simp only [Machine.step, GateWorld.withColumn, if_neg hb, gate, accept_withColumn]
        cases hcall : call.accept c w.state with
        | none => exact ⟨rfl, hreal⟩
        | some s' => exact ⟨rfl, accept_column hreal hcall⟩
  | step c env =>
      simp only [Machine.step, GateWorld.withColumn]
      cases hrun : w.running c with
      | none => exact ⟨rfl, hreal⟩
      | some p =>
          cases p with
          | ret a => exact ⟨rfl, hreal⟩
          | raise x => exact ⟨rfl, hreal⟩
          | call e k =>
              have hexec := @exec_withColumn w.state col c env e hreal fun op he r hr => by
                subst he
                refine h r ?_
                rw [comparisonAt_withColumn]
                simpa only [comparisonAt, hrun] using hr
              simp only [Machine.advance, gate] at hexec ⊢
              rw [hexec]
              cases hstep : e.exec c env w.state with
              | none => exact ⟨rfl, hreal⟩
              | some q => exact ⟨rfl, exec_column hreal hstep⟩
  | crash p env =>
      refine ⟨?_, ?_⟩
      · simp only [Machine.step, GateWorld.withColumn, gate]
        rw [crash_withColumn]
      · simp only [Machine.step, gate, State.crash]
        split <;> exact hreal

/-- A whole run, on both databases. -/
theorem run_withColumn {w : GateWorld} {l : List (Choice Env Call)}
    (hreal : w.state.db.monotonic = .real)
    (h : (gate cfg).Admits HarmlessStep (w.withColumn col) l) :
    (gate cfg).run (w.withColumn col) l = GateWorld.withColumn ((gate cfg).run w l) col := by
  induction l generalizing w with
  | nil => rfl
  | cons ch rest ih =>
      obtain ⟨hstep, hreal'⟩ := step_withColumn cfg hreal h.1
      simp only [Machine.run]
      rw [hstep]
      refine ih hreal' ?_
      rw [← hstep]
      exact h.2

def laterTime : DateTime := ⟨⟨9000000000000, by decide⟩, some 0⟩

end GateController

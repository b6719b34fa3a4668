import GateController.Runtime.Machine

/-!
# What an operation leaves alone

`Eff.onProc` is what an operation does to the memory of its own process.  The
lemmas below say, field by field, which operations can change it at all.
-/

namespace GateController

open Data Effects Proc LocalStore ActuationCoordinator

variable {c : CallId} {env : Env} {s s' : State} {e : Eff} {r : Except Exc e.Ans}

/-- What an operation does to the memory of the process of its call. -/
def Eff.onProc (c : CallId) (env : Env) (s : State) (m : ProcState) : Eff → ProcState
  | .acquire lock => m.setLock lock (some c)
  | .release lock => if m.locks lock = some c then m.setLock lock none else m
  | .relay op =>
      match op with
      | .setShutdown => { m with shutdown := true }
      | .setLatched latched => { m with latched }
      | .high =>
          match env.highFault with
          | none => { m with pin := true }
          | some _ => { m with pin := m.pin || env.driven }
      | .low => if env.lowFault then { m with pin := m.pin && !env.driven } else { m with pin := false }
      | .setCallback callback => { m with callback }
      | .takeCallback => { m with callback := none }
      | .setOutcome outcome => { m with outcome }
      | .setOutcomeAt at_ => { m with outcomeAt := some at_ }
      | .startReport owner => if env.threadFault then m else { m with reports := owner :: m.reports }
      | .constructed => { m with phase := .ready, bootId := s.boot }
      | _ => m
  | .mem (.setLastAttempt value) => { m with lastAttempt := some value }
  | _ => m

@[simp] theorem State.setProc_procs (s : State) (p q : Nat) (f : ProcState → ProcState) :
    (s.setProc p f).procs q = if q = p then f (s.procs q) else s.procs q := rfl

@[simp] theorem State.setProc_db (s : State) (p : Nat) (f : ProcState → ProcState) :
    (s.setProc p f).db = s.db := rfl

@[simp] theorem State.setProc_calls (s : State) (p : Nat) (f : ProcState → ProcState) :
    (s.setProc p f).calls = s.calls := rfl

@[simp] theorem State.setCall_procs (s : State) (c : CallId) (f : CallState → CallState) :
    (s.setCall c f).procs = s.procs := rfl

@[simp] theorem State.setCall_db (s : State) (c : CallId) (f : CallState → CallState) :
    (s.setCall c f).db = s.db := rfl

@[simp] theorem State.setCall_calls (s : State) (c d : CallId) (f : CallState → CallState) :
    (s.setCall c f).calls d = if d = c then f (s.calls d) else s.calls d := rfl

/-- The processes after an operation. -/
theorem exec_procs (h : e.exec c env s = some (r, s')) (q : Nat) :
    s'.procs q = if q = c.proc then e.onProc c env s (s.procs q) else s.procs q := by
  have hsame : s.procs q = if q = c.proc then s.procs q else s.procs q := by simp
  cases e with
  | acquire lock =>
      simp only [Eff.exec] at h
      split at h <;> cases h
      rfl
  | release lock =>
      simp only [Eff.exec] at h
      by_cases hq : q = c.proc
      · subst hq
        split at h <;> cases h <;> simp_all [Eff.onProc]
      · split at h <;> cases h <;> simp [hq]
  | store op =>
      cases h
      exact hsame
  | env op =>
      cases h
      exact hsame
  | device op =>
      simp only [Eff.exec, Option.some.injEq] at h
      cases op with
      | monotonicClock =>
          simp only [DeviceOp.exec] at h
          split at h <;> cases h <;> exact hsame
      | play key =>
          cases h
          exact hsame
  | mark m =>
      cases h
      exact hsame
  | mem op => cases op <;> cases h <;> first | rfl | exact hsame
  | relay op =>
      cases op with
      | high =>
          simp only [Eff.exec, RelayOp.exec] at h
          by_cases hq : q = c.proc
          · subst hq
            split at h <;> next hf => cases h; simp [Eff.onProc, hf]
          · split at h <;> cases h <;> simp [hq]
      | low =>
          simp only [Eff.exec, RelayOp.exec] at h
          by_cases hq : q = c.proc
          · subst hq
            split at h <;> next hf => cases h; simp [Eff.onProc, hf]
          · split at h <;> cases h <;> simp [hq]
      | startReport owner =>
          simp only [Eff.exec, RelayOp.exec] at h
          by_cases hq : q = c.proc
          · subst hq
            split at h <;> next hf => cases h; simp [Eff.onProc, hf]
          · split at h <;> cases h <;> simp [hq]
      | waitActivation owner =>
          simp only [Eff.exec, RelayOp.exec] at h
          split at h <;> cases h
          exact hsame
      | waitNotified owner =>
          simp only [Eff.exec, RelayOp.exec] at h
          split at h <;> cases h
          exact hsame
      | _ => cases h; first | rfl | exact hsame

theorem exec_procs_ne (h : e.exec c env s = some (r, s')) {q : Nat} (hq : q ≠ c.proc) :
    s'.procs q = s.procs q := by
  rw [exec_procs h, if_neg hq]

/-! ## Fields of a process -/

/-- A part of the memory that an operation does not touch. -/
theorem exec_field {β : Type} (π : ProcState → β) (h : e.exec c env s = some (r, s'))
    (hπ : ∀ m, π (e.onProc c env s m) = π m) (q : Nat) : π (s'.procs q) = π (s.procs q) := by
  rw [exec_procs h]
  split
  · exact hπ _
  · rfl

/-- What an operation on the relay leaves alone in the memory of its process. -/
structure OnRelay (op : RelayOp) (m m' : ProcState) : Prop where
  locks : m'.locks = m.locks
  lastAttempt : m'.lastAttempt = m.lastAttempt
  phase : op ≠ .constructed → m'.phase = m.phase
  bootId : op ≠ .constructed → m'.bootId = m.bootId
  shutdown : op ≠ .setShutdown → m'.shutdown = m.shutdown
  latched : (∀ b, op ≠ .setLatched b) → m'.latched = m.latched
  pin : op ≠ .high → op ≠ .low → m'.pin = m.pin
  callback : (∀ callback, op ≠ .setCallback callback) → op ≠ .takeCallback →
    m'.callback = m.callback

theorem onRelay (c : CallId) (env : Env) (s : State) (m : ProcState) (op : RelayOp) :
    OnRelay op m ((Eff.relay op).onProc c env s m) := by
  cases op with
  | setLatched b =>
      exact ⟨rfl, rfl, fun _ => rfl, fun _ => rfl, fun _ => rfl, fun h => absurd rfl (h b),
        fun _ _ => rfl, fun _ _ => rfl⟩
  | setCallback callback =>
      exact ⟨rfl, rfl, fun _ => rfl, fun _ => rfl, fun _ => rfl, fun _ => rfl, fun _ _ => rfl,
        fun h _ => absurd rfl (h callback)⟩
  | high | low | startReport =>
      simp only [Eff.onProc]
      split
      all_goals
        constructor <;> intros
        all_goals first | rfl | contradiction
  | _ =>
      constructor <;> intros
      all_goals first | rfl | contradiction

theorem exec_locks (h : e.exec c env s = some (r, s')) (ha : ∀ l, e ≠ .acquire l)
    (hr : ∀ l, e ≠ .release l) (q : Nat) : (s'.procs q).locks = (s.procs q).locks := by
  refine exec_field _ h (fun m => ?_) q
  cases e with
  | acquire l => exact absurd rfl (ha l)
  | release l => exact absurd rfl (hr l)
  | relay op => exact (onRelay c env s m op).locks
  | mem op => cases op <;> rfl
  | _ => rfl

/-- The fields that only operations on the relay can change. -/
theorem exec_relay_field {β : Type} (π : ProcState → β) (h : e.exec c env s = some (r, s'))
    (hlock : ∀ m l holder, π (ProcState.setLock m l holder) = π m)
    (hlast : ∀ m value, π { m with lastAttempt := some value } = π m)
    (hrelay : ∀ op, e = .relay op → ∀ m, π (e.onProc c env s m) = π m) (q : Nat) :
    π (s'.procs q) = π (s.procs q) := by
  refine exec_field π h (fun m => ?_) q
  cases e with
  | acquire l => exact hlock m l _
  | release l =>
      show π (if m.locks l = some c then m.setLock l none else m) = π m
      split
      · exact hlock m l _
      · rfl
  | relay op => exact hrelay op rfl m
  | mem op =>
      cases op with
      | setLastAttempt value => exact hlast m value
      | _ => rfl
  | _ => rfl

theorem exec_phase (h : e.exec c env s = some (r, s')) (hc : e ≠ .relay .constructed) (q : Nat) :
    (s'.procs q).phase = (s.procs q).phase := by
  refine exec_relay_field _ h (fun _ _ _ => rfl) (fun _ _ => rfl) (fun op ho m => ?_) q
  subst ho
  exact (onRelay c env s m op).phase fun heq => hc (heq ▸ rfl)

theorem exec_shutdown (h : e.exec c env s = some (r, s')) (hs : e ≠ .relay .setShutdown) (q : Nat) :
    (s'.procs q).shutdown = (s.procs q).shutdown := by
  refine exec_relay_field _ h (fun _ _ _ => rfl) (fun _ _ => rfl) (fun op ho m => ?_) q
  subst ho
  exact (onRelay c env s m op).shutdown fun heq => hs (heq ▸ rfl)

theorem exec_latched (h : e.exec c env s = some (r, s')) (hl : ∀ b, e ≠ .relay (.setLatched b))
    (q : Nat) : (s'.procs q).latched = (s.procs q).latched := by
  refine exec_relay_field _ h (fun _ _ _ => rfl) (fun _ _ => rfl) (fun op ho m => ?_) q
  subst ho
  exact (onRelay c env s m op).latched fun b heq => hl b (heq ▸ rfl)

theorem exec_pin (h : e.exec c env s = some (r, s')) (hh : e ≠ .relay .high)
    (hl : e ≠ .relay .low) (q : Nat) : (s'.procs q).pin = (s.procs q).pin := by
  refine exec_relay_field _ h (fun _ _ _ => rfl) (fun _ _ => rfl) (fun op ho m => ?_) q
  subst ho
  exact (onRelay c env s m op).pin (fun heq => hh (heq ▸ rfl)) fun heq => hl (heq ▸ rfl)

/-! ## The rest of the state -/

/-- What an operation leaves alone outside the memory of its process. -/
structure Unmoved (c : CallId) (e : Eff) (s s' : State) : Prop where
  boot : s'.boot = s.boot
  pastBoots : s'.pastBoots = s.pastBoots
  db : (∀ op, e ≠ .store op) → s'.db = s.db
  uptime : e ≠ .device .monotonicClock → s'.uptime = s.uptime
  inhibition : ∀ d, (∀ value, e = .mem (.setInhibition value) → d ≠ c) →
    (s'.calls d).inhibition = (s.calls d).inhibition

theorem Unmoved.of_proc (f : ProcState → ProcState) : Unmoved c e s (s.setProc c.proc f) :=
  ⟨rfl, rfl, fun _ => rfl, fun _ => rfl, fun _ _ => rfl⟩

theorem Unmoved.refl : Unmoved c e s s := ⟨rfl, rfl, fun _ => rfl, fun _ => rfl, fun _ _ => rfl⟩

/-- The variables that a relay sets for a call are not the one of the coordinator. -/
theorem Unmoved.of_call (d : CallId) (f : CallState → CallState)
    (hf : ∀ v, (f v).inhibition = v.inhibition) : Unmoved c e s (s.setCall d f) := by
  refine ⟨rfl, rfl, fun _ => rfl, fun _ => rfl, fun d' _ => ?_⟩
  rw [State.setCall_calls]
  split
  · exact hf _
  · rfl

theorem exec_unmoved (h : e.exec c env s = some (r, s')) : Unmoved c e s s' := by
  cases e with
  | store op =>
      cases h
      exact ⟨rfl, rfl, fun hs => absurd rfl (hs op), fun _ => rfl, fun _ _ => rfl⟩
  | acquire l =>
      simp only [Eff.exec] at h
      split at h <;> cases h
      exact .of_proc _
  | release l =>
      simp only [Eff.exec] at h
      split at h <;> cases h
      · exact .of_proc _
      · exact .refl
  | env op =>
      cases h
      exact .refl
  | device op =>
      cases op with
      | monotonicClock =>
          simp only [Eff.exec, DeviceOp.exec, Option.some.injEq] at h
          split at h <;> cases h
          · exact ⟨rfl, rfl, fun _ => rfl, fun hne => absurd rfl hne, fun _ _ => rfl⟩
          · exact .refl
      | play key =>
          cases h
          exact .refl
  | mem op =>
      cases op with
      | setInhibition value =>
          cases h
          refine ⟨rfl, rfl, fun _ => rfl, fun _ => rfl, fun d hd => ?_⟩
          simp [MemOp.exec, hd value rfl]
      | setLastAttempt value =>
          cases h
          exact .of_proc fun m => { m with lastAttempt := some value }
      | _ =>
          cases h
          exact .refl
  | mark m =>
      cases h
      exact .refl
  | relay op =>
      cases op with
      | high => simp only [Eff.exec, RelayOp.exec] at h; split at h <;> cases h <;> exact .of_proc _
      | low => simp only [Eff.exec, RelayOp.exec] at h; split at h <;> cases h <;> exact .of_proc _
      | startReport o =>
          simp only [Eff.exec, RelayOp.exec] at h
          split at h <;> cases h
          · exact .refl
          · exact .of_proc _
      | waitActivation o =>
          simp only [Eff.exec, RelayOp.exec] at h
          split at h <;> cases h
          exact .refl
      | waitNotified o =>
          simp only [Eff.exec, RelayOp.exec] at h
          split at h <;> cases h
          exact .refl
      | setActivationNotified =>
          cases h
          exact .of_call _ _ fun _ => rfl
      | setNotified owner =>
          cases h
          exact .of_call _ _ fun _ => rfl
      | shutdownIsSet => cases h; exact .refl
      | isLatched => cases h; exact .refl
      | activationReady o => cases h; exact .refl
      | _ => cases h; exact .of_proc _

end GateController

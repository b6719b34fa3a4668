import GateController.Recognition.SlotAccount
import Mathlib.Logic.Relation

/-!
# Nobody waits for ever

A call waits for a lock only while another call holds it.  Whoever holds `_ocr_slot_lock` waits
for nothing, and whoever holds `_actuation_lock` waits at most for `_ocr_slot_lock`.  So from
every call that is under way, the calls that it waits for lead to one that can go on.
-/

namespace GateController

open Data Effects

namespace OcrRequest

variable {st : OcrShared} {log : OcrLog} {c d : CallId} {v : OcrWatch} {o : Recognizer}
  {cfg : Config} {w : OcrWorld}

/-- The next operation of a call is to take a lock that another call holds. -/
def Waits (w : OcrWorld) (c d : CallId) : Prop :=
  ∃ e k, w.running c = some (.call e k) ∧ (e = .acquire ∧ w.state.slotLock = some d ∨
    e = .outer (.acquire .actuation) ∧ w.state.actuationLock = some d)

/-- The call can do something now. -/
def CanGoOn (o : Recognizer) (cfg : Config) (w : OcrWorld) (c : CallId) : Prop :=
  ∃ env, ((ocrThreads o cfg).step w (.step c env)).log.length = w.log.length + 1

/-- An operation that may happen happens. -/
theorem canGoOn_of_exec {e : OcrEff} {k : Except Exc e.Ans → OcrProg Unit} {env : OcrEnv}
    {r : Except Exc e.Ans} {st' : OcrShared} (hrun : w.running c = some (.call e k))
    (hexec : ocrExec c env w.state e = some (r, st')) : CanGoOn o cfg w c := by
  refine ⟨env, ?_⟩
  have hexec' : (ocrThreads o cfg).exec c e env w.state = some (r, st') := hexec
  rw [Machine.step, hrun]
  dsimp only
  rw [Machine.advance, hexec']
  rfl

/-- Only a lock can keep an operation from happening. -/
theorem exec_or_lock (c : CallId) (st : OcrShared) (e : OcrEff) :
    (∃ env r st', ocrExec c env st e = some (r, st')) ∨
      (e = .acquire ∧ ∃ d, st.slotLock = some d) ∨
      e = .outer (.acquire .actuation) ∧ ∃ d, st.actuationLock = some d := by
  have hready : ∀ e : OcrEff, (∃ r st', ocrExec c { flag := true } st e = some (r, st')) →
      ∃ env r st', ocrExec c env st e = some (r, st') := fun e ⟨r, st', h⟩ => ⟨_, r, st', h⟩
  cases e with
  | acquire =>
      cases hlock : st.slotLock with
      | some d => exact .inr (.inl ⟨rfl, d, rfl⟩)
      | none => exact .inl ⟨{}, .ok (), _, by rw [ocrExec, hlock]; rfl⟩
  | outer e =>
      cases e with
      | acquire lock =>
          cases lock with
          | actuation =>
              cases hlock : st.actuationLock with
              | some d => exact .inr (.inr ⟨rfl, d, rfl⟩)
              | none => exact .inl ⟨{}, .ok (), _, by rw [ocrExec, hlock]; rfl⟩
          | _ => exact .inl (hready _ ⟨_, _, rfl⟩)
      | release lock => cases lock <;> exact .inl (hready _ ⟨_, _, rfl⟩)
      | _ => exact .inl (hready _ ⟨_, _, rfl⟩)
  | get id =>
      refine .inl (hready _ ?_)
      simp only [ocrExec]
      split
      · exact ⟨_, _, rfl⟩
      · exact ⟨_, _, rfl⟩
  | releaseSlot =>
      refine .inl (hready _ ?_)
      simp only [ocrExec]
      split
      · exact ⟨_, _, rfl⟩
      · exact ⟨_, _, rfl⟩
  | _ => exact .inl (hready _ ⟨_, _, rfl⟩)

/-- A call can go on, or waits for one that holds a lock. -/
theorem goes_on_or_waits (o : Recognizer) (cfg : Config) (hsound : Sound ocrRules Completed w) (hlive : Live c w.log) :
    CanGoOn o cfg w c ∨ ∃ d, Waits w c d := by
  obtain ⟨p, hrun⟩ := Option.isSome_iff_exists.1 ((hsound.live c).2 hlive)
  cases p with
  | ret a =>
      refine .inl ⟨{}, ?_⟩
      rw [Machine.step, hrun]
      rfl
  | raise x =>
      refine .inl ⟨{}, ?_⟩
      rw [Machine.step, hrun]
      rfl
  | call e k =>
      rcases exec_or_lock c w.state e with ⟨env, r, st', hexec⟩ | ⟨rfl, d, hd⟩ | ⟨rfl, d, hd⟩
      · exact .inl (canGoOn_of_exec hrun hexec)
      · exact .inr ⟨d, _, k, hrun, .inl ⟨rfl, hd⟩⟩
      · exact .inr ⟨d, _, k, hrun, .inr ⟨rfl, hd⟩⟩

/-- What a call that waits does not hold. -/
theorem Waits.allowed (hsound : Sound ocrRules Completed w) (h : Waits w c d)
    (hghost : ghost ocrRules c w.log = some v) :
    v.locked = false ∧ (w.state.slotLock = some d ∨ v.acting = false) := by
  obtain ⟨e, k, hrun, hlock⟩ := h
  obtain ⟨v', hv', hobeys⟩ := hsound.obeys c _ hrun
  cases hghost.symm.trans hv'
  rcases hlock with ⟨rfl, hd⟩ | ⟨rfl, -⟩
  · exact ⟨hobeys.1, .inl hd⟩
  · exact ⟨hobeys.1.1, .inr hobeys.1.2⟩

/-- Who holds the lock of the slot can go on. -/
theorem slot_holder_goes_on (hsound : Sound ocrRules Completed w) (h : Accounted w.state w.log)
    (hheld : w.state.slotLock = some d) : CanGoOn o cfg w d := by
  have hlive := h.slotLive d hheld
  obtain ⟨v, hv⟩ := Option.isSome_iff_exists.1 (ghost_isSome.2 hlive.begun)
  rcases goes_on_or_waits o cfg hsound hlive with hgo | ⟨d', hwaits⟩
  · exact hgo
  · have hlocked := (h.slotLock d v hlive hv).2 hheld
    exact absurd ((hwaits.allowed hsound hv).1.symm.trans hlocked) Bool.false_ne_true

/-- The calls that a call waits for lead to one that can go on. -/
theorem never_stuck (o : Recognizer) (cfg : Config) (l : List (Choice OcrEnv OcrCall)) (c : CallId)
    (hlive : Live c ((ocrThreads o cfg).run (World.init {}) l).log) :
    ∃ d, Relation.ReflTransGen (Waits ((ocrThreads o cfg).run (World.init {}) l)) c d ∧
      CanGoOn o cfg ((ocrThreads o cfg).run (World.init {}) l) d := by
  obtain ⟨hsound, h⟩ := ocr_accounted o cfg l
  rcases goes_on_or_waits o cfg hsound hlive with hgo | ⟨d, hwaits⟩
  · exact ⟨c, .refl, hgo⟩
  obtain ⟨e, k, -, ⟨-, hd⟩ | ⟨-, hd⟩⟩ := id hwaits
  · exact ⟨d, .single hwaits, slot_holder_goes_on hsound h hd⟩
  · -- The holder of the lock of the pulses may wait for the lock of the slot.
    have hlive' := h.actuationLive d hd
    rcases goes_on_or_waits o cfg hsound hlive' with hgo | ⟨d', hwaits'⟩
    · exact ⟨d, .single hwaits, hgo⟩
    · obtain ⟨v', hv'⟩ := Option.isSome_iff_exists.1 (ghost_isSome.2 hlive'.begun)
      have hacting := (h.actuationLock d v' hlive' hv').2 hd
      rcases (hwaits'.allowed hsound hv').2 with hslot | hfree
      · exact ⟨d', (Relation.ReflTransGen.single hwaits).tail hwaits',
          slot_holder_goes_on hsound h hslot⟩
      · exact absurd (hfree.symm.trans hacting) Bool.false_ne_true

/-- A processor is closed twice, and the first call has the lock. -/
def closedTwice : List (Choice OcrEnv OcrCall) :=
  [.begin ⟨0, 0⟩ .close, .step ⟨0, 0⟩ {}, .begin ⟨0, 1⟩ .close]

theorem never_stuck_closedTwice : ∃ d,
    Relation.ReflTransGen (Waits ((ocrThreads {} {}).run (World.init {}) closedTwice)) ⟨0, 1⟩ d ∧
      CanGoOn {} {} ((ocrThreads {} {}).run (World.init {}) closedTwice) d :=
  never_stuck {} {} closedTwice ⟨0, 1⟩ (.inl rfl)

end OcrRequest

end GateController

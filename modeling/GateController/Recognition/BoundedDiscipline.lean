import GateController.Processing.Gated
import GateController.Recognition.Bounded

/-!
# The rules of bounded OCR

What is watched of a burst, of a thread and of `close`: which locks they hold, whether the slot
is theirs, and what they know of the flag.  `OcrWatch.allow` says what a call does only after
what.  A thread is started only inside the section in which the processor was seen open, by the
call that has the slot.  The slot is given back only by the call that has it.
-/

namespace GateController

open Data Effects

namespace OcrRequest

/-- What a call has done so far. -/
structure OcrWatch where
  call : OcrCall
  /-- The call holds `_ocr_slot_lock`. -/
  locked : Bool := false
  /-- The processor was seen open in this section. -/
  sawOpen : Bool := false
  /-- The call holds `_actuation_lock`. -/
  acting : Bool := false
  /-- The processor was seen open since this lock was taken. -/
  clear : Bool := false
  /-- The slot was taken and is not given back or handed on. -/
  slot : Bool := false
  /-- The request whose thread is not started. -/
  request : Option Nat := none
  /-- The thread that was started last. -/
  waiting : Option (Nat × Job) := none
  /-- The recogniser is being called. -/
  operating : Bool := false
  /-- What the recogniser came to. -/
  reading : Option Reading := none
  /-- The call has set the flag. -/
  shut : Bool := false
  /-- Since then it has left `_actuation_lock`. -/
  passed : Bool := false

/-- Whether a call is a thread. -/
def OcrCall.isWorker : OcrCall → Bool
  | .worker _ _ => true
  | _ => false

namespace OcrWatch

/-- A thread has the slot from the start. -/
def start (call : OcrCall) : OcrWatch := { call, slot := call.isWorker }

/-- The watch after an operation. -/
def next (v : OcrWatch) : (e : OcrEff) → Except Exc e.Ans → OcrWatch
  | .outer (.acquire .actuation), _ => { v with acting := true, clear := false }
  | .outer (.release .actuation), _ =>
      { v with acting := false, clear := false, passed := v.passed || v.shut }
  | .acquire, _ => { v with locked := true, sawOpen := false }
  | .release, _ => { v with locked := false, sawOpen := false }
  | .isClosed, .ok false => { v with sawOpen := true, clear := v.acting || v.clear }
  | .setClosed, _ => { v with sawOpen := false, shut := true }
  | .tryAcquire, .ok taken => { v with slot := taken }
  | .releaseSlot, _ => { v with slot := false }
  | .newRequest, .ok id => { v with request := some id }
  | .startWorker id job, .ok _ =>
      { v with slot := false, request := none, waiting := some (id, job) }
  | .operate _ _, _ => { v with operating := true }
  | .operated _, reading => { v with operating := false, reading := some reading }
  | .put _ _, _ => { v with reading := none }
  | _, _ => v

/-- What a call may do. -/
def allow (v : OcrWatch) : OcrEff → Prop
  | .outer (.acquire .actuation) => v.locked = false ∧ v.acting = false
  | .outer (.release .actuation) => v.locked = false ∧ v.acting = true
  | .outer (.relay .high) => v.locked = false ∧ v.acting = true ∧ v.clear = true
  | .outer _ => v.locked = false
  | .acquire => v.locked = false
  | .release => v.locked = true
  | .isClosed => v.locked = true
  | .setClosed => v.locked = true
  | .tryAcquire => v.locked = true ∧ v.sawOpen = true ∧ v.slot = false
  | .releaseSlot => v.slot = true ∧ v.operating = false
  | .newRequest => v.slot = true ∧ v.call.isWorker = false
  | .startWorker id _ =>
      v.locked = true ∧ v.sawOpen = true ∧ v.slot = true ∧ v.call.isWorker = false ∧
        v.request = some id ∧ v.operating = false
  | .worker => v.locked = true
  | .setWorker _ => v.locked = true
  | .isAlive _ => v.locked = true
  | .join _ => v.locked = false
  | .operate id job =>
      v.locked = false ∧ v.call = .worker id job ∧ v.slot = true ∧ v.operating = false
  | .operated id => v.locked = false ∧ v.operating = true ∧ ∃ job, v.call = .worker id job
  | .put id reading => v.reading = some reading ∧ ∃ job, v.call = .worker id job
  | .get id => v.locked = false ∧ ∃ job, v.waiting = some (id, job)
  | .startAbandon => v.locked = false
  | .abandoned => v.locked = false
  | .startClose => v.locked = false

/-- The answers that are possible while the slot is accounted for. -/
def expect : (e : OcrEff) → Except Exc e.Ans → Prop
  | .outer (.acquire .actuation), r => r = .ok ()
  | .outer (.release .actuation), r => r = .ok ()
  | .outer _, _ => True
  | .startWorker _ _, _ => True
  | .operated _, _ => True
  | .startAbandon, _ => True
  | .startClose, _ => True
  | _, r => ∃ a, r = .ok a

end OcrWatch

/-- The rules of the calls. -/
def ocrRules (_ : CallId) : Protocol OcrEff OcrEff.Ans Exc OcrCall OcrWatch where
  start := OcrWatch.start
  next v := v.next
  allow v := v.allow
  expect _ := OcrWatch.expect

/-- What a call has done when it is over. -/
structure Completed (_ : CallId) (v : OcrWatch) (_ : Except Exc Unit) : Prop where
  unlocked : v.locked = false
  quiet : v.acting = false
  released : v.slot = false
  idle : v.operating = false
  passed : v.shut = true → v.passed = true

variable {c : CallId} {v : OcrWatch} {α β : Type} {o : Recognizer} {cfg : Config}

/-! ## Sections -/

/-- What a section or a request leaves as it was. -/
structure Kept (v v' : OcrWatch) : Prop where
  call : v'.call = v.call
  locked : v'.locked = false
  acting : v'.acting = v.acting
  clear : v.clear = true → v'.clear = true
  operating : v'.operating = v.operating
  shut : v'.shut = v.shut
  passed : v'.passed = v.passed

theorem Kept.refl (h : v.locked = false) : Kept v v := ⟨rfl, h, rfl, id, rfl, rfl, rfl⟩

theorem Kept.trans {v₁ v₂ v₃ : OcrWatch} (h₁ : Kept v₁ v₂) (h₂ : Kept v₂ v₃) : Kept v₁ v₃ :=
  ⟨h₂.call.trans h₁.call, h₂.locked, h₂.acting.trans h₁.acting, fun h => h₂.clear (h₁.clear h),
    h₂.operating.trans h₁.operating, h₂.shut.trans h₁.shut, h₂.passed.trans h₁.passed⟩

/-- An operation that is always answered. -/
theorem obeys_answered {e : OcrEff} {Q : OcrWatch → Except Exc e.Ans → Prop}
    (hexpect : ∀ r, OcrWatch.expect e r → ∃ a, r = .ok a) (hallow : v.allow e)
    (h : ∀ a, Q (v.next e (.ok a)) (.ok a)) : Obeys (ocrRules c) Q v (op e) := by
  refine Obeys.perform hallow fun r hr => ?_
  obtain ⟨a, rfl⟩ := hexpect r hr
  exact h a

/-- Such an operation, and what comes after it. -/
theorem obeys_answered_bind {e : OcrEff} {f : e.Ans → OcrProg β} {Q : OcrWatch → Except Exc β → Prop}
    (hexpect : ∀ r, OcrWatch.expect e r → ∃ a, r = .ok a) (hallow : v.allow e)
    (h : ∀ a, Obeys (ocrRules c) Q (v.next e (.ok a)) (f a)) :
    Obeys (ocrRules c) Q v (op e >>= f) := by
  rw [Obeys.bind_iff]
  exact obeys_answered hexpect hallow h

/-- `with self._ocr_slot_lock:` around a body. -/
theorem obeys_withSlotLock {body : OcrProg α} {Q R : OcrWatch → Except Exc α → Prop}
    (hfree : v.locked = false)
    (hbody : Obeys (ocrRules c) R { v with locked := true, sawOpen := false } body)
    (hleave : ∀ v' r, R v' r → v'.locked = true ∧ Q { v' with locked := false, sawOpen := false } r) :
    Obeys (ocrRules c) Q v (withSlotLock body) := by
  unfold withSlotLock
  refine obeys_answered_bind (fun r hr => hr) hfree fun _ => ?_
  rw [Obeys.bind_iff, Obeys.attempt_iff]
  refine hbody.mono fun v' r h => ?_
  obtain ⟨hlocked, hQ⟩ := hleave v' r h
  refine obeys_answered_bind (fun r hr => hr) hlocked fun _ => ?_
  exact Obeys.ofExcept_iff.2 hQ

/-- The section that takes the slot. -/
theorem takeSlot_obeys (hlocked : v.locked = false) (hslot : v.slot = false) :
    Obeys (ocrRules c) (fun v' r => Kept v v' ∧ ∃ taken, r = .ok taken ∧ v'.slot = taken) v
      takeSlot := by
  refine obeys_withSlotLock hlocked (R := fun v' r => Kept v { v' with locked := false } ∧
    v'.locked = true ∧ ∃ taken, r = .ok taken ∧ v'.slot = taken) ?_ ?_
  · refine obeys_answered_bind (fun r hr => hr) rfl fun closed => ?_
    cases closed with
    | true => exact ⟨⟨rfl, rfl, rfl, id, rfl, rfl, rfl⟩, rfl, false, rfl, hslot⟩
    | false =>
        refine obeys_answered (fun r hr => hr) ⟨rfl, rfl, hslot⟩ fun taken => ?_
        exact ⟨⟨rfl, rfl, rfl, fun h => Bool.or_eq_true_iff.2 (.inr h), rfl, rfl, rfl⟩, rfl, taken,
          rfl, rfl⟩
  · rintro v' r ⟨hkept, hheld, taken, rfl, htaken⟩
    exact ⟨hheld, ⟨hkept.call, rfl, hkept.acting, hkept.clear, hkept.operating, hkept.shut,
      hkept.passed⟩, taken, rfl, htaken⟩

/-- The section that starts the thread, or gives the slot back. -/
theorem launch_obeys {id : Nat} (job : Job) (hlocked : v.locked = false) (hslot : v.slot = true)
    (hworker : v.call.isWorker = false) (hrequest : v.request = some id)
    (hoperating : v.operating = false) :
    Obeys (ocrRules c) (fun v' r => Kept v v' ∧ v'.slot = false ∧
      (r = .ok true → v'.waiting = some (id, job))) v (launch id job) := by
  refine obeys_withSlotLock hlocked (R := fun v' r => Kept v { v' with locked := false } ∧
    v'.locked = true ∧ v'.slot = false ∧ (r = .ok true → v'.waiting = some (id, job))) ?_ ?_
  · refine obeys_answered_bind (fun r hr => hr) rfl fun closed => ?_
    cases closed with
    | true =>
        refine obeys_answered_bind (fun r hr => hr) ⟨hslot, hoperating⟩ fun _ => ?_
        exact ⟨⟨rfl, rfl, rfl, fun h => h, rfl, rfl, rfl⟩, rfl, rfl, fun h => by cases h⟩
    | false =>
        refine obeys_answered_bind (fun r hr => hr) rfl fun _ => ?_
        rw [Obeys.bind_iff, Obeys.attempt_iff]
        refine Obeys.perform ⟨rfl, rfl, hslot, hworker, hrequest, hoperating⟩ fun r _ => ?_
        have hclear : v.clear = true → (v.acting || v.clear) = true :=
          fun h => Bool.or_eq_true_iff.2 (.inr h)
        cases r with
        | ok started => exact ⟨⟨rfl, rfl, rfl, hclear, rfl, rfl, rfl⟩, rfl, rfl, fun _ => rfl⟩
        | error x =>
            refine obeys_answered_bind (fun r hr => hr) rfl fun worker => ?_
            have hback : ∀ v' : OcrWatch, Kept v { v' with locked := false } → v'.locked = true →
                v'.slot = true → v'.operating = false → Obeys (ocrRules c) (fun v' r =>
                  Kept v { v' with locked := false } ∧ v'.locked = true ∧ v'.slot = false ∧
                    (r = .ok true → v'.waiting = some (id, job))) v' (do
                  op .releaseSlot
                  .raise x : OcrProg Bool) := by
              intro v' hkept hheld hslot' hop
              refine obeys_answered_bind (fun r hr => hr) ⟨hslot', hop⟩ fun _ => ?_
              exact ⟨⟨hkept.call, rfl, hkept.acting, hkept.clear, hkept.operating, hkept.shut,
                hkept.passed⟩, hheld, rfl, fun h => by cases h⟩
            dsimp only
            split
            · refine obeys_answered_bind (fun r hr => hr) rfl fun _ => ?_
              exact hback _ ⟨rfl, rfl, rfl, hclear, rfl, rfl, rfl⟩ rfl hslot hoperating
            · exact hback _ ⟨rfl, rfl, rfl, hclear, rfl, rfl, rfl⟩ rfl hslot hoperating
  · rintro v' r ⟨hkept, hheld, hslot', hwaiting⟩
    exact ⟨hheld, ⟨hkept.call, rfl, hkept.acting, hkept.clear, hkept.operating, hkept.shut,
      hkept.passed⟩, hslot', hwaiting⟩

/-- The section that forgets a thread. -/
theorem forgetWorker_obeys (id : Nat) (hlocked : v.locked = false) :
    Obeys (ocrRules c) (fun v' _ => Kept v v' ∧ v'.slot = v.slot) v (forgetWorker id) := by
  refine obeys_withSlotLock hlocked (R := fun v' _ => Kept v { v' with locked := false } ∧
    v'.locked = true ∧ v'.slot = v.slot) ?_ ?_
  · refine obeys_answered_bind (fun r hr => hr) rfl fun worker => ?_
    split
    · refine obeys_answered_bind (fun r hr => hr) rfl fun alive => ?_
      split
      · refine obeys_answered (fun r hr => hr) rfl fun _ => ?_
        exact ⟨⟨rfl, rfl, rfl, fun h => h, rfl, rfl, rfl⟩, rfl, rfl⟩
      · exact ⟨⟨rfl, rfl, rfl, fun h => h, rfl, rfl, rfl⟩, rfl, rfl⟩
    · exact ⟨⟨rfl, rfl, rfl, fun h => h, rfl, rfl, rfl⟩, rfl, rfl⟩
  · rintro v' r ⟨hkept, hheld, hslot⟩
    exact ⟨hheld, ⟨hkept.call, rfl, hkept.acting, hkept.clear, hkept.operating, hkept.shut,
      hkept.passed⟩, hslot⟩

/-- Giving a request up. -/
theorem cancelAndReap_obeys (id : Nat) (hlocked : v.locked = false) :
    Obeys (ocrRules c) (fun v' _ => Kept v v' ∧ v'.slot = v.slot) v (cancelAndReap o id) := by
  unfold cancelAndReap
  split
  · rw [Obeys.bind_iff]
    refine Obeys.perform hlocked fun r _ => ?_
    cases r with
    | error x => exact ⟨.refl hlocked, rfl⟩
    | ok started =>
        refine obeys_answered_bind (fun r hr => hr) hlocked fun abandoned => ?_
        split
        · refine obeys_answered_bind (fun r hr => hr) hlocked fun _ => ?_
          exact forgetWorker_obeys id hlocked
        · exact forgetWorker_obeys id hlocked
  · exact ⟨.refl hlocked, rfl⟩

/-- An operation that is not about threads. -/
theorem obeys_clock {f : ℚ → OcrProg β} {Q : OcrWatch → Except Exc β → Prop} (hlocked : v.locked = false)
    (hf : ∀ now, Obeys (ocrRules c) Q v (f now)) (he : ∀ x, Q v (.error x)) :
    Obeys (ocrRules c) Q v (op (.outer (.env .decisionClock)) >>= f) := by
  rw [Obeys.bind_iff]
  refine Obeys.perform hlocked fun r _ => ?_
  cases r with
  | ok now => exact hf now
  | error x => exact he x

theorem awaitReading_obeys {id : Nat} {job : Job} (deadline : ℚ) (hlocked : v.locked = false)
    (hslot : v.slot = false) (hwaiting : v.waiting = some (id, job)) :
    Obeys (ocrRules c) (fun v' _ => Kept v v' ∧ v'.slot = false) v (awaitReading o id deadline) := by
  have hgiveUp : Obeys (ocrRules c) (fun v' _ => Kept v v' ∧ v'.slot = false) v (do
      cancelAndReap o id
      return .deadlineExceeded : OcrProg OcrOutcome) := by
    refine (cancelAndReap_obeys id hlocked).bind ?_ ?_
    · exact fun _ _ h => ⟨h.1, h.2.trans hslot⟩
    · exact fun _ _ h => ⟨h.1, h.2.trans hslot⟩
  refine obeys_clock hlocked (fun now => ?_) fun _ => ⟨.refl hlocked, hslot⟩
  split
  · exact hgiveUp
  · refine obeys_answered_bind (fun r hr => hr) ⟨hlocked, job, hwaiting⟩ fun reading => ?_
    cases reading with
    | none => exact hgiveUp
    | some reading =>
        refine obeys_answered_bind (fun r hr => hr) hlocked fun _ => ?_
        refine (forgetWorker_obeys id hlocked).bind ?_ ?_
        · intro v' _ h
          cases reading with
          | ok observation => exact ⟨h.1, h.2.trans hslot⟩
          | error x => exact ⟨h.1, h.2.trans hslot⟩
        · exact fun _ _ h => ⟨h.1, h.2.trans hslot⟩

theorem runOcrBounded_obeys (job : Job) (deadline : ℚ) (hlocked : v.locked = false)
    (hslot : v.slot = false) (hworker : v.call.isWorker = false) (hoperating : v.operating = false) :
    Obeys (ocrRules c) (fun v' _ => Kept v v' ∧ v'.slot = false) v
      (runOcrBounded o job deadline) := by
  refine (takeSlot_obeys hlocked hslot).bind ?_ ?_
  · rintro v₁ taken ⟨hkept, taken, ⟨⟩, htaken⟩
    cases taken with
    | false => exact ⟨hkept, htaken⟩
    | true =>
        have hworker₁ : v₁.call.isWorker = false := by rw [hkept.call]; exact hworker
        rw [if_pos rfl]
        refine obeys_answered_bind (fun r hr => hr) ⟨htaken, hworker₁⟩ fun id => ?_
        refine (launch_obeys (v := { v₁ with request := some id }) job hkept.locked htaken hworker₁ rfl
          (hkept.operating.trans hoperating)).bind ?_ ?_
        · rintro v₂ launched ⟨hkept₂, hslot₂, hwaiting⟩
          have hkept' : Kept v v₂ := hkept.trans
            ⟨hkept₂.call, hkept₂.locked, hkept₂.acting, hkept₂.clear, hkept₂.operating,
              hkept₂.shut, hkept₂.passed⟩
          cases launched with
          | false => exact ⟨hkept', hslot₂⟩
          | true =>
              rw [if_pos rfl]
              refine (awaitReading_obeys deadline hkept₂.locked hslot₂ (hwaiting rfl)).mono ?_
              exact fun _ _ h => ⟨hkept'.trans h.1, h.2⟩
        · rintro v₂ x ⟨hkept₂, hslot₂, -⟩
          exact ⟨hkept.trans ⟨hkept₂.call, hkept₂.locked, hkept₂.acting, hkept₂.clear,
            hkept₂.operating, hkept₂.shut, hkept₂.passed⟩, hslot₂⟩
  · rintro v₁ x ⟨-, taken, hx, -⟩
    cases hx

theorem recognise_obeys (deadline : ℚ) (path : String) (hlocked : v.locked = false)
    (hslot : v.slot = false) (hworker : v.call.isWorker = false) (hoperating : v.operating = false) :
    Obeys (ocrRules c) (fun v' _ => Kept v v' ∧ v'.slot = false) v (recognise o deadline path) := by
  refine obeys_clock hlocked (fun now => ?_) fun _ => ⟨.refl hlocked, hslot⟩
  dsimp only
  split
  · exact ⟨.refl hlocked, hslot⟩
  · split
    · exact runOcrBounded_obeys _ deadline hlocked hslot hworker hoperating
    · exact runOcrBounded_obeys _ deadline hlocked hslot hworker hoperating

/-! ## Calls -/

/-- A burst between two of its operations. -/
structure Between (g : Gate) (v : OcrWatch) : Prop where
  burst : v.call.isWorker = false
  unlocked : v.locked = false
  released : v.slot = false
  acting : v.acting = g.acting
  clear : g.clear = true → v.clear = true
  idle : v.operating = false
  open_ : v.shut = false

theorem Between.kept {g : Gate} {v' : OcrWatch} (h : Between g v) (hkept : Kept v v')
    (hslot : v'.slot = false) : Between g v' where
  burst := by rw [hkept.call]; exact h.burst
  unlocked := hkept.locked
  released := hslot
  acting := hkept.acting.trans h.acting
  clear hg := hkept.clear (h.clear hg)
  idle := hkept.operating.trans h.idle
  open_ := hkept.shut.trans h.open_

/-- The section that asks for the flag. -/
theorem isClosed_obeys (hlocked : v.locked = false) :
    Obeys (ocrRules c) (fun v' r => Kept v v' ∧ v'.slot = v.slot ∧
      (r = .ok false → v.acting = true → v'.clear = true)) v (withSlotLock (op .isClosed)) := by
  refine obeys_withSlotLock hlocked (R := fun v' r => Kept v { v' with locked := false } ∧
    v'.locked = true ∧ v'.slot = v.slot ∧ (r = .ok false → v.acting = true → v'.clear = true)) ?_ ?_
  · refine obeys_answered (fun r hr => hr) rfl fun closed => ?_
    cases closed with
    | true => exact ⟨⟨rfl, rfl, rfl, fun h => h, rfl, rfl, rfl⟩, rfl, rfl, fun h => by cases h⟩
    | false => exact ⟨⟨rfl, rfl, rfl, fun h => Bool.or_eq_true_iff.2 (.inr h), rfl, rfl, rfl⟩, rfl,
        rfl, fun _ hacting => Bool.or_eq_true_iff.2 (.inl hacting)⟩
  · rintro v' r ⟨hkept, hheld, hslot, hclear⟩
    exact ⟨hheld, ⟨hkept.call, rfl, hkept.acting, hkept.clear, hkept.operating, hkept.shut,
      hkept.passed⟩, hslot, hclear⟩

/-- An operation that is not about threads keeps a burst where it was. -/
theorem outer_between {g : Gate} {e : Eff} (h : Between g v) (hallow : g.allow e)
    (hrecognise : ∀ path, e ≠ .env (.recognise path)) (hclosed : e ≠ .env .closed) :
    Obeys (ocrRules c) (fun v' r => Gate.expect e r ∧ Between (g.next e r) v') v (op (.outer e)) := by
  have hother : BareOp e → Obeys (ocrRules c)
      (fun v' r => Gate.expect e r ∧ Between (g.next e r) v') v (op (.outer e)) := by
    intro hbare
    have hallow' : v.allow (.outer e) := by
      cases e with
      | acquire lock => cases lock <;> first | exact hbare.elim | exact h.unlocked
      | release lock => cases lock <;> first | exact hbare.elim | exact h.unlocked
      | relay op => cases op <;> first | exact hbare.elim | exact h.unlocked
      | _ => exact h.unlocked
    refine Obeys.perform hallow' fun r _ => ?_
    have hexpect : Gate.expect e r := by
      cases e with
      | acquire lock => cases lock <;> first | exact hbare.elim | trivial
      | release lock => cases lock <;> first | exact hbare.elim | trivial
      | _ => trivial
    have hnext : (ocrRules c).next v (.outer e) r = v := by
      cases e with
      | acquire lock => cases lock <;> first | exact hbare.elim | rfl
      | release lock => cases lock <;> first | exact hbare.elim | rfl
      | _ => rfl
    rw [hnext, next_of_bare hbare r hclosed]
    exact ⟨hexpect, h⟩
  cases e with
  | acquire lock =>
      cases lock with
      | actuation =>
          refine Obeys.perform ⟨h.unlocked, h.acting.trans hallow⟩ fun r hr => ?_
          exact ⟨hr, h.burst, h.unlocked, h.released, rfl, fun hg => (by cases hg), h.idle, h.open_⟩
      | _ => exact hother trivial
  | release lock =>
      cases lock with
      | actuation =>
          refine Obeys.perform ⟨h.unlocked, h.acting.trans hallow⟩ fun r hr => ?_
          exact ⟨hr, h.burst, h.unlocked, h.released, rfl, fun hg => (by cases hg), h.idle, h.open_⟩
      | _ => exact hother trivial
  | relay relayOp =>
      cases relayOp with
      | high =>
          exact Obeys.perform ⟨h.unlocked, h.acting.trans hallow.1, h.clear hallow.2⟩
            fun r _ => ⟨trivial, h⟩
      | _ => exact hother trivial
  | _ => exact hother trivial

/-- The gate of a burst is kept while its operations are carried out. -/
theorem bounded_refines (c : CallId) :
    Refines gates (ocrRules c) (bounded o cfg) (fun _ => Between) where
  obeys started g v e h hallow := by
    have hother : (∀ path, e ≠ .env (.recognise path)) → e ≠ .env .closed →
        Obeys (ocrRules c) (fun v' r => Gate.expect e r ∧ Between (g.next e r) v') v
          (op (.outer e)) := fun hr hc => outer_between h hallow hr hc
    cases e with
    | env envOp =>
        cases envOp with
        | recognise path =>
            refine (recognise_obeys _ path h.unlocked h.released h.burst h.idle).mono ?_
            exact fun _ _ h' => ⟨trivial, h.kept h'.1 h'.2⟩
        | closed =>
            refine (isClosed_obeys h.unlocked).mono ?_
            rintro v' r ⟨hkept, hslot, hclear⟩
            have hsame := h.kept hkept (hslot.trans h.released)
            refine ⟨trivial, ?_⟩
            match r with
            | .ok false =>
                exact ⟨hsame.burst, hsame.unlocked, hsame.released, hsame.acting,
                  fun hg => hclear rfl (h.acting.trans hg), hsame.idle, hsame.open_⟩
            | .ok true => exact hsame
            | .error x => exact hsame
        | _ => exact hother (fun _ h => by cases h) fun h => by cases h
    | _ => exact hother (fun _ h => by cases h) fun h => by cases h

/-- A burst. -/
theorem expand_obeys {p : Proc α} (hp : Obeys gates (fun g _ => g = {}) {} p) (started : Option ℚ)
    (h : Between {} v) :
    Obeys (ocrRules c) (Completed c) v (do
      let _ ← p.expand (bounded o cfg) started
      return ()) := by
  refine (Obeys.expand (bounded_refines c) hp h).bind ?_ ?_
  · rintro v' a ⟨t, g, hv, rfl⟩
    exact ⟨hv.unlocked, hv.acting, hv.released, hv.idle, fun hs => by rw [hv.open_] at hs; cases hs⟩
  · rintro v' x ⟨t, g, hv, rfl⟩
    exact ⟨hv.unlocked, hv.acting, hv.released, hv.idle, fun hs => by rw [hv.open_] at hs; cases hs⟩

/-- A thread. -/
theorem invoke_obeys (id : Nat) (job : Job) :
    Obeys (ocrRules c) (Completed c) (OcrWatch.start (.worker id job)) (invoke id job) := by
  refine obeys_answered_bind (fun r hr => hr) ⟨rfl, rfl, rfl, rfl⟩ fun _ => ?_
  rw [Obeys.bind_iff, Obeys.attempt_iff]
  refine Obeys.perform ⟨rfl, rfl, job, rfl⟩ fun r _ => ?_
  refine obeys_answered_bind (fun r hr => hr) ⟨rfl, rfl⟩ fun _ => ?_
  have hend : ∀ reading, reading = r → Obeys (ocrRules c) (Completed c)
      { OcrWatch.start (.worker id job) with slot := false, reading := some r }
        (op (.put id reading)) := by
    rintro reading rfl
    exact obeys_answered (fun r hr => hr) ⟨rfl, job, rfl⟩ fun _ => ⟨rfl, rfl, rfl, rfl, fun h => by cases h⟩
  cases r with
  | ok observation => exact hend _ rfl
  | error x =>
      dsimp only
      split
      · exact hend _ rfl
      · exact ⟨rfl, rfl, rfl, rfl, fun h => by cases h⟩

/-- The section that sets the flag. -/
theorem setFlag_obeys :
    Obeys (ocrRules c) (fun v' r => v'.locked = false ∧ v'.acting = false ∧ v'.slot = false ∧
      v'.operating = false ∧ (∃ worker, r = .ok worker ∧ (v'.shut = true → worker.isSome)))
      (OcrWatch.start .close) setFlag := by
  refine obeys_withSlotLock rfl (R := fun v' r => v'.locked = true ∧ v'.acting = false ∧
    v'.slot = false ∧ v'.operating = false ∧ (∃ worker, r = .ok worker ∧
      (v'.shut = true → worker.isSome))) ?_ ?_
  · refine obeys_answered_bind (fun r hr => hr) rfl fun closed => ?_
    cases closed with
    | true => exact ⟨rfl, rfl, rfl, rfl, none, rfl, fun h => by cases h⟩
    | false =>
        refine obeys_answered_bind (fun r hr => hr) rfl fun _ => ?_
        refine obeys_answered_bind (fun r hr => hr) rfl fun worker => ?_
        exact ⟨rfl, rfl, rfl, rfl, some worker, rfl, fun _ => rfl⟩
  · rintro v' r ⟨hheld, hacting, hslot, hop, hworker⟩
    exact ⟨hheld, rfl, hacting, hslot, hop, hworker⟩

theorem joinWorker_obeys (worker : Option Nat) (h : Completed c v (.ok ())) :
    Obeys (ocrRules c) (Completed c) v (joinWorker worker) := by
  cases worker with
  | none => exact h
  | some id =>
      refine obeys_answered_bind (fun r hr => hr) h.unlocked fun _ => ?_
      refine (forgetWorker_obeys (v := v) id h.unlocked).mono fun v' r h' => ?_
      exact ⟨h'.1.locked, h'.1.acting.trans h.quiet, h'.2.trans h.released,
        h'.1.operating.trans h.idle,
        fun hs => h'.1.passed.trans (h.passed (h'.1.shut.symm.trans hs))⟩

/-- `close` leaves the lock of the pulses after it has set the flag. -/
theorem close_obeys : Obeys (ocrRules c) (Completed c) (OcrWatch.start .close) (close o) := by
  refine setFlag_obeys.bind ?_ ?_
  · rintro v worker ⟨hlocked, hacting, hslot, hop, worker, ⟨⟩, hworker⟩
    cases worker with
    | none =>
        refine ⟨hlocked, hacting, hslot, hop, fun h => ?_⟩
        cases hworker h
    | some worker =>
        refine obeys_answered_bind (fun r hr => ⟨(), hr⟩) ⟨hlocked, hacting⟩ fun _ => ?_
        refine obeys_answered_bind (fun r hr => ⟨(), hr⟩) ⟨hlocked, rfl⟩ fun _ => ?_
        have hend : Completed c { v with
            acting := false, clear := false, passed := v.passed || v.shut } (.ok ()) :=
          ⟨hlocked, rfl, hslot, hop, fun h => Bool.or_eq_true_iff.2 (.inr h)⟩
        dsimp only
        split
        · rw [Obeys.bind_iff]
          refine Obeys.perform hlocked fun r _ => ?_
          cases r with
          | ok started => exact joinWorker_obeys worker hend
          | error x => exact ⟨hend.unlocked, hend.quiet, hend.released, hend.idle, hend.passed⟩
        · exact joinWorker_obeys worker hend
  · rintro v x ⟨-, -, -, -, worker, hx, -⟩
    cases hx

theorem between_start {call : OcrCall} (h : call.isWorker = false) :
    Between {} (OcrWatch.start call) := ⟨h, rfl, h, rfl, fun hg => (by cases hg), rfl, rfl⟩

/-- Every call keeps to the rules. -/
theorem OcrCall.obeys (call : OcrCall) :
    Obeys (ocrRules c) (Completed c) (OcrWatch.start call) (call.program o cfg c) := by
  cases call with
  | process a => exact expand_obeys (GateProcessor.process_gated a) _ (between_start rfl)
  | recordSkipped a =>
      exact expand_obeys (obeys_outside (GateProcessor.bare_recordSkipped a)) _ (between_start rfl)
  | worker id job => exact invoke_obeys id job
  | close => exact close_obeys

end OcrRequest

end GateController

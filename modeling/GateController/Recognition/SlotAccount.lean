import GateController.Recognition.BoundedDiscipline

/-!
# The account of the slot

The slot is free, or exactly one party has it: a burst that took it and has not started its
thread, a thread that was started and has done nothing yet, or a thread that has not given it
back.  A recogniser is called only by the thread that has the slot, so two requests are never
read at once, whatever was given up in between.

Both locks belong to the call that the watch says.
-/

namespace GateController

open Data Effects

namespace OcrRequest

variable {st st' : OcrShared} {log : OcrLog} {c d : CallId} {v v' : OcrWatch} {env : OcrEnv}
  {e : OcrEff} {r : Except Exc e.Ans} {o : Recognizer} {cfg : Config}

/-! ## The invariant -/

/-- Who may have the slot. -/
inductive Holder where
  | call (c : CallId)
  /-- A thread that was started and has done nothing yet. -/
  | thread (id : Nat)

/-- The slot is with a party. -/
def Holds (st : OcrShared) (log : OcrLog) : Holder → Prop
  | .call c => Live c log ∧ ∃ v, ghost ocrRules c log = some v ∧ v.slot = true
  | .thread id => (st.pending id).isSome = true

/-- The locks, the flag and the slot are as the calls know them. -/
structure Accounted (st : OcrShared) (log : OcrLog) : Prop where
  life : ∀ d, Live d log → d.proc = st.life
  slotLock : Each ocrRules (fun d v => v.locked = true ↔ st.slotLock = some d) log
  slotLive : ∀ d, st.slotLock = some d → Live d log
  actuationLock : Each ocrRules (fun d v => v.acting = true ↔ st.actuationLock = some d) log
  actuationLive : ∀ d, st.actuationLock = some d → Live d log
  sawOpen : Each ocrRules (fun _ v => v.sawOpen = true → v.locked = true ∧ st.closed = false) log
  operating : Each ocrRules (fun _ v => v.operating = true → v.slot = true) log
  taken : st.free = false ↔ ∃ h, Holds st log h
  one : ∀ h h', Holds st log h → Holds st log h' → h = h'

/-! ## What an operation changes -/

/-- Two states with the same locks, flag and slot. -/
structure SameAccount (st st' : OcrShared) : Prop where
  life : st'.life = st.life
  slotLock : st'.slotLock = st.slotLock
  actuationLock : st'.actuationLock = st.actuationLock
  closed : st'.closed = st.closed
  free : st'.free = st.free
  pending : st'.pending = st.pending

theorem SameAccount.refl (st : OcrShared) : SameAccount st st := ⟨rfl, rfl, rfl, rfl, rfl, rfl⟩

/-- Two watches with the same locks and slot. -/
structure SameWatch (v v' : OcrWatch) : Prop where
  locked : v'.locked = v.locked
  sawOpen : v'.sawOpen = v.sawOpen
  acting : v'.acting = v.acting
  slot : v'.slot = v.slot
  operating : v'.operating = v.operating

theorem SameWatch.refl (v : OcrWatch) : SameWatch v v := ⟨rfl, rfl, rfl, rfl, rfl⟩

/-- An operation that has nothing to do with the locks and the slot. -/
def OcrEff.Plain : OcrEff → Prop
  | .outer (.acquire .actuation) => False
  | .outer (.release .actuation) => False
  | .acquire => False
  | .release => False
  | .isClosed => False
  | .setClosed => False
  | .tryAcquire => False
  | .releaseSlot => False
  | .startWorker _ _ => False
  | .operate _ _ => False
  | .operated _ => False
  | _ => True

theorem OcrEff.Plain.next (h : e.Plain) (v : OcrWatch) : SameWatch v (v.next e r) := by
  cases e with
  | outer e =>
      cases e with
      | acquire lock => cases lock <;> first | exact h.elim | exact .refl v
      | release lock => cases lock <;> first | exact h.elim | exact .refl v
      | _ => exact .refl v
  | newRequest => cases r <;> exact ⟨rfl, rfl, rfl, rfl, rfl⟩
  | put id reading => exact ⟨rfl, rfl, rfl, rfl, rfl⟩
  | acquire | release | isClosed | setClosed | tryAcquire | releaseSlot | startWorker | operate
  | operated => exact h.elim
  | _ => exact .refl v

/-- An operation outside that is not one of the lock of the pulses. -/
theorem outer_exec {e : Eff} {r : Except Exc e.Ans} (ha : e ≠ .acquire .actuation)
    (hr : e ≠ .release .actuation) (h : ocrExec c env st (.outer e) = some (r, st')) :
    st' = st := by
  have hwait : ocrExec c env st (.outer e) =
      if env.wait then none else some (env.answer e, st) := by
    cases e with
    | acquire lock => cases lock <;> first | exact absurd rfl ha | rfl
    | release lock => cases lock <;> first | exact absurd rfl hr | rfl
    | _ => rfl
  rw [hwait] at h
  split at h
  · cases h
  · cases h
    rfl

theorem OcrEff.Plain.exec (h : e.Plain) (hexec : ocrExec c env st e = some (r, st')) :
    SameAccount st st' := by
  cases e with
  | outer e =>
      have hsame : st' = st := by
        refine outer_exec ?_ ?_ hexec
        · rintro rfl
          exact h
        · rintro rfl
          exact h
      rw [hsame]
      exact .refl st
  | newRequest => cases hexec; exact ⟨rfl, rfl, rfl, rfl, rfl, rfl⟩
  | worker => cases hexec; exact .refl st
  | setWorker id => cases hexec; exact ⟨rfl, rfl, rfl, rfl, rfl, rfl⟩
  | isAlive id => cases hexec; exact .refl st
  | join id =>
      rw [ocrExec] at hexec
      split at hexec
      · cases hexec
      · cases hexec
        exact .refl st
  | put id reading => cases hexec; exact ⟨rfl, rfl, rfl, rfl, rfl, rfl⟩
  | get id =>
      rw [ocrExec] at hexec
      split at hexec
      · cases hexec
        exact ⟨rfl, rfl, rfl, rfl, rfl, rfl⟩
      · split at hexec
        · cases hexec
          exact .refl st
        · cases hexec
  | startAbandon => cases hexec; exact .refl st
  | abandoned =>
      rw [ocrExec] at hexec
      split at hexec
      · cases hexec
      · cases hexec
        exact .refl st
  | startClose => cases hexec; exact .refl st
  | acquire | release | isClosed | setClosed | tryAcquire | releaseSlot | startWorker | operate
  | operated => exact h.elim

/-! ## Holders -/

/-- One operation of a call, and who has the slot. -/
theorem holds_did (st : OcrShared) (hlive : Live c log) (hghost : ghost ocrRules c log = some v) :
    Holds st' (.did c e r :: log) (.call d) ↔
      if d = c then (v.next e r).slot = true else Holds st log (.call d) := by
  by_cases hd : d = c
  · subst hd
    rw [if_pos rfl]
    constructor
    · rintro ⟨-, v', hv', hslot⟩
      cases hv'.symm.trans (ghost_did_self hghost)
      exact hslot
    · exact fun hslot => ⟨hlive, _, ghost_did_self hghost, hslot⟩
  · rw [if_neg hd, Holds, Holds, ghost_did_ne (Ne.symm hd)]
    exact Iff.rfl

/-- Nobody's part in the slot changes. -/
theorem holds_same (hlive : Live c log) (hghost : ghost ocrRules c log = some v)
    (hslot : (v.next e r).slot = v.slot) (hpending : st'.pending = st.pending) (h : Holder) :
    Holds st' (.did c e r :: log) h ↔ Holds st log h := by
  cases h with
  | call d =>
      rw [holds_did st hlive hghost]
      by_cases hd : d = c
      · subst hd
        rw [if_pos rfl, hslot]
        exact ⟨fun hv => ⟨hlive, v, hghost, hv⟩, fun ⟨_, v', hv', hv⟩ => by
          cases hv'.symm.trans hghost
          exact hv⟩
      · rw [if_neg hd]
  | thread id => rw [Holds, Holds, hpending]

theorem Holds.of_slot (hlive : Live c log) (hghost : ghost ocrRules c log = some v)
    (hslot : v.slot = true) : Holds st log (.call c) := ⟨hlive, v, hghost, hslot⟩

/-- The account of the slot, where nobody's part changes. -/
theorem Accounted.slot_same (h : Accounted st log) (hlive : Live c log)
    (hghost : ghost ocrRules c log = some v) (hslot : (v.next e r).slot = v.slot)
    (hpending : st'.pending = st.pending) (hfree : st'.free = st.free) :
    (st'.free = false ↔ ∃ a, Holds st' (.did c e r :: log) a) ∧
      ∀ a a', Holds st' (.did c e r :: log) a → Holds st' (.did c e r :: log) a' → a = a' := by
  have hsame : ∀ a, Holds st' (.did c e r :: log) a ↔ Holds st log a :=
    holds_same hlive hghost hslot hpending
  constructor
  · rw [hfree, h.taken]
    exact exists_congr fun a => (hsame a).symm
  · exact fun a a' ha ha' => h.one a a' ((hsame a).1 ha) ((hsame a').1 ha')

/-- The account after an operation, given the account of the slot and what has changed for the
call and for the others. -/
theorem Accounted.did (h : Accounted st log) (hlive : Live c log)
    (hghost : ghost ocrRules c log = some v) (hlife : st'.life = st.life)
    (hlocked : (v.next e r).locked = true ↔ st'.slotLock = some c)
    (hlockedOthers : ∀ d, d ≠ c → (st.slotLock = some d ↔ st'.slotLock = some d))
    (hacting : (v.next e r).acting = true ↔ st'.actuationLock = some c)
    (hactingOthers : ∀ d, d ≠ c → (st.actuationLock = some d ↔ st'.actuationLock = some d))
    (hsawOpen : (v.next e r).sawOpen = true → (v.next e r).locked = true ∧ st'.closed = false)
    (hclosed : st'.closed = st.closed ∨ v.locked = true)
    (hoperating : (v.next e r).operating = true → (v.next e r).slot = true)
    (hslot : (st'.free = false ↔ ∃ a, Holds st' (.did c e r :: log) a) ∧
      ∀ a a', Holds st' (.did c e r :: log) a → Holds st' (.did c e r :: log) a' → a = a') :
    Accounted st' (.did c e r :: log) where
  life d hd := (h.life d hd).trans hlife.symm
  slotLock := h.slotLock.did hghost hlocked fun d v hd _ hv => hv.trans (hlockedOthers d hd)
  slotLive d hd := by
    by_cases hdc : d = c
    · subst hdc
      exact hlive
    · exact h.slotLive d ((hlockedOthers d hdc).2 hd)
  actuationLock := h.actuationLock.did hghost hacting fun d v hd _ hv =>
    hv.trans (hactingOthers d hd)
  actuationLive d hd := by
    by_cases hdc : d = c
    · subst hdc
      exact hlive
    · exact h.actuationLive d ((hactingOthers d hdc).2 hd)
  sawOpen := by
    refine Each.did (Φ := fun d v => (v.locked = true ↔ st.slotLock = some d) ∧
      (v.sawOpen = true → v.locked = true ∧ st.closed = false)) ?_ hghost hsawOpen ?_
    · exact fun d v hd hv => ⟨h.slotLock d v hd hv, h.sawOpen d v hd hv⟩
    · intro d v' hd _ hv hopen
      obtain ⟨hheld, hflag⟩ := hv.2 hopen
      refine ⟨hheld, ?_⟩
      rcases hclosed with hsame | hself
      · rw [hsame]
        exact hflag
      · -- Two calls do not hold the lock at once.
        have hc := (h.slotLock c v hlive hghost).1 hself
        exact absurd (Option.some.inj ((hv.1.1 hheld).symm.trans hc)) hd
  operating := h.operating.did hghost hoperating fun _ _ _ _ hv => hv
  taken := hslot.1
  one := hslot.2

/-- An operation that has nothing to do with the account. -/
theorem Accounted.plain (h : Accounted st log) (hlive : Live c log)
    (hghost : ghost ocrRules c log = some v) (hstate : SameAccount st st')
    (hwatch : SameWatch v (v.next e r)) : Accounted st' (.did c e r :: log) := by
  refine h.did hlive hghost hstate.life ?_ ?_ ?_ ?_ ?_ (.inl hstate.closed) ?_
    (h.slot_same hlive hghost hwatch.slot hstate.pending hstate.free)
  · rw [hwatch.locked, hstate.slotLock]
    exact h.slotLock c v hlive hghost
  · intro d _
    rw [hstate.slotLock]
  · rw [hwatch.acting, hstate.actuationLock]
    exact h.actuationLock c v hlive hghost
  · intro d _
    rw [hstate.actuationLock]
  · rw [hwatch.sawOpen, hwatch.locked, hstate.closed]
    exact h.sawOpen c v hlive hghost
  · rw [hwatch.operating, hwatch.slot]
    exact h.operating c v hlive hghost

/-- What is known of the call itself. -/
theorem Accounted.self (h : Accounted st log) (hlive : Live c log)
    (hghost : ghost ocrRules c log = some v) :
    (v.locked = true ↔ st.slotLock = some c) ∧ (v.acting = true ↔ st.actuationLock = some c) ∧
      (v.sawOpen = true → v.locked = true ∧ st.closed = false) ∧
      (v.operating = true → v.slot = true) :=
  ⟨h.slotLock c v hlive hghost, h.actuationLock c v hlive hghost, h.sawOpen c v hlive hghost,
    h.operating c v hlive hghost⟩

/-! ## One operation -/

/-- The lock of the slot is taken. -/
theorem Accounted.acquire (h : Accounted st log) (hlive : Live c log)
    (hghost : ghost ocrRules c log = some v) (hnone : st.slotLock = none) :
    Accounted { st with slotLock := some c } (.did c .acquire (.ok ()) :: log) := by
  obtain ⟨-, hacting, -, hop⟩ := h.self hlive hghost
  refine h.did hlive hghost rfl ⟨fun _ => rfl, fun _ => rfl⟩ (fun d hd => ?_) hacting
    (fun d _ => Iff.rfl) (fun hopen => by cases hopen) (.inl rfl) hop
    (h.slot_same hlive hghost rfl rfl rfl)
  rw [hnone]
  exact iff_of_false (fun hs => by cases hs) fun hs => hd (Option.some.inj hs).symm

/-- The lock of the slot is left. -/
theorem Accounted.release (h : Accounted st log) (hlive : Live c log)
    (hghost : ghost ocrRules c log = some v) (hheld : v.locked = true) :
    Accounted { st with slotLock := none } (.did c .release (.ok ()) :: log) := by
  obtain ⟨hlocked, hacting, -, hop⟩ := h.self hlive hghost
  refine h.did hlive hghost rfl (iff_of_false (fun hl => by cases hl) fun hs => by cases hs)
    (fun d hd => ?_) hacting (fun d _ => Iff.rfl) (fun hopen => by cases hopen) (.inl rfl) hop
    (h.slot_same hlive hghost rfl rfl rfl)
  rw [hlocked.1 hheld]
  exact iff_of_false (fun hs => hd (Option.some.inj hs).symm) fun hs => by cases hs

/-- The lock of the pulses is taken. -/
theorem Accounted.acquireActuation (h : Accounted st log) (hlive : Live c log)
    (hghost : ghost ocrRules c log = some v) (hnone : st.actuationLock = none) :
    Accounted { st with actuationLock := some c }
      (.did c (.outer (.acquire .actuation)) (.ok ()) :: log) := by
  obtain ⟨hlocked, -, hopen, hop⟩ := h.self hlive hghost
  refine h.did hlive hghost rfl hlocked (fun d _ => Iff.rfl) ⟨fun _ => rfl, fun _ => rfl⟩
    (fun d hd => ?_) hopen (.inl rfl) hop (h.slot_same hlive hghost rfl rfl rfl)
  rw [hnone]
  exact iff_of_false (fun hs => by cases hs) fun hs => hd (Option.some.inj hs).symm

/-- The lock of the pulses is left. -/
theorem Accounted.releaseActuation (h : Accounted st log) (hlive : Live c log)
    (hghost : ghost ocrRules c log = some v) (hheld : v.acting = true) :
    Accounted { st with actuationLock := none }
      (.did c (.outer (.release .actuation)) (.ok ()) :: log) := by
  obtain ⟨hlocked, hacting, hopen, hop⟩ := h.self hlive hghost
  refine h.did hlive hghost rfl hlocked (fun d _ => Iff.rfl)
    (iff_of_false (fun ha => by cases ha) fun hs => by cases hs) (fun d hd => ?_) hopen (.inl rfl)
    hop (h.slot_same hlive hghost rfl rfl rfl)
  rw [hacting.1 hheld]
  exact iff_of_false (fun hs => hd (Option.some.inj hs).symm) fun hs => by cases hs

/-- The flag is asked for. -/
theorem Accounted.isClosed (h : Accounted st log) (hlive : Live c log)
    (hghost : ghost ocrRules c log = some v) (hheld : v.locked = true) :
    Accounted st (.did c .isClosed (.ok st.closed) :: log) := by
  obtain ⟨hlocked, hacting, hopen, hop⟩ := h.self hlive hghost
  cases hclosed : st.closed with
  | true => exact h.plain hlive hghost (.refl st) (.refl v)
  | false =>
      exact h.did hlive hghost rfl hlocked (fun d _ => Iff.rfl) hacting (fun d _ => Iff.rfl)
        (fun _ => ⟨hheld, hclosed⟩) (.inl rfl) hop (h.slot_same hlive hghost rfl rfl rfl)

/-- The flag is set. -/
theorem Accounted.setClosed (h : Accounted st log) (hlive : Live c log)
    (hghost : ghost ocrRules c log = some v) (hheld : v.locked = true) :
    Accounted { st with closed := true } (.did c .setClosed (.ok ()) :: log) := by
  obtain ⟨hlocked, hacting, -, hop⟩ := h.self hlive hghost
  exact h.did hlive hghost rfl hlocked (fun d _ => Iff.rfl) hacting (fun d _ => Iff.rfl)
    (fun hopen => by cases hopen) (.inr hheld) hop (h.slot_same hlive hghost rfl rfl rfl)

/-- The slot is tried. -/
theorem Accounted.tryAcquire (h : Accounted st log) (hlive : Live c log)
    (hghost : ghost ocrRules c log = some v) (hslot : v.slot = false) :
    Accounted { st with free := false } (.did c .tryAcquire (.ok st.free) :: log) := by
  obtain ⟨hlocked, hacting, hopen, hop⟩ := h.self hlive hghost
  have hnop : v.operating = true → st.free = true := fun hv => by
    rw [hop hv] at hslot
    cases hslot
  refine h.did hlive hghost rfl hlocked (fun d _ => Iff.rfl) hacting (fun d _ => Iff.rfl) hopen
    (.inl rfl) hnop ?_
  cases hfree : st.free with
  | false =>
      refine h.slot_same hlive hghost ?_ rfl hfree.symm
      exact hslot.symm
  | true =>
      -- Nobody had it.
      have hnobody : ∀ a, ¬ Holds st log a := fun a ha => by
        have := h.taken.2 ⟨a, ha⟩
        rw [hfree] at this
        cases this
      have honly : ∀ a, Holds { st with free := false } (.did c .tryAcquire (.ok true) :: log) a →
          a = .call c := by
        intro a ha
        cases a with
        | call d =>
            rw [holds_did st hlive hghost] at ha
            by_cases hd : d = c
            · rw [hd]
            · rw [if_neg hd] at ha
              exact absurd ha (hnobody _)
        | thread id => exact absurd ha (hnobody (.thread id))
      refine ⟨⟨fun _ => ⟨.call c, ?_⟩, fun _ => rfl⟩,
        fun a a' ha ha' => (honly a ha).trans (honly a' ha').symm⟩
      rw [holds_did st hlive hghost, if_pos rfl]
      rfl

/-- The slot is given back. -/
theorem Accounted.releaseSlot (h : Accounted st log) (hlive : Live c log)
    (hghost : ghost ocrRules c log = some v) (hslot : v.slot = true) (hop : v.operating = false) :
    Accounted { st with free := true } (.did c .releaseSlot (.ok ()) :: log) := by
  obtain ⟨hlocked, hacting, hopen, -⟩ := h.self hlive hghost
  have hself : Holds st log (.call c) := .of_slot hlive hghost hslot
  have hnobody : ∀ a, ¬ Holds { st with free := true } (.did c .releaseSlot (.ok ()) :: log) a := by
    intro a ha
    cases a with
    | call d =>
        rw [holds_did st hlive hghost] at ha
        by_cases hd : d = c
        · rw [if_pos hd] at ha
          cases ha
        · rw [if_neg hd] at ha
          cases h.one _ _ ha hself
          exact hd rfl
    | thread id => cases h.one (.thread id) _ ha hself
  refine h.did hlive hghost rfl hlocked (fun d _ => Iff.rfl) hacting (fun d _ => Iff.rfl) hopen
    (.inl rfl) (fun hv => ?_) ⟨iff_of_false (fun hf => by cases hf) fun ⟨a, ha⟩ => hnobody a ha,
      fun a _ ha => absurd ha (hnobody a)⟩
  exact absurd (hop.symm.trans hv) Bool.false_ne_true

/-- The thread is started, and has the slot from now on. -/
theorem Accounted.startWorker (h : Accounted st log) (hlive : Live c log)
    (hghost : ghost ocrRules c log = some v) (hslot : v.slot = true) (hop : v.operating = false)
    (id : Nat) (job : Job) :
    Accounted { st with pending := Function.update st.pending id (some job) }
      (.did c (.startWorker id job) (.ok ()) :: log) := by
  obtain ⟨hlocked, hacting, hopen, -⟩ := h.self hlive hghost
  have hself : Holds st log (.call c) := .of_slot hlive hghost hslot
  have honly : ∀ a, Holds { st with pending := Function.update st.pending id (some job) }
      (.did c (.startWorker id job) (.ok ()) :: log) a → a = .thread id := by
    intro a ha
    cases a with
    | call d =>
        rw [holds_did st hlive hghost] at ha
        by_cases hd : d = c
        · rw [if_pos hd] at ha
          cases ha
        · rw [if_neg hd] at ha
          cases h.one _ _ ha hself
          exact absurd rfl hd
    | thread other =>
        by_cases hother : other = id
        · rw [hother]
        · rw [Holds] at ha
          dsimp only at ha
          rw [Function.update_of_ne hother] at ha
          cases h.one (.thread other) _ ha hself
  refine h.did hlive hghost rfl hlocked (fun d _ => Iff.rfl) hacting (fun d _ => Iff.rfl) hopen
    (.inl rfl) (fun hv => ?_) ⟨⟨fun _ => ⟨.thread id, ?_⟩, fun _ => h.taken.2 ⟨_, hself⟩⟩,
      fun a a' ha ha' => (honly a ha).trans (honly a' ha').symm⟩
  · exact absurd (hop.symm.trans hv) Bool.false_ne_true
  · rw [Holds]
    dsimp only
    rw [Function.update_self]
    rfl

/-- One operation keeps the account, and is answered as the rules expect. -/
theorem Accounted.exec (h : Accounted st log) (hlive : Live c log)
    (hghost : ghost ocrRules c log = some v) (hallow : v.allow e)
    (hexec : ocrExec c env st e = some (r, st')) :
    OcrWatch.expect e r ∧ Accounted st' (.did c e r :: log) := by
  obtain ⟨hlocked, hacting, -, hop⟩ := h.self hlive hghost
  have hplain : e.Plain → Accounted st' (.did c e r :: log) := fun hp =>
    h.plain hlive hghost (hp.exec hexec) (hp.next v)
  cases e with
  | outer e =>
      cases e with
      | acquire lock =>
          cases lock with
          | actuation =>
              simp only [ocrExec] at hexec
              split at hexec
              · cases hexec
              next hsome =>
                cases hexec
                exact ⟨rfl, h.acquireActuation hlive hghost (Option.not_isSome_iff_eq_none.1 hsome)⟩
          | _ => exact ⟨trivial, hplain trivial⟩
      | release lock =>
          cases lock with
          | actuation =>
              cases hexec
              exact ⟨rfl, h.releaseActuation hlive hghost hallow.2⟩
          | _ => exact ⟨trivial, hplain trivial⟩
      | _ => exact ⟨trivial, hplain trivial⟩
  | acquire =>
      simp only [ocrExec] at hexec
      split at hexec
      · cases hexec
      next hsome =>
        cases hexec
        exact ⟨⟨(), rfl⟩, h.acquire hlive hghost (Option.not_isSome_iff_eq_none.1 hsome)⟩
  | release =>
      cases hexec
      exact ⟨⟨(), rfl⟩, h.release hlive hghost hallow⟩
  | isClosed =>
      cases hexec
      exact ⟨⟨_, rfl⟩, h.isClosed hlive hghost hallow⟩
  | setClosed =>
      cases hexec
      exact ⟨⟨(), rfl⟩, h.setClosed hlive hghost hallow⟩
  | tryAcquire =>
      cases hexec
      exact ⟨⟨_, rfl⟩, h.tryAcquire hlive hghost hallow.2.2⟩
  | releaseSlot =>
      -- The call has the slot, so that the semaphore cannot be released too often.
      have hfree : st.free = false := h.taken.2 ⟨_, .of_slot hlive hghost hallow.1⟩
      rw [ocrExec, hfree] at hexec
      cases hexec
      exact ⟨⟨(), rfl⟩, h.releaseSlot hlive hghost hallow.1 hallow.2⟩
  | startWorker id job =>
      refine ⟨trivial, ?_⟩
      simp only [ocrExec] at hexec
      split at hexec
      · cases hexec
        exact h.plain hlive hghost (.refl st) (.refl v)
      · cases hexec
        exact h.startWorker hlive hghost hallow.2.2.1 hallow.2.2.2.2.2 id job
  | operate id job =>
      cases hexec
      exact ⟨⟨(), rfl⟩, h.did hlive hghost rfl hlocked (fun _ _ => Iff.rfl) hacting
        (fun _ _ => Iff.rfl) (h.sawOpen c v hlive hghost) (.inl rfl) (fun _ => hallow.2.2.1)
        (h.slot_same hlive hghost rfl rfl rfl)⟩
  | operated id =>
      refine ⟨trivial, ?_⟩
      simp only [ocrExec] at hexec
      split at hexec
      · cases hexec
      · cases hexec
        exact h.did hlive hghost rfl hlocked (fun _ _ => Iff.rfl) hacting (fun _ _ => Iff.rfl)
          (h.sawOpen c v hlive hghost) (.inl rfl) (fun hv => by cases hv)
          (h.slot_same hlive hghost rfl rfl rfl)
  | newRequest => cases hexec; exact ⟨⟨_, rfl⟩, hplain trivial⟩
  | worker => cases hexec; exact ⟨⟨_, rfl⟩, hplain trivial⟩
  | setWorker id => cases hexec; exact ⟨⟨_, rfl⟩, hplain trivial⟩
  | isAlive id => cases hexec; exact ⟨⟨_, rfl⟩, hplain trivial⟩
  | join id =>
      refine ⟨?_, hplain trivial⟩
      simp only [ocrExec] at hexec
      split at hexec
      · cases hexec
      · cases hexec
        exact ⟨_, rfl⟩
  | put id reading => cases hexec; exact ⟨⟨_, rfl⟩, hplain trivial⟩
  | get id =>
      refine ⟨?_, hplain trivial⟩
      simp only [ocrExec] at hexec
      split at hexec
      · cases hexec
        exact ⟨_, rfl⟩
      · split at hexec
        · cases hexec
          exact ⟨_, rfl⟩
        · cases hexec
  | startAbandon => exact ⟨trivial, hplain trivial⟩
  | abandoned =>
      refine ⟨?_, hplain trivial⟩
      simp only [ocrExec] at hexec
      split at hexec
      · cases hexec
      · cases hexec
        exact ⟨_, rfl⟩
  | startClose => exact ⟨trivial, hplain trivial⟩

/-! ## The other events -/

/-- Who has the slot when a call begins. -/
theorem holds_began (st : OcrShared) {call : OcrCall} :
    Holds st' (.began c call :: log) (.call d) ↔
      if d = c then call.isWorker = true else Holds st log (.call d) := by
  by_cases hd : d = c
  · subst hd
    rw [if_pos rfl]
    constructor
    · rintro ⟨-, v, hv, hslot⟩
      cases hv.symm.trans ghost_began_self
      exact hslot
    · exact fun hworker => ⟨.inl rfl, _, ghost_began_self, hworker⟩
  · rw [if_neg hd, Holds, Holds, ghost_began_ne (Ne.symm hd)]
    exact and_congr_left fun _ => ⟨fun h => h.resolve_left (Ne.symm hd), .inr⟩

/-- What a call finds when it begins. -/
structure Accepted (c : CallId) (call : OcrCall) (st st' : OcrShared) : Prop where
  proc : c.proc = st.life
  life : st'.life = st.life
  slotLock : st'.slotLock = st.slotLock
  actuationLock : st'.actuationLock = st.actuationLock
  closed : st'.closed = st.closed
  free : st'.free = st.free
  results : st'.results = st.results
  requests : st'.requests = st.requests
  pending : call.isWorker = false ∧ st'.pending = st.pending ∨
    ∃ id job, call = .worker id job ∧ st.pending id = some job ∧
      st'.pending = Function.update st.pending id none

theorem accepted {call : OcrCall} (h : ocrAccept c call st = some st') :
    Accepted c call st st' := by
  unfold ocrAccept at h
  split at h
  · cases h
  next hproc =>
    have hproc' := not_not.1 hproc
    cases call with
    | worker id job =>
        dsimp only at h
        split at h
        · next hpending =>
          cases h
          exact ⟨hproc', rfl, rfl, rfl, rfl, rfl, rfl, rfl, .inr ⟨id, job, rfl, hpending, rfl⟩⟩
        · cases h
    | process | recordSkipped | close =>
        cases h
        exact ⟨hproc', rfl, rfl, rfl, rfl, rfl, rfl, rfl, .inl ⟨rfl, rfl⟩⟩

/-- The account of the slot when a call begins. -/
theorem Accounted.slot_began (h : Accounted st log) (hnot : ¬ Live c log) {call : OcrCall}
    (haccept : Accepted c call st st') :
    (st'.free = false ↔ ∃ a, Holds st' (.began c call :: log) a) ∧
      ∀ a a', Holds st' (.began c call :: log) a → Holds st' (.began c call :: log) a' →
        a = a' := by
  obtain ⟨hworker, hpending⟩ | ⟨id, job, rfl, hid, hpending⟩ := haccept.pending
  · have hsame : ∀ a, Holds st' (.began c call :: log) a ↔ Holds st log a := by
      intro a
      cases a with
      | call d =>
          rw [holds_began st]
          by_cases hd : d = c
          · rw [if_pos hd, hworker, hd]
            exact iff_of_false Bool.false_ne_true fun hh => hnot hh.1
          · rw [if_neg hd]
      | thread id => rw [Holds, Holds, hpending]
    constructor
    · rw [haccept.free, h.taken]
      exact exists_congr fun a => (hsame a).symm
    · exact fun a a' ha ha' => h.one a a' ((hsame a).1 ha) ((hsame a').1 ha')
  · have hthread : Holds st log (.thread id) := by
      rw [Holds, hid]
      rfl
    have honly : ∀ a, Holds st' (.began c (.worker id job) :: log) a → a = .call c := by
      intro a ha
      cases a with
      | call d =>
          rw [holds_began st] at ha
          by_cases hd : d = c
          · rw [hd]
          · rw [if_neg hd] at ha
            cases h.one _ _ ha hthread
      | thread other =>
          rw [Holds, hpending] at ha
          by_cases hother : other = id
          · rw [hother, Function.update_self] at ha
            cases ha
          · rw [Function.update_of_ne hother] at ha
            cases h.one (.thread other) _ ha hthread
            exact absurd rfl hother
    refine ⟨⟨fun _ => ⟨.call c, ?_⟩, fun _ => ?_⟩,
      fun a a' ha ha' => (honly a ha).trans (honly a' ha').symm⟩
    · rw [holds_began st, if_pos rfl]
      rfl
    · rw [haccept.free]
      exact h.taken.2 ⟨_, hthread⟩

theorem Accounted.began (h : Accounted st log) (hnew : ¬ Begun c log) {call : OcrCall}
    (haccept : Accepted c call st st') : Accounted st' (.began c call :: log) := by
  have hnot : ¬ Live c log := fun hlive => hnew hlive.begun
  obtain ⟨htaken, hone⟩ := h.slot_began hnot haccept
  have hnobody : ∀ {lock : Option CallId}, (∀ d, lock = some d → Live d log) →
      (false = true ↔ lock = some c) := fun hlock =>
    iff_of_false Bool.false_ne_true fun hs => hnot (hlock c hs)
  refine ⟨?_, ?_, fun d hd => .inr (h.slotLive d (haccept.slotLock ▸ hd)), ?_,
    fun d hd => .inr (h.actuationLive d (haccept.actuationLock ▸ hd)), ?_, ?_, htaken, hone⟩
  · rintro d (rfl | hd)
    · exact haccept.proc.trans haccept.life.symm
    · exact (h.life d hd).trans haccept.life.symm
  · rw [haccept.slotLock]
    exact h.slotLock.began (hnobody h.slotLive) fun _ _ _ _ hv => hv
  · rw [haccept.actuationLock]
    exact h.actuationLock.began (hnobody h.actuationLive) fun _ _ _ _ hv => hv
  · rw [haccept.closed]
    exact h.sawOpen.began (fun hv => by cases hv) fun _ _ _ _ hv => hv
  · exact h.operating.began (fun hv => by cases hv) fun _ _ _ _ hv => hv

theorem Accounted.ended (h : Accounted st log) (hlive : Live c log)
    (hghost : ghost ocrRules c log = some v) {r : Except Exc Unit} (hdone : Completed c v r) :
    Accounted st (.ended c r :: log) := by
  obtain ⟨hlocked, hacting, -, -⟩ := h.self hlive hghost
  have hsame : ∀ a, Holds st (.ended c r :: log) a ↔ Holds st log a := by
    intro a
    cases a with
    | call d =>
        refine ⟨fun ha => ⟨ha.1.2, ha.2⟩, fun ha => ⟨⟨?_, ha.1⟩, ha.2⟩⟩
        rintro rfl
        obtain ⟨-, v', hv', hslot⟩ := ha
        cases hv'.symm.trans hghost
        exact Bool.false_ne_true (hdone.released.symm.trans hslot)
    | thread id => exact Iff.rfl
  have hother : ∀ {lock : Option CallId} {b : Bool}, b = false → (b = true ↔ lock = some c) →
      ∀ d, lock = some d → c ≠ d := by
    rintro lock b rfl hlock d hd rfl
    exact Bool.false_ne_true (hlock.2 hd)
  exact ⟨fun d hd => h.life d hd.2, h.slotLock.ended,
    fun d hd => ⟨hother hdone.unlocked hlocked d hd, h.slotLive d hd⟩, h.actuationLock.ended,
    fun d hd => ⟨hother hdone.quiet hacting d hd, h.actuationLive d hd⟩, h.sawOpen.ended,
    h.operating.ended, h.taken.trans (exists_congr fun a => (hsame a).symm),
    fun a a' ha ha' => h.one a a' ((hsame a).1 ha) ((hsame a').1 ha')⟩

theorem Accounted.crashed (h : Accounted st log) (p : Nat) :
    Accounted (if p = st.life then { life := st.life + 1, requests := st.requests } else st)
      (.crashed p :: log) := by
  split
  next hp =>
    subst hp
    have hnone : ∀ d, ¬ Live d (.crashed st.life :: log : OcrLog) :=
      fun d hd => hd.1 (h.life d hd.2)
    have hnobody : ∀ a, ¬ Holds { life := st.life + 1, requests := st.requests }
        (.crashed st.life :: log) a := by
      intro a ha
      cases a with
      | call d => exact hnone d ha.1
      | thread id => cases ha
    exact ⟨fun d hd => absurd hd (hnone d), fun d _ hd => absurd hd (hnone d),
      fun d hd => (by cases hd), fun d _ hd => absurd hd (hnone d), fun d hd => (by cases hd),
      fun d _ hd => absurd hd (hnone d), fun d _ hd => absurd hd (hnone d),
      iff_of_false (fun hf => by cases hf) fun ⟨a, ha⟩ => hnobody a ha,
      fun a _ ha => absurd ha (hnobody a)⟩
  next hp =>
    have hlive : ∀ d, Live d log → d.proc ≠ p := fun d hd hdp => hp (hdp.symm.trans (h.life d hd))
    have hsame : ∀ a, Holds st (.crashed p :: log) a ↔ Holds st log a := by
      intro a
      cases a with
      | call d => exact ⟨fun ha => ⟨ha.1.2, ha.2⟩, fun ha => ⟨⟨hlive d ha.1, ha.1⟩, ha.2⟩⟩
      | thread id => exact Iff.rfl
    exact ⟨fun d hd => h.life d hd.2, h.slotLock.crashed fun _ _ _ _ hv => hv,
      fun d hd => ⟨hlive d (h.slotLive d hd), h.slotLive d hd⟩,
      h.actuationLock.crashed fun _ _ _ _ hv => hv,
      fun d hd => ⟨hlive d (h.actuationLive d hd), h.actuationLive d hd⟩,
      h.sawOpen.crashed fun _ _ _ _ hv => hv, h.operating.crashed fun _ _ _ _ hv => hv,
      h.taken.trans (exists_congr fun a => (hsame a).symm),
      fun a a' ha ha' => h.one a a' ((hsame a).1 ha) ((hsame a').1 ha')⟩

/-! ## Every run -/

/-- The account is kept. -/
theorem accounted_sound (o : Recognizer) (cfg : Config) :
    Invariant (ocrThreads o cfg) ocrRules Completed (fun _ _ => True) Accounted where
  obeys _ _ call _ _ _ _ := call.obeys
  began _ _ _ _ _ h _ hnew haccept := h.began hnew (accepted haccept)
  did _ _ _ _ _ _ _ _ _ h _ _ hlive hghost hallow hexec := h.exec hlive hghost hallow hexec
  ended _ _ _ _ _ h hlive hghost hdone := h.ended hlive hghost hdone
  crashed _ p _ _ h _ := h.crashed p

/-- Before any call. -/
theorem accounted_init : Accounted {} ([] : OcrLog) :=
  ⟨fun _ hd => hd.elim, fun _ _ hd => hd.elim, fun _ hd => (by cases hd), fun _ _ hd => hd.elim,
    fun _ hd => (by cases hd), fun _ _ hd => hd.elim, fun _ _ hd => hd.elim,
    iff_of_false (fun hf => by cases hf) (fun ⟨a, ha⟩ => by cases a with
      | call d => exact ha.1
      | thread id => cases ha),
    fun a _ ha => by cases a with
      | call d => exact ha.1.elim
      | thread id => cases ha⟩

theorem ocr_accounted (o : Recognizer) (cfg : Config) (l : List (Choice OcrEnv OcrCall)) :
    Sound ocrRules Completed ((ocrThreads o cfg).run (World.init {}) l) ∧
      Accounted ((ocrThreads o cfg).run (World.init {}) l).state
        ((ocrThreads o cfg).run (World.init {}) l).log :=
  (accounted_sound o cfg).run (Sound.init _ _ _) accounted_init (Machine.admits_true _ l)

/-- The call is in the recogniser. -/
def Operating (log : OcrLog) (c : CallId) : Prop :=
  Live c log ∧ ∃ v, ghost ocrRules c log = some v ∧ v.operating = true

/-- Whatever requests are made, given up, refused or cut short: the slot is taken if and only if
one party has it, two threads are never in the recogniser at once, and nobody gives the slot back
without having it. -/
theorem slot_in_any_run (o : Recognizer) (cfg : Config) (l : List (Choice OcrEnv OcrCall)) :
    (((ocrThreads o cfg).run (World.init {}) l).state.free = false ↔
      ∃ a, Holds ((ocrThreads o cfg).run (World.init {}) l).state
        ((ocrThreads o cfg).run (World.init {}) l).log a) ∧
    (∀ a a', Holds ((ocrThreads o cfg).run (World.init {}) l).state
        ((ocrThreads o cfg).run (World.init {}) l).log a →
      Holds ((ocrThreads o cfg).run (World.init {}) l).state
        ((ocrThreads o cfg).run (World.init {}) l).log a' → a = a') ∧
    (∀ c d, Operating ((ocrThreads o cfg).run (World.init {}) l).log c →
      Operating ((ocrThreads o cfg).run (World.init {}) l).log d → c = d) ∧
    ∀ c x, .did c .releaseSlot (.error x) ∉ ((ocrThreads o cfg).run (World.init {}) l).log := by
  obtain ⟨hsound, h⟩ := ocr_accounted o cfg l
  refine ⟨h.taken, h.one, ?_, ?_⟩
  · rintro c d ⟨hc, v, hv, hop⟩ ⟨hd, v', hv', hop'⟩
    have hsame := h.one _ _ (.of_slot hc hv (h.operating c v hc hv hop))
      (.of_slot hd hv' (h.operating d v' hd hv' hop'))
    exact Holder.call.inj hsame
  · intro c x hmem
    obtain ⟨later, earlier, heq⟩ := List.mem_iff_append.1 hmem
    obtain ⟨-, v, -, -, a, ha⟩ := hsound.lawful.did ⟨later, heq.symm⟩
    cases ha

end OcrRequest

end GateController

import GateController.Recognition.SlotAccount

/-!
# Closing a processor

`close` sets the flag and then takes `_actuation_lock` once.  A burst that holds this lock has
asked for the flag since it took it, before it drives the output high.  So what was under way is
waited for, and what comes later finds the flag set.

No thread is started once the flag is set, and no burst drives the output high once the call that
set it has returned.
-/

namespace GateController

open Data Effects

namespace OcrRequest

variable {st st' : OcrShared} {log : OcrLog} {c d : CallId} {v v' : OcrWatch} {env : OcrEnv}
  {e : OcrEff} {r : Except Exc e.Ans} {o : Recognizer} {cfg : Config}

/-! ## The flag -/

theorem exec_closed (h : ocrExec c env st e = some (r, st')) :
    st'.life = st.life ∧ (st'.closed = st.closed ∨ e = .setClosed ∧ st'.closed = true) := by
  by_cases hp : e.Plain
  · exact ⟨(hp.exec h).life, .inl (hp.exec h).closed⟩
  · cases e with
    | outer e =>
        cases e with
        | acquire lock =>
            cases lock with
            | actuation =>
                simp only [ocrExec] at h
                split at h <;> cases h
                exact ⟨rfl, .inl rfl⟩
            | _ => exact absurd trivial hp
        | release lock =>
            cases lock with
            | actuation =>
                cases h
                exact ⟨rfl, .inl rfl⟩
            | _ => exact absurd trivial hp
        | _ => exact absurd trivial hp
    | acquire =>
        simp only [ocrExec] at h
        split at h <;> cases h
        exact ⟨rfl, .inl rfl⟩
    | setClosed =>
        cases h
        exact ⟨rfl, .inr ⟨rfl, rfl⟩⟩
    | releaseSlot =>
        simp only [ocrExec] at h
        split at h <;> cases h <;> exact ⟨rfl, .inl rfl⟩
    | startWorker id job =>
        simp only [ocrExec] at h
        split at h <;> cases h <;> exact ⟨rfl, .inl rfl⟩
    | operated id =>
        simp only [ocrExec] at h
        split at h <;> cases h
        exact ⟨rfl, .inl rfl⟩
    | release | isClosed | tryAcquire | operate =>
        cases h
        exact ⟨rfl, .inl rfl⟩
    | newRequest | worker | setWorker | isAlive | join | put | get | startAbandon | abandoned
    | startClose => exact absurd trivial hp

/-- What becomes of the flag in the watch of a call. -/
theorem next_shut (v : OcrWatch) (e : OcrEff) (r : Except Exc e.Ans) :
    (v.next e r).shut = v.shut ∨ e = .setClosed ∧ (v.next e r).shut = true := by
  by_cases hset : e = .setClosed
  · subst hset
    exact .inr ⟨rfl, rfl⟩
  · refine .inl ?_
    unfold OcrWatch.next
    split <;> first | rfl | exact absurd rfl hset

/-- What becomes of its knowledge that the processor is open. -/
theorem next_clear (v : OcrWatch) (e : OcrEff) (r : Except Exc e.Ans)
    (h : (v.next e r).clear = true) :
    v.clear = true ∧ (v.next e r).acting = v.acting ∨
      (⟨e, r⟩ : Σ e : OcrEff, Except Exc e.Ans) = ⟨.isClosed, .ok false⟩ ∧
        (v.next e r).acting = v.acting := by
  unfold OcrWatch.next at h ⊢
  split at h <;> first | exact .inl ⟨h, rfl⟩ | exact .inr ⟨rfl, rfl⟩ | cases h

theorem next_passed (v : OcrWatch) (e : OcrEff) (r : Except Exc e.Ans)
    (h : (v.next e r).passed = true) :
    v.passed = true ∨ e = .outer (.release .actuation) ∧ v.shut = true := by
  by_cases hrel : e = .outer (.release .actuation)
  · subst hrel
    rcases Bool.or_eq_true_iff.1 h with hp | hs
    · exact .inl hp
    · exact .inr ⟨rfl, hs⟩
  · refine .inl ?_
    unfold OcrWatch.next at h
    split at h <;> first | exact h | exact absurd rfl hrel

/-! ## The invariant -/

/-- What no call of a process does once the flag is set or waited for. -/
def Admitted : Event OcrEff OcrEff.Ans Exc OcrCall Unit → OcrLog → Prop
  | .did c (.outer (.relay .high)) _, earlier =>
      ∀ d v, d.proc = c.proc → ghost ocrRules d earlier = some v → v.passed = false
  | .did c (.startWorker _ _) (.ok _), earlier =>
      ∀ d v, d.proc = c.proc → ghost ocrRules d earlier = some v → v.shut = false
  | _, _ => True

/-- The flag is set when a call has set it.  When it has also waited, nobody that is about to
pulse knows the processor open. -/
structure Shutting (st : OcrShared) (log : OcrLog) : Prop where
  known : ∀ d v, ghost ocrRules d log = some v → d.proc ≤ st.life
  set : ∀ d v, ghost ocrRules d log = some v → d.proc = st.life → v.shut = true →
    st.closed = true
  waited : ∀ d v, ghost ocrRules d log = some v → v.passed = true → v.shut = true
  acting : Each ocrRules (fun _ v => v.clear = true → v.acting = true) log
  quiet : ∀ d v, ghost ocrRules d log = some v → d.proc = st.life → v.passed = true →
    Each ocrRules (fun _ v => v.clear = false) log
  admitted : Always Admitted log

theorem Shutting.admits (h : Shutting st log) (hacc : Accounted st log) (hlive : Live c log)
    (hghost : ghost ocrRules c log = some v) (hallow : v.allow e) : Admitted (.did c e r) log := by
  have hproc := hacc.life c hlive
  unfold Admitted
  split
  · next heq =>
    cases heq
    intro d v' hd hv'
    by_contra hpassed
    have hclear := h.quiet d v' hv' (hd.trans hproc) (Bool.eq_true_of_not_eq_false hpassed) c v
      hlive hghost
    exact Bool.false_ne_true (hclear.symm.trans hallow.2.2)
  · next heq =>
    cases heq
    intro d v' hd hv'
    by_contra hshut
    have hclosed := h.set d v' hv' (hd.trans hproc) (Bool.eq_true_of_not_eq_false hshut)
    have hopen := (hacc.sawOpen c v hlive hghost hallow.2.1).2
    exact Bool.false_ne_true (hopen.symm.trans hclosed)
  · trivial

/-- Who has the watch `v` after an operation had it, or is the call itself. -/
theorem ghost_did_cases {s : OcrWatch} (hghost : ghost ocrRules c log = some v)
    (h : ghost ocrRules d (.did c e r :: log) = some s) :
    d = c ∧ s = v.next e r ∨ d ≠ c ∧ ghost ocrRules d log = some s := by
  by_cases hd : d = c
  · subst hd
    exact .inl ⟨rfl, Option.some.inj (h.symm.trans (ghost_did_self hghost))⟩
  · rw [ghost_did_ne (Ne.symm hd)] at h
    exact .inr ⟨hd, h⟩

/-- One operation. -/
theorem Shutting.did (h : Shutting st log) (hacc : Accounted st log) (hlive : Live c log)
    (hghost : ghost ocrRules c log = some v) (hallow : v.allow e)
    (hexec : ocrExec c env st e = some (r, st')) : Shutting st' (.did c e r :: log) := by
  obtain ⟨hlife, hclosed⟩ := exec_closed hexec
  have hmono : st.closed = true → st'.closed = true := fun hc =>
    hclosed.elim (fun hs => hs.trans hc) fun hs => hs.2
  -- A call that asks for the flag is told that it is set.
  have hclear : (v.next e r).clear = true → v.clear = true ∨ st.closed = false := by
    intro hc
    rcases next_clear v e r hc with ⟨hv, -⟩ | ⟨heq, -⟩
    · exact .inl hv
    · cases heq
      simp only [ocrExec] at hexec
      exact .inr (Except.ok.inj (Prod.mk.inj (Option.some.inj hexec)).1)
  have hset : ∀ d s, ghost ocrRules d (.did c e r :: log) = some s → d.proc = st'.life →
      s.shut = true → st'.closed = true := by
    intro d s hs hd hshut
    rw [hlife] at hd
    rcases ghost_did_cases hghost hs with ⟨rfl, rfl⟩ | ⟨-, hs'⟩
    · rcases next_shut v e r with hsame | ⟨rfl, -⟩
      · exact hmono (h.set d v hghost hd (hsame.symm.trans hshut))
      · cases hexec
        rfl
    · exact hmono (h.set d s hs' hd hshut)
  refine ⟨?_, hset, ?_, ?_, ?_, h.admits hacc hlive hghost hallow, h.admitted⟩
  · intro d s hs
    rw [hlife]
    rcases ghost_did_cases hghost hs with ⟨rfl, -⟩ | ⟨-, hs'⟩
    · exact h.known d v hghost
    · exact h.known d s hs'
  · intro d s hs hpassed
    rcases ghost_did_cases hghost hs with ⟨rfl, rfl⟩ | ⟨-, hs'⟩
    · have hshut : v.shut = true := (next_passed v e r hpassed).elim (h.waited d v hghost)
        fun hrel => hrel.2
      rcases next_shut v e r with hsame | ⟨-, hnow⟩
      · exact hsame.trans hshut
      · exact hnow
    · exact h.waited d s hs' hpassed
  · refine h.acting.did hghost (fun hc => ?_) fun _ _ _ _ hd => hd
    rcases next_clear v e r hc with ⟨hv, hacting⟩ | ⟨heq, hacting⟩
    · exact hacting.trans (h.acting c v hlive hghost hv)
    · cases heq
      rcases Bool.or_eq_true_iff.1 hc with ha | hv
      · exact hacting.trans ha
      · exact hacting.trans (h.acting c v hlive hghost hv)
  · intro d s hs hd hpassed
    rw [hlife] at hd
    have hbefore : ∀ d s, ghost ocrRules d log = some s → d.proc = st.life → s.passed = true →
        Each ocrRules (fun _ v => v.clear = false) (.did c e r :: log) := by
      intro d s hs' hd hpassed
      have hquiet := h.quiet d s hs' hd hpassed
      refine hquiet.did hghost ?_ fun _ _ _ _ hd => hd
      refine Bool.eq_false_of_not_eq_true fun hc => ?_
      rcases hclear hc with hv | hopen
      · exact Bool.false_ne_true ((hquiet c v hlive hghost).symm.trans hv)
      · exact Bool.false_ne_true
          (hopen.symm.trans (h.set d s hs' hd (h.waited d s hs' hpassed)))
    rcases ghost_did_cases hghost hs with ⟨rfl, rfl⟩ | ⟨-, hs'⟩
    · rcases next_passed v e r hpassed with hv | ⟨rfl, -⟩
      · exact hbefore d v hghost hd hv
      · -- The call leaves the lock, so that nobody else has it.
        refine Each.did (Φ := fun d v => (v.acting = true ↔ st.actuationLock = some d) ∧
          (v.clear = true → v.acting = true))
          (fun d v hd hv => ⟨hacc.actuationLock d v hd hv, h.acting d v hd hv⟩) hghost rfl ?_
        intro other v' hne _ hv'
        refine Bool.eq_false_of_not_eq_true fun hc => ?_
        have hself := (hacc.actuationLock d v hlive hghost).1 hallow.2
        exact hne (Option.some.inj ((hv'.1.1 (hv'.2 hc)).symm.trans hself))
    · exact hbefore d s hs' hd hpassed

theorem Shutting.began (h : Shutting st log) {call : OcrCall} (haccept : Accepted c call st st') :
    Shutting st' (.began c call :: log) := by
  have hcases : ∀ d s, ghost ocrRules d (.began c call :: log) = some s →
      d = c ∧ s = OcrWatch.start call ∨ ghost ocrRules d log = some s := by
    intro d s hs
    by_cases hd : d = c
    · subst hd
      exact .inl ⟨rfl, Option.some.inj (hs.symm.trans ghost_began_self)⟩
    · rw [ghost_began_ne (Ne.symm hd)] at hs
      exact .inr hs
  refine ⟨?_, ?_, ?_, h.acting.began (fun hc => by cases hc) fun _ _ _ _ hd => hd, ?_, trivial,
    h.admitted⟩
  · intro d s hs
    rw [haccept.life]
    rcases hcases d s hs with ⟨rfl, -⟩ | hs'
    · exact haccept.proc.le
    · exact h.known d s hs'
  · intro d s hs hd hshut
    rw [haccept.closed]
    rcases hcases d s hs with ⟨-, rfl⟩ | hs'
    · cases hshut
    · exact h.set d s hs' (hd.trans haccept.life) hshut
  · intro d s hs hpassed
    rcases hcases d s hs with ⟨-, rfl⟩ | hs'
    · cases hpassed
    · exact h.waited d s hs' hpassed
  · intro d s hs hd hpassed
    rcases hcases d s hs with ⟨-, rfl⟩ | hs'
    · cases hpassed
    · exact (h.quiet d s hs' (hd.trans haccept.life) hpassed).began rfl fun _ _ _ _ hv => hv

theorem Shutting.crashed (h : Shutting st log) (p : Nat) :
    Shutting (if p = st.life then { life := st.life + 1, requests := st.requests } else st)
      (.crashed p :: log) := by
  split
  next =>
    have hold : ∀ d s, ghost ocrRules d log = some s → d.proc ≠ st.life + 1 := by
      intro d s hs hd
      have hle := h.known d s hs
      omega
    exact ⟨fun d s hs => (h.known d s hs).trans (Nat.le_succ _),
      fun d s hs hd => absurd hd (hold d s hs), h.waited, h.acting.crashed fun _ _ _ _ hv => hv,
      fun d s hs hd => absurd hd (hold d s hs), trivial, h.admitted⟩
  next =>
    exact ⟨h.known, h.set, h.waited, h.acting.crashed fun _ _ _ _ hv => hv,
      fun d s hs hd hpassed => (h.quiet d s hs hd hpassed).crashed fun _ _ _ _ hv => hv, trivial,
      h.admitted⟩

theorem shutting_kept (o : Recognizer) (cfg : Config) :
    Keeps (ocrThreads o cfg) ocrRules Completed (fun _ _ => True) Accounted Shutting where
  began _ _ _ _ _ _ h _ _ haccept := h.began (accepted haccept)
  did _ _ _ _ _ _ _ _ _ hacc h _ _ hlive hghost hallow hexec :=
    h.did hacc hlive hghost hallow hexec
  ended _ _ _ _ _ _ h _ _ _ := ⟨h.known, h.set, h.waited, h.acting.ended,
    fun d s hs hd hpassed => (h.quiet d s hs hd hpassed).ended, trivial, h.admitted⟩
  crashed _ p _ _ _ h _ := h.crashed p

/-- Before any call. -/
theorem shutting_init : Shutting {} ([] : OcrLog) :=
  ⟨fun _ _ hs => (by cases hs), fun _ _ hs => (by cases hs), fun _ _ hs => (by cases hs),
    fun _ _ hd => hd.elim, fun _ _ hs => (by cases hs), trivial⟩

/-! ## Every run -/

/-- A call that has set the flag knows it. -/
theorem shut_of_setClosed (hlawful : Lawful ocrRules Completed log) {r : Except Exc Unit}
    (hmem : .did d .setClosed r ∈ log) : ∃ v, ghost ocrRules d log = some v ∧ v.shut = true := by
  obtain ⟨later, earlier, heq⟩ := List.mem_iff_append.1 hmem
  have hsuffix : .did d .setClosed r :: earlier <:+ log := ⟨later, heq.symm⟩
  obtain ⟨-, s, hs, -⟩ := hlawful.did hsuffix
  obtain ⟨v', hv', hsteps⟩ := hlawful.steps hsuffix (ghost_did_self hs)
  refine ⟨v', hv', hsteps.keeps (Φ := fun v => v.shut = true) (fun v e r _ _ hv => ?_) rfl⟩
  rcases next_shut v e r with hsame | ⟨-, hnow⟩
  · exact hsame.trans hv
  · exact hnow

/-- Once a call of `close` has set the flag, no thread of that process is started.  Once it has
also returned, no burst of that process drives the output high. -/
theorem closed_in_any_run (o : Recognizer) (cfg : Config) (l : List (Choice OcrEnv OcrCall)) :
    (∀ c d id job r earlier, .did c (.startWorker id job) (.ok ()) :: earlier <:+
        ((ocrThreads o cfg).run (World.init {}) l).log →
      .did d .setClosed r ∈ earlier → d.proc ≠ c.proc) ∧
    ∀ c d r r' r'' earlier, .did c (.outer (.relay .high)) r :: earlier <:+
        ((ocrThreads o cfg).run (World.init {}) l).log →
      .did d .setClosed r' ∈ earlier → .ended d r'' ∈ earlier → d.proc ≠ c.proc := by
  obtain ⟨hsound, -, h⟩ := ((accounted_sound o cfg).and (shutting_kept o cfg)).run
    (Sound.init _ _ _) ⟨accounted_init, shutting_init⟩ (Machine.admits_true _ l)
  constructor
  · intro c d id job r earlier hsuffix hmem hd
    have hearlier := (List.suffix_cons _ _).trans hsuffix
    obtain ⟨v, hv, hshut⟩ := shut_of_setClosed (hsound.lawful.suffix hearlier) hmem
    have hadmitted := h.admitted.at hsuffix d v hd hv
    exact Bool.false_ne_true (hadmitted.symm.trans hshut)
  · intro c d r r' r'' earlier hsuffix hmem hended hd
    have hearlier := (List.suffix_cons _ _).trans hsuffix
    obtain ⟨v, hv, hshut⟩ := shut_of_setClosed (hsound.lawful.suffix hearlier) hmem
    obtain ⟨later, before, heq⟩ := List.mem_iff_append.1 hended
    have hat : .ended d r'' :: before <:+ earlier := ⟨later, heq.symm⟩
    obtain ⟨-, s, hs, hdone⟩ := (hsound.lawful.suffix hearlier).ended hat
    have hsame := ((hsound.lawful.suffix hearlier).settled hat).1
    cases hs.symm.trans (hsame.symm.trans hv)
    have hadmitted := h.admitted.at hsuffix d _ hd hv
    exact Bool.false_ne_true (hadmitted.symm.trans (hdone.passed hshut))

end OcrRequest

end GateController

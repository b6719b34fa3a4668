import GateController.Commands.Discipline
import GateController.Processing.Discipline
import GateController.Runtime.Coherence
import GateController.Runtime.Frame

/-!
# Runs of the controller

Every call keeps to the rules of `Watch.allow` (`Call.obeys`).  `Base` is what
holds in every run because of that alone: the locks of a process are held by
those calls that the watch says, the variable that a check shares with the
coordinator is the one of the watch, and calls belong to processes that live.

`gate_run` is the rule for everything else.  A claim about runs adds a predicate
of its own to `Base`, and owes one proof per kind of event.
-/

namespace GateController

open Data Effects Proc LocalStore ActuationCoordinator

variable {cfg : Nat → Config} {c : CallId}

/-! ## Every call keeps to the rules -/

/-- What a call owes at its end. -/
structure Concluded (cfg : Nat → Config) (c : CallId) (s : Watch) (r : Except Exc Result) :
    Prop where
  /-- A pulse that the coordinator has seen was stored, or the clock has failed. -/
  finalized : s.call.isTrigger = false → ∀ result, s.store.returned = some result →
    s.relay.lit = true → s.store.finalized.isSome ∨ s.store.clockFailed = true
  /-- A shutdown that reports a safe output has turned it off. -/
  shutdown : r = .ok (.shutdown true) → s.relay.offAfterShutdown = true
  /-- Every lock was left. -/
  released : ∀ lock, s.holds lock = false
  /-- A command is answered with what the store knows. -/
  explained : ∀ response command, r = .ok (.response response) →
    s.call.command? (cfg c.proc) = some command →
    s.store.Explained response.status response.detail

/-- A call that never comes to the coordinator, to shutdown or to a command. -/
theorem Concluded.of_returned {s : Watch} {r : Except Exc Result} (h : s.store.returned = none)
    (hholds : ∀ lock, s.holds lock = false) (hshutdown : r ≠ .ok (.shutdown true))
    (hresponse : ∀ response, r ≠ .ok (.response response)) : Concluded cfg c s r :=
  ⟨fun _ _ hr => (by simp [h] at hr), fun hr => absurd hr hshutdown, hholds,
    fun response _ hr => absurd hr (hresponse response)⟩

/-- A call that ends with the result of one program. -/
theorem obeys_return {α : Type} {p : Proc α} {f : α → Result} {s : Watch}
    {R : Watch → Except Exc α → Prop} (h : Obeys (watch cfg c) R s p)
    (hok : ∀ s' a, R s' (.ok a) → Concluded cfg c s' (.ok (f a)))
    (herror : ∀ s' x, R s' (.error x) → Concluded cfg c s' (.error x)) :
    Obeys (watch cfg c) (Concluded cfg c) s (do
      let a ← p
      return f a) :=
  h.bind hok herror

theorem minor_concluded {s s' : Watch} {r : Except Exc Result} (hs : s.store.returned = none)
    (hholds : ∀ lock, s.holds lock = false) (h : Minor s s') (hshutdown : r ≠ .ok (.shutdown true))
    (hresponse : ∀ response, r ≠ .ok (.response response)) : Concluded cfg c s' r := by
  obtain ⟨ids, t, hstore⟩ := h.store
  refine .of_returned ?_ (fun lock => ?_) hshutdown hresponse
  · rw [hstore]
    exact hs
  · rw [h.holds]
    exact hholds lock

/-- A store call on its own. -/
theorem store_concluded {op : StoreOp} {f : op.Ans → Result} {s : Watch}
    (hallow : s.AllowStore (cfg c.proc) op) (hs : ∀ r, (s.store.nextStore op r).returned = none)
    (hholds : ∀ lock, s.holds lock = false) (hshutdown : ∀ a, f a ≠ .shutdown true) (hresponse : ∀ a response, f a ≠ .response response) :
    Obeys (watch cfg c) (Concluded cfg c) s (do
      let a ← store op
      return f a) := by
  have hdone : Obeys (watch cfg c) (fun s' _ => s'.store.returned = none ∧
      ∀ lock, s'.holds lock = false) s (store op) :=
    Obeys.perform hallow fun r _ => ⟨hs r, hholds⟩
  refine obeys_return hdone (fun s' a h => ?_) fun s' x h => ?_
  · exact .of_returned h.1 h.2 (by simp [hshutdown a]) fun response => by simp [hresponse a response]
  · exact .of_returned h.1 h.2 (by simp) (by simp)

theorem Call.obeys (call : Call) :
    Obeys (watch cfg c) (Concluded cfg c) (Watch.start call) (call.program c (cfg c.proc)) := by
  cases call with
  | start =>
      refine obeys_return (RelayController.construct_obeys rfl rfl rfl rfl) (fun s' _ h => ?_)
        fun s' _ h => ?_
      · exact .of_returned (by rw [h.1]; rfl) (congrFun h.2) (by simp) (by simp)
      · exact .of_returned (by rw [h.1]; rfl) (congrFun h.2) (by simp) (by simp)
  | trigger source key inhibit onActivation onDeactivation =>
      have hcall : ∀ s' r, RelayController.Returned
          (Watch.start (.trigger source key inhibit onActivation onDeactivation)) s' r →
          s'.call.isTrigger = true := fun s' r h => by rw [h.1]; rfl
      refine obeys_return (RelayController.trigger_obeys _ (fun callback hcb => ?_) ?_ ?_)
        (fun s' _ h => ?_) fun s' _ h => ?_
      · simp only [directArgs] at hcb
        split at hcb
        · cases hcb
          exact only_env _
        · cases hcb
      · change Checks cfg c inhibit (inhibit.map asking)
        cases inhibit with
        | none => trivial
        | some inhibit => exact faithful_asking inhibit
      · exact ⟨⟨rfl, .inl rfl⟩, rfl, rfl, rfl, rfl, rfl, rfl, rfl⟩
      · exact ⟨fun hf => (by simp [hcall _ _ h] at hf), by simp, congrFun h.2.1, by simp⟩
      · exact ⟨fun hf => (by simp [hcall _ _ h] at hf), by simp, congrFun h.2.1, by simp⟩
  | beginShutdown =>
      refine obeys_return (RelayController.beginShutdown_obeys rfl rfl) (fun s' safe h => ?_)
        fun s' _ h => ?_
      · refine ⟨fun _ _ hr => ?_, fun hr => ?_, congrFun h.2.1, fun _ _ hr => by cases hr⟩
        · rw [h.1] at hr
          cases hr
        · cases hr
          exact h.2.2 rfl
      · exact .of_returned (by rw [h.1]; rfl) (congrFun h.2.1) (by simp) (by simp)
  | report owner =>
      refine obeys_return (obeys_quiet (RelayController.only_notify _)) (fun s' _ hq => ?_)
        fun s' _ hq => ?_
      · exact minor_concluded rfl (fun _ => rfl) hq.minor (by simp) (by simp)
      · exact minor_concluded rfl (fun _ => rfl) hq.minor (by simp) (by simp)
  | actuate a =>
      refine obeys_return (ActuationCoordinator.actuate_obeys ?_) (fun s' _ h => ?_) fun s' _ h => ?_
      · refine ⟨⟨rfl, rfl, rfl, rfl, rfl, rfl, rfl, rfl, rfl, rfl⟩, rfl, rfl, rfl, rfl, rfl, rfl, rfl, rfl,
          rfl, fun command hc => (by cases hc), fun s' m hcall _ _ _ => ?_⟩
        have hcall' : s'.call = .actuate a := hcall
        simp only [Watch.InhibitOf, hcall']
      · exact ⟨fun _ => h.finalized, by simp, congrFun h.holds, by simp⟩
      · exact ⟨fun _ => h.finalized, by simp, congrFun h.holds, by simp⟩
  | execute payload now =>
      refine obeys_return (DirectCommandExecutor.execute_obeys payload now) (fun s' response h => ?_)
        fun s' x h => ?_
      · refine ⟨fun _ => h.finalized, by simp, h.released, fun response' command hr hc => ?_⟩
        cases hr
        rw [h.call] at hc
        exact h.explained response command rfl hc
      · exact ⟨fun _ => h.finalized, by simp, h.released, by simp⟩
  | process a =>
      refine obeys_return (GateProcessor.process_obeys a) (fun s' _ h => ?_) fun s' _ h => ?_
      · exact ⟨fun _ => h.finalized, by simp, h.released, by simp⟩
      · exact ⟨fun _ => h.finalized, by simp, h.released, by simp⟩
  | recordSkipped a =>
      refine obeys_return (GateProcessor.recordSkipped_obeys a rfl) (fun s' _ h => ?_)
        fun s' _ h => ?_
      · exact minor_concluded rfl (fun _ => rfl) h (by simp) (by simp)
      · exact minor_concluded rfl (fun _ => rfl) h (by simp) (by simp)
  | recordTerminalOutcome a =>
      exact store_concluded (.inl ⟨a, rfl⟩) (fun _ => rfl) (fun _ => rfl) (by simp) (by simp)
  | recordEventWithOutbox event payload =>
      exact store_concluded rfl (fun _ => rfl) (fun _ => rfl) (by simp) (by simp)
  | recoverInterruptedActuations =>
      exact store_concluded rfl (fun _ => rfl) (fun _ => rfl) (by simp) (by simp)

/-! ## What holds in every run -/

/-- Whether a call uses the objects of its process, so that it begins only when
they are there. -/
def Call.inside : Call → Bool
  | .start => false
  | .recordTerminalOutcome _ => false
  | .recordEventWithOutbox _ _ => false
  | .recoverInterruptedActuations => false
  | _ => true

/-- Whether a call starts its process. -/
def Call.isStart : Call → Bool
  | .start => true
  | _ => false

/-- The state of a process fits a call that is under way. -/
structure Attached (st : State) (c : CallId) (s : Watch) : Prop where
  holds : ∀ l, s.holds l = true ↔ (st.procs c.proc).locks l = some c
  inhibition : (st.calls c).inhibition = s.store.inhibition
  alive : (st.procs c.proc).phase ≠ .dead
  ready : s.call.inside = true → (st.procs c.proc).phase = .ready
  started : s.call.isStart = true → (st.procs c.proc).phase ≠ .new

/-- What holds in every run. -/
structure Base (cfg : Nat → Config) (st : State) (log : Log) : Prop where
  each : Each (watch cfg) (Attached st) log
  coherent : Ever (watch cfg) (fun c s => s.Coherent (cfg c.proc)) log
  locks : ∀ p l c, (st.procs p).locks l = some c → c.proc = p ∧ Begun c log
  held : ∀ p l c, (st.procs p).locks l = some c → (st.procs p).phase ≠ .dead → Live c log
  idle : ∀ c, ¬ Begun c log → (st.calls c).inhibition = none
  began : ∀ c call, .began c call ∈ log → ∃ s, ghost (watch cfg) c log = some s ∧ s.call = call

theorem Watch.next_call (s : Watch) (e : Eff) (r : Except Exc e.Ans) :
    (s.next e r).call = s.call := by
  cases e with
  | mark m => cases m <;> rfl
  | _ => rfl

theorem begun_of_began {log : Log} {call : Call} (h : .began c call ∈ log) : Begun c log := by
  induction log with
  | nil => simp at h
  | cons e log ih =>
      rcases List.mem_cons.1 h with rfl | hmem
      · exact .inl rfl
      · cases e with
        | began d call' => exact .inr (ih hmem)
        | did _ _ _ => exact ih hmem
        | ended _ _ => exact ih hmem
        | crashed _ => exact ih hmem

theorem Base.init (db : Db) (boot : Option String) :
    Base cfg { db, boot } [] where
  each d s h := h.elim
  coherent d s h := by cases h
  locks p l c h := by cases h
  held p l c h := by cases h
  idle c _ := rfl
  began c call h := by simp at h

/-- The calls whose beginning is a matter of the phase alone. -/
theorem accept_inside {call : Call} {s s' : State} (h : call.accept c s = some s')
    (hinside : call.inside = true) : (s.procs c.proc).phase = .ready := by
  cases call with
  | start => cases hinside
  | recordTerminalOutcome a => cases hinside
  | recordEventWithOutbox e p => cases hinside
  | recoverInterruptedActuations => cases hinside
  | report owner =>
      simp only [Call.accept] at h
      split at h
      · next hr => exact hr.1
      · cases h
  | _ =>
      simp only [Call.accept] at h
      split at h
      · next hr => exact hr
      · cases h

/-- What the beginning of a call changes. -/
structure Admitted (c : CallId) (call : Call) (s s' : State) : Prop where
  db : s'.db = s.db
  calls : s'.calls = s.calls
  boot : s'.boot = s.boot
  pastBoots : s'.pastBoots = s.pastBoots
  uptime : s'.uptime = s.uptime
  procs : ∀ q, ∃ reports, s'.procs q = { s.procs q with
    reports
    phase := if call.isStart ∧ q = c.proc then .starting else (s.procs q).phase }
  alive : (s.procs c.proc).phase ≠ .dead
  start : call.isStart = true → (s.procs c.proc).phase = .new

theorem accept_admitted {call : Call} {s s' : State} (h : call.accept c s = some s') :
    Admitted c call s s' := by
  have hsame : ∀ call : Call, call.isStart = false → ∀ q, ∃ reports, s.procs q = { s.procs q with
      reports
      phase := if call.isStart ∧ q = c.proc then .starting else (s.procs q).phase } :=
    fun call hne q => ⟨(s.procs q).reports, by simp [hne]⟩
  cases call with
  | start =>
      simp only [Call.accept] at h
      split at h <;> cases h
      next hnew =>
      refine ⟨rfl, rfl, rfl, rfl, rfl, fun q => ⟨(s.procs q).reports, ?_⟩, by simp [hnew],
        fun _ => hnew⟩
      by_cases hq : q = c.proc <;> simp [hq, Call.isStart]
  | report owner =>
      simp only [Call.accept] at h
      split at h <;> cases h
      next hready =>
      refine ⟨rfl, rfl, rfl, rfl, rfl, fun q => ?_, by simp [hready.1], by simp [Call.isStart]⟩
      by_cases hq : q = c.proc
      · exact ⟨(s.procs q).reports.erase owner, by simp [hq, Call.isStart]⟩
      · exact ⟨(s.procs q).reports, by simp [hq]⟩
  | _ =>
      simp only [Call.accept] at h
      split at h <;> cases h
      next hphase =>
      exact ⟨rfl, rfl, rfl, rfl, rfl, hsame _ rfl, by simp [hphase], by simp [Call.isStart]⟩

/-- The phase of a process never goes back. -/
theorem Admitted.phase {call : Call} {s s' : State} (h : Admitted c call s s') (q : Nat) :
    (s'.procs q).phase = if call.isStart ∧ q = c.proc then .starting else (s.procs q).phase := by
  obtain ⟨reports, hq⟩ := h.procs q
  rw [hq]

theorem Admitted.locks {call : Call} {s s' : State} (h : Admitted c call s s') (q : Nat) :
    (s'.procs q).locks = (s.procs q).locks := by
  obtain ⟨reports, hq⟩ := h.procs q
  rw [hq]

/-! ## The steps -/

/-- Only the two lock operations change which locks the watch holds. -/
theorem Watch.next_holds (s : Watch) {e : Eff} (r : Except Exc e.Ans) (ha : ∀ l, e ≠ .acquire l)
    (hr : ∀ l, e ≠ .release l) : (s.next e r).holds = s.holds := by
  cases e with
  | acquire l => exact absurd rfl (ha l)
  | release l => exact absurd rfl (hr l)
  | mark m => cases m <;> rfl
  | _ => rfl

/-- Only the coordinator's own operation changes its variable in the watch. -/
theorem Watch.next_inhibition (s : Watch) {e : Eff} (r : Except Exc e.Ans)
    (hm : ∀ value, e ≠ .mem (.setInhibition value)) :
    (s.next e r).store.inhibition = s.store.inhibition := by
  cases e with
  | store op => cases op <;> cases r <;> rfl
  | device op => cases op <;> cases r <;> rfl
  | mem op =>
      cases op with
      | setInhibition value => exact absurd rfl (hm value)
      | _ => cases r <;> rfl
  | mark m => cases m <;> rfl
  | _ => rfl

section Steps

variable {st st' : State} {s : Watch} {env : Env} {e : Eff} {r : Except Exc e.Ans}

/-- The phase after an operation: as before, or ready at the end of construction. -/
theorem exec_phase_cases (h : e.exec c env st = some (r, st')) (q : Nat) :
    (st'.procs q).phase = (st.procs q).phase ∨
      e = .relay .constructed ∧ q = c.proc ∧ (st'.procs q).phase = .ready := by
  by_cases hc : e = .relay .constructed
  · subst hc
    rw [exec_procs h]
    by_cases hq : q = c.proc
    · exact .inr ⟨rfl, hq, by simp [hq, Eff.onProc]⟩
    · exact .inl (by simp [hq])
  · exact .inl (exec_phase h hc q)

/-- Who holds the locks after an operation of a call that keeps to the rules. -/
theorem exec_holder (h : e.exec c env st = some (r, st')) (hatt : Attached st c s)
    (hallow : s.allow (cfg c.proc) e) (d : CallId) (q : Nat) (l : LockId) (hd : d = c → q = c.proc) :
    (st'.procs q).locks l = some d ↔
      if d = c then (s.next e r).holds l = true else (st.procs q).locks l = some d := by
  by_cases hac : ∃ l', e = .acquire l'
  · obtain ⟨l', rfl⟩ := hac
    have hfree : (st.procs c.proc).locks l' = none := by
      simp only [Eff.exec] at h
      split at h
      · assumption
      · cases h
    rw [exec_procs h]
    by_cases hq : q = c.proc
    · subst hq
      simp only [if_true, Eff.onProc, ProcState.setLock, Watch.next, Function.update]
      by_cases hl : l = l'
      · subst hl
        by_cases hdc : d = c
        · simp [hdc]
        · simp [hdc, hfree, Ne.symm hdc]
      · by_cases hdc : d = c
        · subst hdc
          simpa [hl] using (hatt.holds l).symm
        · simp [hl, hdc]
    · have hdc : d ≠ c := fun h => hq (hd h)
      simp [hq, hdc]
  · by_cases hre : ∃ l', e = .release l'
    · obtain ⟨l', rfl⟩ := hre
      have hheld : (st.procs c.proc).locks l' = some c := (hatt.holds l').1 hallow.1
      rw [exec_procs h]
      by_cases hq : q = c.proc
      · subst hq
        simp only [if_true, Eff.onProc, hheld, ProcState.setLock, Watch.next, Function.update]
        by_cases hl : l = l'
        · subst hl
          by_cases hdc : d = c
          · simp [hdc]
          · simp [hdc, hheld, Ne.symm hdc]
        · by_cases hdc : d = c
          · subst hdc
            simpa [hl] using (hatt.holds l).symm
          · simp [hl, hdc]
      · have hdc : d ≠ c := fun h => hq (hd h)
        simp [hq, hdc]
    · have hac' : ∀ l, e ≠ .acquire l := fun l hl => hac ⟨l, hl⟩
      have hre' : ∀ l, e ≠ .release l := fun l hl => hre ⟨l, hl⟩
      rw [exec_locks h hac' hre', Watch.next_holds s r hac' hre']
      split
      · next hdc =>
        rw [hd hdc, hdc]
        exact (hatt.holds l).symm
      · rfl

theorem Attached.did_self (h : e.exec c env st = some (r, st')) (hatt : Attached st c s)
    (hallow : s.allow (cfg c.proc) e) : Attached st' c (s.next e r) := by
  have hphase := exec_phase_cases h c.proc
  refine ⟨fun l => ?_, ?_, ?_, fun hin => ?_, fun hst => ?_⟩
  · rw [exec_holder h hatt hallow c c.proc l fun _ => rfl, if_pos rfl]
  · by_cases hm : ∃ value, e = .mem (.setInhibition value)
    · obtain ⟨value, rfl⟩ := hm
      cases h
      simp [MemOp.exec, Watch.next, StoreWatch.nextMem]
    · have hm' : ∀ value, e ≠ .mem (.setInhibition value) := fun v hv => hm ⟨v, hv⟩
      rw [(exec_unmoved h).inhibition c fun v hv => absurd hv (hm' v), Watch.next_inhibition s r hm']
      exact hatt.inhibition
  · rcases hphase with hp | ⟨-, -, hp⟩ <;> rw [hp]
    · exact hatt.alive
    · simp
  · rw [Watch.next_call] at hin
    rcases hphase with hp | ⟨-, -, hp⟩
    · rw [hp]
      exact hatt.ready hin
    · exact hp
  · rw [Watch.next_call] at hst
    rcases hphase with hp | ⟨-, -, hp⟩ <;> rw [hp]
    · exact hatt.started hst
    · simp

theorem Attached.did_other {d : CallId} {sd : Watch} (h : e.exec c env st = some (r, st'))
    (hc : Attached st c s) (hallow : s.allow (cfg c.proc) e) (hd : Attached st d sd)
    (hne : d ≠ c) : Attached st' d sd := by
  have hphase := exec_phase_cases h d.proc
  refine ⟨fun l => ?_, ?_, ?_, fun hin => ?_, fun hst => ?_⟩
  · rw [exec_holder h hc hallow d d.proc l fun h => absurd h hne, if_neg hne]
    exact hd.holds l
  · rw [(exec_unmoved h).inhibition d fun _ _ => hne]
    exact hd.inhibition
  · rcases hphase with hp | ⟨-, -, hp⟩ <;> rw [hp]
    · exact hd.alive
    · simp
  · rcases hphase with hp | ⟨-, -, hp⟩
    · rw [hp]
      exact hd.ready hin
    · exact hp
  · rcases hphase with hp | ⟨-, -, hp⟩ <;> rw [hp]
    · exact hd.started hst
    · simp

theorem Attached.began_self {call : Call} {log : Log} (hbase : Base cfg st log)
    (hnew : ¬ Begun c log) (haccept : call.accept c st = some st') :
    Attached st' c (Watch.start call) := by
  have had := accept_admitted haccept
  refine ⟨fun l => ?_, ?_, ?_, fun hin => ?_, fun hst => ?_⟩
  · rw [had.locks]
    refine ⟨fun h => (by cases h), fun h => ?_⟩
    exact absurd (hbase.locks _ _ _ h).2 hnew
  · rw [had.calls]
    exact hbase.idle c hnew
  · rw [had.phase]
    split
    · simp
    · exact had.alive
  · have hready := accept_inside haccept hin
    rw [had.phase, if_neg]
    · exact hready
    · rintro ⟨hs, -⟩
      cases call <;> simp [Call.isStart, Call.inside, Watch.start] at hs hin
  · rw [had.phase, if_pos ⟨hst, rfl⟩]
    simp

theorem Attached.began_other {call : Call} {d : CallId} {sd : Watch}
    (haccept : call.accept c st = some st') (hd : Attached st d sd) : Attached st' d sd := by
  have had := accept_admitted haccept
  -- A process that is being started had no call that needs its objects.
  have hnew : call.isStart ∧ d.proc = c.proc → (st.procs d.proc).phase = .new := by
    rintro ⟨hs, hp⟩
    rw [hp]
    exact had.start hs
  refine ⟨fun l => ?_, ?_, ?_, fun hin => ?_, fun hst => ?_⟩
  · rw [had.locks]
    exact hd.holds l
  · rw [had.calls]
    exact hd.inhibition
  · rw [had.phase]
    split
    · simp
    · exact hd.alive
  · rw [had.phase]
    split
    · next h =>
      have := (hd.ready hin).symm.trans (hnew h)
      cases this
    · exact hd.ready hin
  · rw [had.phase]
    split
    · simp
    · exact hd.started hst

end Steps

/-- A crash changes the phase of one process and perhaps the boot. -/
theorem crash_procs (p : Nat) (env : Env) (st : State) (q : Nat) :
    (st.crash p env).procs q = if q = p then { st.procs q with phase := .dead } else st.procs q := by
  unfold State.crash
  dsimp only
  split <;> rfl

theorem crash_calls (p : Nat) (env : Env) (st : State) : (st.crash p env).calls = st.calls := by
  unfold State.crash
  dsimp only
  split <;> rfl

theorem crash_db (p : Nat) (env : Env) (st : State) : (st.crash p env).db = st.db := by
  unfold State.crash
  dsimp only
  split <;> rfl

/-- `Base` holds in every run. -/
theorem base_invariant (cfg : Nat → Config) :
    Invariant (gate cfg) (watch cfg) (Concluded cfg) (fun _ _ => True) (Base cfg) where
  obeys w c call s' _ _ _ := call.obeys
  began w c call s' _ hbase _ hnew haccept := by
    have had := accept_admitted haccept
    refine ⟨hbase.each.began (.began_self hbase hnew haccept) fun d sd _ _ hd =>
      hd.began_other haccept, hbase.coherent.began (.start call) fun _ _ _ _ h => h,
      fun p l d hl => ?_, fun p l d hl halive => .inr ?_, fun d hd => ?_, fun d call' hmem => ?_⟩
    · rw [had.locks] at hl
      obtain ⟨hp, hb⟩ := hbase.locks p l d hl
      exact ⟨hp, .inr hb⟩
    · rw [had.locks] at hl
      refine hbase.held p l d hl fun hdead => halive ?_
      rw [had.phase, if_neg, hdead]
      rintro ⟨-, rfl⟩
      exact had.alive hdead
    · rw [had.calls]
      exact hbase.idle d fun hb => hd (.inr hb)
    · rcases List.mem_cons.1 hmem with heq | hmem
      · cases heq
        exact ⟨_, ghost_began_self, rfl⟩
      · have hd : c ≠ d := by
          rintro rfl
          exact hnew (begun_of_began hmem)
        rw [ghost_began_ne hd]
        exact hbase.began d call' hmem
  did w c env e k s r s' _ hbase _ _ hlive hghost hallow hexec := by
    have hatt := hbase.each c s hlive hghost
    have hposs := Eff.possible_of_exec hexec
    refine ⟨⟨hposs, ?_⟩, ?_, hbase.coherent.did hghost
      ((hbase.coherent c s hghost).next hallow hposs) fun _ _ _ _ h => h, fun p l d hl => ?_,
      fun p l d hl halive => ?_, fun d hd => ?_, fun d call hmem => ?_⟩
    · split
      · cases hexec
        exact congrArg Except.ok hatt.inhibition
      · trivial
    · exact hbase.each.did hghost (hatt.did_self hexec hallow) fun d sd hne _ hd =>
        hatt.did_other (r := r) hexec hallow hd hne
    · by_cases hdc : d = c
      · subst hdc
        by_cases hp : p = d.proc
        · exact ⟨hp.symm, hlive.begun⟩
        · rw [exec_procs_ne hexec hp] at hl
          exact hbase.locks p l d hl
      · rw [exec_holder hexec hatt hallow d p l fun h => absurd h hdc, if_neg hdc] at hl
        exact hbase.locks p l d hl
    · by_cases hdc : d = c
      · rw [hdc]
        exact hlive
      · rw [exec_holder hexec hatt hallow d p l fun h => absurd h hdc, if_neg hdc] at hl
        refine hbase.held p l d hl fun hdead => halive ?_
        rcases exec_phase_cases hexec p with hp | ⟨-, rfl, -⟩
        · exact hp.trans hdead
        · exact absurd hdead hatt.alive
    · rw [(exec_unmoved hexec).inhibition d]
      · exact hbase.idle d hd
      · rintro _ _ rfl
        exact hd hlive.begun
    · rcases List.mem_cons.1 hmem with heq | hmem
      · cases heq
      · obtain ⟨sd, hsd, hcall⟩ := hbase.began d call hmem
        by_cases hdc : d = c
        · subst hdc
          rw [hghost] at hsd
          cases hsd
          exact ⟨_, ghost_did_self hghost, (Watch.next_call _ _ _).trans hcall⟩
        · exact ⟨sd, (ghost_did_ne (Ne.symm hdc)).trans hsd, hcall⟩
  ended w c s r _ hbase hlive hghost hQ := by
    refine ⟨hbase.each.ended, hbase.coherent, hbase.locks, fun p l d hl halive => ⟨?_, ?_⟩,
      hbase.idle, fun d call hmem => ?_⟩
    · rintro rfl
      have hheld : s.holds l = true := by
        rw [(hbase.each c s hlive hghost).holds, (hbase.locks p l c hl).1]
        exact hl
      rw [hQ.released l] at hheld
      cases hheld
    · exact hbase.held p l d hl halive
    · rcases List.mem_cons.1 hmem with heq | hmem
      · cases heq
      · exact hbase.began d call hmem
  crashed w p env _ hbase _ := by
    have hlocks : ∀ q, (((gate cfg).crash p env w.state).procs q).locks =
        (w.state.procs q).locks := by
      intro q
      change ((w.state.crash p env).procs q).locks = _
      rw [crash_procs]
      split <;> rfl
    refine ⟨hbase.each.crashed fun d sd hne _ hd => ?_, hbase.coherent, fun q l d hl => ?_,
      fun q l d hl halive => ?_, fun d hd => ?_, fun d call hmem => ?_⟩
    · have hsame : ((gate cfg).crash p env w.state).procs d.proc = w.state.procs d.proc :=
        (crash_procs p env w.state d.proc).trans (if_neg hne)
      refine ⟨?_, ?_, ?_, ?_, ?_⟩
      · rw [hsame]
        exact hd.holds
      · exact (congrArg (fun f => (f d).inhibition) (crash_calls p env w.state)).trans hd.inhibition
      · rw [hsame]
        exact hd.alive
      · rw [hsame]
        exact hd.ready
      · rw [hsame]
        exact hd.started
    · rw [hlocks] at hl
      exact hbase.locks q l d hl
    · rw [hlocks] at hl
      have hsame := crash_procs p env w.state q
      by_cases hq : q = p
      · rw [if_pos hq] at hsame
        exact absurd (congrArg ProcState.phase hsame) halive
      · rw [if_neg hq] at hsame
        refine ⟨?_, hbase.held q l d hl fun hdead => halive ((congrArg ProcState.phase hsame).trans hdead)⟩
        rw [(hbase.locks q l d hl).1]
        exact hq
    · exact (congrArg (fun f => (f d).inhibition) (crash_calls p env w.state)).trans (hbase.idle d hd)
    · rcases List.mem_cons.1 hmem with heq | hmem
      · cases heq
      · exact hbase.began d call hmem

/-- The rule for runs: a predicate that every kind of event keeps, from any point on. -/
theorem gate_run_from {ok : GateWorld → Choice Env Call → Prop} {J : State → Log → Prop}
    (h : Keeps (gate cfg) (watch cfg) (Concluded cfg) ok (Base cfg) J) {w : GateWorld}
    (hsound : Sound (watch cfg) (Concluded cfg) w) (hbase : Base cfg w.state w.log)
    (hJ : J w.state w.log) {l : List (Choice Env Call)} (hok : (gate cfg).Admits ok w l) :
    Sound (watch cfg) (Concluded cfg) ((gate cfg).run w l) ∧
      Base cfg ((gate cfg).run w l).state ((gate cfg).run w l).log ∧
      J ((gate cfg).run w l).state ((gate cfg).run w l).log :=
  ((base_invariant cfg).mono fun _ _ _ => trivial).and h |>.run hsound ⟨hbase, hJ⟩ hok

/-- A predicate that every kind of event keeps, from the start on. -/
theorem gate_run {ok : GateWorld → Choice Env Call → Prop} {J : State → Log → Prop}
    (h : Keeps (gate cfg) (watch cfg) (Concluded cfg) ok (Base cfg) J) {db : Db}
    {boot : Option String} (hinit : J { db, boot } []) {l : List (Choice Env Call)} {w : GateWorld}
    (hok : (gate cfg).Admits ok (gateInit db boot) l) (hw : (gate cfg).run (gateInit db boot) l = w) :
    Sound (watch cfg) (Concluded cfg) w ∧ Base cfg w.state w.log ∧ J w.state w.log := by
  subst hw
  exact gate_run_from h (Sound.init _ _ _) (Base.init db boot) hinit hok

end GateController

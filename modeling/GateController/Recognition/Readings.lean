import GateController.Recognition.SlotAccount

/-!
# Whose reading a request gets

A request that was given up leaves a thread behind, which still puts what it read into a queue.
The queue belongs to the request: a burst gets only what the recogniser came to in the thread
that this burst started, on the frame it started it for.
-/

namespace GateController

open Data Effects

namespace OcrRequest

variable {st st' : OcrShared} {log : OcrLog} {c d : CallId} {v v' : OcrWatch} {env : OcrEnv}
  {e : OcrEff} {r : Except Exc e.Ans} {o : Recognizer} {cfg : Config} {id : Nat} {job : Job}
  {reading : Reading}

/-- The call has started the thread of a request. -/
def Started (log : OcrLog) (c : CallId) (id : Nat) (job : Job) : Prop :=
  .did c (.startWorker id job) (.ok ()) ∈ log

/-- The thread of a request has called the recogniser, and this is what came of it. -/
def Read (log : OcrLog) (id : Nat) (job : Job) (reading : Reading) : Prop :=
  ∃ d, .began d (.worker id job) ∈ log ∧ .did d (.operate id job) (.ok ()) ∈ log ∧
    .did d (.operated id) reading ∈ log

/-- The request whose thread is started, if that is what happens. -/
def startOf : Event OcrEff OcrEff.Ans Exc OcrCall Unit → Option Nat
  | .did _ (.startWorker id _) (.ok _) => some id
  | _ => none

/-- The request whose thread begins, if that is what happens. -/
def threadOf : Event OcrEff OcrEff.Ans Exc OcrCall Unit → Option Nat
  | .began _ (.worker id _) => some id
  | _ => none

theorem Started.cons {ev : Event OcrEff OcrEff.Ans Exc OcrCall Unit} (h : Started log c id job) :
    Started (ev :: log) c id job := List.mem_cons_of_mem ev h

theorem Read.cons {ev : Event OcrEff OcrEff.Ans Exc OcrCall Unit} (h : Read log id job reading) :
    Read (ev :: log) id job reading := by
  obtain ⟨d, hbegan, hbegin, hend⟩ := h
  exact ⟨d, List.mem_cons_of_mem ev hbegan, List.mem_cons_of_mem ev hbegin,
    List.mem_cons_of_mem ev hend⟩

/-- An operation does not make another call of a call. -/
theorem OcrWatch.next_call (v : OcrWatch) (e : OcrEff) (r : Except Exc e.Ans) :
    (v.next e r).call = v.call := by
  unfold OcrWatch.next
  split <;> rfl

/-- The watch has the call that has begun. -/
theorem began_of_ghost (h : ghost ocrRules c log = some v) : .began c v.call ∈ log := by
  induction log generalizing v with
  | nil => cases h
  | cons ev log ih =>
      cases ev with
      | began d call =>
          by_cases hd : d = c
          · subst hd
            cases ghost_began_self.symm.trans h
            exact List.mem_cons_self
          · exact List.mem_cons_of_mem _ (ih ((ghost_began_ne hd).symm.trans h))
      | did d e r =>
          by_cases hd : d = c
          · subst hd
            rw [ghost_did] at h
            obtain ⟨u, hu, rfl⟩ := Option.map_eq_some_iff.1 h
            have hcall : (u.next e r).call = u.call := u.next_call e r
            rw [show ((ocrRules d).next u e r).call = u.call from hcall]
            exact List.mem_cons_of_mem _ (ih hu)
          · exact List.mem_cons_of_mem _ (ih ((ghost_did_ne hd).symm.trans h))
      | ended d r => exact List.mem_cons_of_mem _ (ih h)
      | crashed p => exact List.mem_cons_of_mem _ (ih h)

theorem mem_startOf {id : Nat} : id ∈ log.filterMap startOf ↔ ∃ c job, Started log c id job := by
  rw [List.mem_filterMap]
  constructor
  · rintro ⟨ev, hmem, hev⟩
    unfold startOf at hev
    split at hev
    · cases hev
      exact ⟨_, _, hmem⟩
    · cases hev
  · rintro ⟨c, job, hs⟩
    exact ⟨_, hs, rfl⟩

/-- What one call knows of its requests and readings. -/
structure Knows (st : OcrShared) (log : OcrLog) (d : CallId) (v : OcrWatch) : Prop where
  request : ∀ id, v.request = some id → id < st.requests ∧ ∀ c job, ¬ Started log c id job
  waiting : ∀ id job, v.waiting = some (id, job) → Started log d id job
  thread : ∀ id job, v.call = .worker id job → ∃ c, Started log c id job
  operating : v.operating = true → ∀ id job, v.call = .worker id job →
    .did d (.operate id job) (.ok ()) ∈ log
  reading : ∀ reading, v.reading = some reading → ∀ id job, v.call = .worker id job →
    Read log id job reading

/-- Every thread is started once, and what is in the queue of a request was read by its thread. -/
structure Traced (st : OcrShared) (log : OcrLog) : Prop where
  made : ∀ c id job, Started log c id job → id < st.requests
  once : ∀ c c' id job job', Started log c id job → Started log c' id job' → c = c' ∧ job = job'
  knows : Each ocrRules (Knows st log) log
  apart : ∀ d d' v v' id, Live d log → Live d' log → ghost ocrRules d log = some v →
    ghost ocrRules d' log = some v' → v.request = some id → v'.request = some id → d = d'
  pending : ∀ id job, st.pending id = some job → ∃ c, Started log c id job
  results : ∀ id reading, st.results id = some reading →
    ∃ c job, Started log c id job ∧ Read log id job reading

/-! ## One operation -/

/-- What a call knew it still knows, whatever another call does that starts no thread for it. -/
theorem Knows.later (h : Knows st log d v) {ev : Event OcrEff OcrEff.Ans Exc OcrCall Unit}
    (hrequests : st.requests ≤ st'.requests)
    (hstarted : ∀ c id job, v.request = some id → Started (ev :: log) c id job →
      Started log c id job) : Knows st' (ev :: log) d v where
  request id hid := ⟨(h.request id hid).1.trans_le hrequests, fun c job hs =>
    (h.request id hid).2 c job (hstarted c id job hid hs)⟩
  waiting id job hw := (h.waiting id job hw).cons
  thread id job hc := by
    obtain ⟨c, hs⟩ := h.thread id job hc
    exact ⟨c, hs.cons⟩
  operating hop id job hc := List.mem_cons_of_mem ev (h.operating hop id job hc)
  reading reading hr id job hc := (h.reading reading hr id job hc).cons

/-- An operation that starts no thread. -/
theorem Traced.did (h : Traced st log) (hghost : ghost ocrRules c log = some v)
    (hstarted : ∀ c' id job, Started (.did c e r :: log) c' id job → Started log c' id job)
    (hrequests : st.requests ≤ st'.requests)
    (hself : Knows st' (.did c e r :: log) c (v.next e r))
    (hrequest : ∀ id, (v.next e r).request = some id → v.request = some id ∨ st.requests ≤ id)
    (hpending : ∀ id job, st'.pending id = some job → st.pending id = some job)
    (hresults : ∀ id reading, st'.results id = some reading → st.results id = some reading ∨
      ∃ c job, Started log c id job ∧ Read log id job reading) :
    Traced st' (.did c e r :: log) where
  made c' id job hs := (h.made c' id job (hstarted c' id job hs)).trans_le hrequests
  once c₁ c₂ id job job' h₁ h₂ := h.once c₁ c₂ id job job' (hstarted _ _ _ h₁) (hstarted _ _ _ h₂)
  knows := h.knows.did hghost hself fun d v _ _ hv => hv.later hrequests
    fun c' id job _ hs => hstarted c' id job hs
  apart d d' s s' id hd hd' hs hs' hid hid' := by
    have hold : ∀ {x y : CallId} {vx vy : OcrWatch}, y ≠ c → Live y log →
        ghost ocrRules x (.did c e r :: log) = some vx → ghost ocrRules y log = some vy →
        Live x log → vx.request = some id → vy.request = some id →
        (x = c → x = y ∨ st.requests ≤ id) := by
      rintro x y vx vy - hy hvx hvy hx hidx hidy rfl
      cases hvx.symm.trans (ghost_did_self hghost)
      exact (hrequest id hidx).imp_left fun hv => h.apart x y v vy id hx hy hghost hvy hv hidy
    by_cases hdc : d = c
    · by_cases hdc' : d' = c
      · exact hdc.trans hdc'.symm
      · rw [ghost_did_ne (Ne.symm hdc')] at hs'
        rcases hold hdc' hd' hs hs' hd hid hid' hdc with heq | hle
        · exact heq
        · exact absurd ((h.knows d' s' hd' hs').request id hid').1 (Nat.not_lt.2 hle)
    · rw [ghost_did_ne (Ne.symm hdc)] at hs
      by_cases hdc' : d' = c
      · rcases hold hdc hd hs' hs hd' hid' hid hdc' with heq | hle
        · exact heq.symm
        · exact absurd ((h.knows d s hd hs).request id hid).1 (Nat.not_lt.2 hle)
      · rw [ghost_did_ne (Ne.symm hdc')] at hs'
        exact h.apart d d' s s' id hd hd' hs hs' hid hid'
  pending id job hp := by
    obtain ⟨c', hs⟩ := h.pending id job (hpending id job hp)
    exact ⟨c', hs.cons⟩
  results id reading hres := by
    obtain ⟨c', job, hs, hr⟩ := (hresults id reading hres).elim (h.results id reading)
      fun hx => hx
    exact ⟨c', job, hs.cons, hr.cons⟩

/-- A thread is started. -/
theorem Traced.startWorker (h : Traced st log) (hlive : Live c log)
    (hghost : ghost ocrRules c log = some v) (hrequest : v.request = some id) (job : Job) :
    Traced { st with pending := Function.update st.pending id (some job) }
      (.did c (.startWorker id job) (.ok ()) :: log) := by
  obtain ⟨hlt, hfresh⟩ := (h.knows c v hlive hghost).request id hrequest
  have hcases : ∀ {c' id' job'}, Started (.did c (.startWorker id job) (.ok ()) :: log) c' id' job' →
      c' = c ∧ id' = id ∧ job' = job ∨ Started log c' id' job' := by
    intro c' id' job' hs
    rcases List.mem_cons.1 hs with heq | hs
    · cases heq
      exact .inl ⟨rfl, rfl, rfl⟩
    · exact .inr hs
  have hself := h.knows c v hlive hghost
  refine ⟨?_, ?_, ?_, ?_, ?_, ?_⟩
  · intro c' id' job' hs
    rcases hcases hs with ⟨-, rfl, -⟩ | hs
    · exact hlt
    · exact h.made c' id' job' hs
  · intro c₁ c₂ id' job₁ job₂ h₁ h₂
    rcases hcases h₁ with ⟨rfl, rfl, rfl⟩ | hold₁
    · rcases hcases h₂ with ⟨rfl, -, rfl⟩ | hold₂
      · exact ⟨rfl, rfl⟩
      · exact absurd hold₂ (hfresh _ _)
    · rcases hcases h₂ with ⟨rfl, rfl, rfl⟩ | hold₂
      · exact absurd hold₁ (hfresh _ _)
      · exact h.once c₁ c₂ id' job₁ job₂ hold₁ hold₂
  · refine Each.did (Φ := fun d v => Knows st log d v ∧ (d ≠ c → v.request ≠ some id)) ?_ hghost
      ?_ ?_
    · exact fun d s hd hs => ⟨h.knows d s hd hs, fun hdc hid =>
        hdc (h.apart d c s v id hd hlive hs hghost hid hrequest)⟩
    · refine ⟨fun _ hid => (by cases hid), fun id' job' hw => ?_, ?_, ?_, ?_⟩
      · cases hw
        exact List.mem_cons_self
      · intro id' job' hc
        obtain ⟨c', hs⟩ := hself.thread id' job' hc
        exact ⟨c', hs.cons⟩
      · exact fun hop id' job' hc => List.mem_cons_of_mem _ (hself.operating hop id' job' hc)
      · exact fun reading hr id' job' hc => (hself.reading reading hr id' job' hc).cons
    · intro d s hd _ hs
      refine hs.1.later (Nat.le_refl _) fun c' id' job' hid hstarted => ?_
      rcases hcases hstarted with ⟨-, rfl, -⟩ | hstarted
      · exact absurd hid (hs.2 hd)
      · exact hstarted
  · intro d d' s s' id' hd hd' hs hs' hid hid'
    by_cases hdc : d = c
    · subst hdc
      cases hs.symm.trans (ghost_did_self hghost)
      cases hid
    · by_cases hdc' : d' = c
      · subst hdc'
        cases hs'.symm.trans (ghost_did_self hghost)
        cases hid'
      · rw [ghost_did_ne (Ne.symm hdc)] at hs
        rw [ghost_did_ne (Ne.symm hdc')] at hs'
        exact h.apart d d' s s' id' hd hd' hs hs' hid hid'
  · intro id' job' hp
    by_cases hid : id' = id
    · subst hid
      dsimp only at hp
      rw [Function.update_self] at hp
      cases hp
      exact ⟨c, List.mem_cons_self⟩
    · dsimp only at hp
      rw [Function.update_of_ne hid] at hp
      obtain ⟨c', hs⟩ := h.pending id' job' hp
      exact ⟨c', hs.cons⟩
  · intro id' reading hres
    obtain ⟨c', job', hs, hr⟩ := h.results id' reading hres
    exact ⟨c', job', hs.cons, hr.cons⟩

/-- An operation that has nothing to do with requests. -/
def OcrEff.Aside : OcrEff → Prop
  | .newRequest => False
  | .startWorker _ _ => False
  | .operate _ _ => False
  | .operated _ => False
  | .put _ _ => False
  | .get _ => False
  | _ => True

theorem OcrEff.Aside.exec (h : e.Aside) (hexec : ocrExec c env st e = some (r, st')) :
    st'.requests = st.requests ∧ st'.pending = st.pending ∧ st'.results = st.results := by
  cases e with
  | outer e =>
      cases e with
      | acquire lock =>
          cases lock with
          | actuation =>
              simp only [ocrExec] at hexec
              split at hexec <;> cases hexec
              exact ⟨rfl, rfl, rfl⟩
          | _ => rw [outer_exec (by simp) (by simp) hexec]; exact ⟨rfl, rfl, rfl⟩
      | release lock =>
          cases lock with
          | actuation =>
              cases hexec
              exact ⟨rfl, rfl, rfl⟩
          | _ => rw [outer_exec (by simp) (by simp) hexec]; exact ⟨rfl, rfl, rfl⟩
      | _ => rw [outer_exec (by simp) (by simp) hexec]; exact ⟨rfl, rfl, rfl⟩
  | acquire | join | abandoned =>
      simp only [ocrExec] at hexec
      split at hexec <;> cases hexec
      exact ⟨rfl, rfl, rfl⟩
  | releaseSlot =>
      simp only [ocrExec] at hexec
      split at hexec <;> cases hexec <;> exact ⟨rfl, rfl, rfl⟩
  | newRequest | startWorker | operate | operated | put | get => exact h.elim
  | _ =>
      cases hexec
      exact ⟨rfl, rfl, rfl⟩

theorem OcrEff.Aside.next (h : e.Aside) (v : OcrWatch) :
    (v.next e r).call = v.call ∧ (v.next e r).request = v.request ∧
      (v.next e r).waiting = v.waiting ∧ (v.next e r).operating = v.operating ∧
      (v.next e r).reading = v.reading := by
  unfold OcrWatch.next
  split <;> first | exact ⟨rfl, rfl, rfl, rfl, rfl⟩ | exact h.elim

theorem Traced.aside (h : Traced st log) (hlive : Live c log)
    (hghost : ghost ocrRules c log = some v) (haside : e.Aside)
    (hexec : ocrExec c env st e = some (r, st')) : Traced st' (.did c e r :: log) := by
  obtain ⟨hrequests, hpending, hresults⟩ := haside.exec hexec
  obtain ⟨hcall, hrequest, hwaiting, hoperating, hreading⟩ := haside.next (r := r) v
  have hstarted : ∀ c' id job, Started (.did c e r :: log) c' id job → Started log c' id job := by
    intro c' id job hs
    rcases List.mem_cons.1 hs with heq | hs
    · cases heq
      exact haside.elim
    · exact hs
  have hself : Knows st' (.did c e r :: log) c v :=
    (h.knows c v hlive hghost).later hrequests.ge fun c' id job _ hs => hstarted c' id job hs
  refine h.did hghost hstarted hrequests.ge ?_ (fun id hid => .inl (hrequest ▸ hid))
    (fun id job hp => hpending ▸ hp) fun id reading hr => .inl (hresults ▸ hr)
  refine ⟨?_, ?_, ?_, ?_, ?_⟩
  · rw [hrequest]
    exact hself.request
  · rw [hwaiting]
    exact hself.waiting
  · rw [hcall]
    exact hself.thread
  · rw [hoperating, hcall]
    exact hself.operating
  · rw [hreading, hcall]
    exact hself.reading

/-- One operation keeps the trace of every request. -/
theorem Traced.exec (h : Traced st log) (hlive : Live c log)
    (hghost : ghost ocrRules c log = some v) (hallow : v.allow e)
    (hexec : ocrExec c env st e = some (r, st')) : Traced st' (.did c e r :: log) := by
  have hself := h.knows c v hlive hghost
  by_cases haside : e.Aside
  · exact h.aside hlive hghost haside hexec
  have hlater : ∀ st' : OcrShared, (∀ id job, e ≠ .startWorker id job) →
      st.requests ≤ st'.requests → Knows st' (.did c e r :: log) c v := by
    intro st' hne hle
    refine hself.later hle fun c' id job _ hs => ?_
    rcases List.mem_cons.1 hs with heq | hs
    · cases heq
      exact absurd rfl (hne id job)
    · exact hs
  have hstarted : (∀ id job, e ≠ .startWorker id job) →
      ∀ c' id job, Started (.did c e r :: log) c' id job → Started log c' id job := by
    intro hne c' id job hs
    rcases List.mem_cons.1 hs with heq | hs
    · cases heq
      exact absurd rfl (hne id job)
    · exact hs
  cases e with
  | newRequest =>
      cases hexec
      have hk := hlater { st with requests := st.requests + 1 } (fun _ _ hne => by cases hne)
        (Nat.le_succ _)
      refine h.did hghost (hstarted fun _ _ hne => by cases hne) (Nat.le_succ _) ?_ ?_
        (fun _ _ hp => hp) fun _ _ hr => .inl hr
      · refine ⟨fun id hid => ?_, hk.waiting, hk.thread, hk.operating, hk.reading⟩
        cases hid
        refine ⟨Nat.lt_succ_self _, fun c' job hs => ?_⟩
        exact absurd (h.made c' _ job (hstarted (fun _ _ hne => by cases hne) _ _ _ hs))
          (Nat.lt_irrefl _)
      · intro id hid
        cases hid
        exact .inr (Nat.le_refl _)
  | startWorker id job =>
      simp only [ocrExec] at hexec
      split at hexec
      · cases hexec
        have hno : ∀ c' id' job', Started (.did c (.startWorker id job)
            (.error (.runtimeError "can't start new thread")) :: log) c' id' job' →
            Started log c' id' job' := by
          intro c' id' job' hs
          rcases List.mem_cons.1 hs with heq | hs
          · cases heq
          · exact hs
        exact h.did hghost hno (Nat.le_refl _)
          (hself.later (Nat.le_refl _) fun c' id' job' _ hs => hno c' id' job' hs)
          (fun _ hid => .inl hid) (fun _ _ hp => hp) fun _ _ hr => .inl hr
      · cases hexec
        exact h.startWorker hlive hghost hallow.2.2.2.2.1 job
  | operate id job =>
      cases hexec
      have hk := hlater st (fun _ _ hne => by cases hne) (Nat.le_refl _)
      refine h.did hghost (hstarted fun _ _ hne => by cases hne) (Nat.le_refl _) ?_
        (fun _ hid => .inl hid) (fun _ _ hp => hp) fun _ _ hr => .inl hr
      refine ⟨hk.request, hk.waiting, hk.thread, fun _ id' job' hc => ?_, hk.reading⟩
      cases hallow.2.1.symm.trans hc
      exact List.mem_cons_self
  | operated id =>
      have hst : st' = st := by
        simp only [ocrExec] at hexec
        split at hexec <;> cases hexec
        rfl
      subst hst
      have hk := hlater st' (fun _ _ hne => by cases hne) (Nat.le_refl _)
      refine h.did hghost (hstarted fun _ _ hne => by cases hne) (Nat.le_refl _) ?_
        (fun _ hid => .inl hid) (fun _ _ hp => hp) fun _ _ hr => .inl hr
      refine ⟨hk.request, hk.waiting, hk.thread, fun hop => (by cases hop), ?_⟩
      intro reading hr id' job' hc
      cases hr
      obtain ⟨-, hop, job, hcall⟩ := hallow
      have hbegin := hself.operating hop id job hcall
      have hbegan := began_of_ghost hghost
      rw [hcall] at hbegan
      cases hcall.symm.trans hc
      exact ⟨c, List.mem_cons_of_mem _ hbegan, List.mem_cons_of_mem _ hbegin, List.mem_cons_self⟩
  | put id reading =>
      cases hexec
      have hk := hlater { st with results := Function.update st.results id (some reading) }
        (fun _ _ hne => by cases hne) (Nat.le_refl _)
      refine h.did hghost (hstarted fun _ _ hne => by cases hne) (Nat.le_refl _) ?_
        (fun _ hid => .inl hid) (fun _ _ hp => hp) fun id' other hr => ?_
      · exact ⟨hk.request, hk.waiting, hk.thread, hk.operating, fun _ hr => by cases hr⟩
      · by_cases hid : id' = id
        · subst hid
          dsimp only at hr
          rw [Function.update_self] at hr
          cases hr
          obtain ⟨hreading, job, hcall⟩ := hallow
          obtain ⟨c', hs⟩ := hself.thread _ job hcall
          exact .inr ⟨c', job, hs, hself.reading _ hreading _ job hcall⟩
        · dsimp only at hr
          rw [Function.update_of_ne hid] at hr
          exact .inl hr
  | get id =>
      have hst : st'.requests = st.requests ∧ st'.pending = st.pending ∧
          ∀ id' reading, st'.results id' = some reading → st.results id' = some reading := by
        simp only [ocrExec] at hexec
        split at hexec
        · cases hexec
          refine ⟨rfl, rfl, fun id' reading hr => ?_⟩
          by_cases hid : id' = id
          · subst hid
            dsimp only at hr
            rw [Function.update_self] at hr
            cases hr
          · dsimp only at hr
            rw [Function.update_of_ne hid] at hr
            exact hr
        · split at hexec <;> cases hexec
          exact ⟨rfl, rfl, fun _ _ hr => hr⟩
      obtain ⟨hrequests, hpending, hresults⟩ := hst
      exact h.did hghost (hstarted fun _ _ hne => by cases hne) hrequests.ge
        (hlater st' (fun _ _ hne => by cases hne) hrequests.ge) (fun _ hid => .inl hid)
        (fun _ _ hp => hpending ▸ hp) fun id' reading hr => .inl (hresults id' reading hr)
  | _ => exact absurd trivial haside

/-! ## Every run -/

theorem Started.of_began {call : OcrCall} (h : Started (.began d call :: log) c id job) :
    Started log c id job := (List.mem_cons.1 h).resolve_left fun heq => by cases heq

theorem Traced.began (h : Traced st log) (hnew : ¬ Begun c log) {call : OcrCall}
    (haccept : Accepted c call st st') : Traced st' (.began c call :: log) := by
  have hpending : ∀ id job, st'.pending id = some job → st.pending id = some job := by
    intro id job hp
    obtain ⟨-, hsame⟩ | ⟨id', -, -, -, hsame⟩ := haccept.pending
    · exact hsame ▸ hp
    · rw [hsame] at hp
      by_cases hid : id = id'
      · subst hid
        rw [Function.update_self] at hp
        cases hp
      · rw [Function.update_of_ne hid] at hp
        exact hp
  refine ⟨?_, fun c c' id job job' h₁ h₂ => h.once c c' id job job' h₁.of_began h₂.of_began,
    ?_, ?_, ?_, ?_⟩
  · intro c' id job hs
    rw [haccept.requests]
    exact h.made c' id job hs.of_began
  · refine h.knows.began ⟨fun _ hid => (by cases hid), fun _ _ hw => (by cases hw), ?_,
      fun hop => (by cases hop), fun _ hr => (by cases hr)⟩ fun d v _ _ hv =>
        hv.later haccept.requests.ge fun _ _ _ _ hs => hs.of_began
    intro id job hc
    obtain ⟨hworker, -⟩ | ⟨id', job', rfl, hid, -⟩ := haccept.pending
    · rw [show call = .worker id job from hc] at hworker
      cases hworker
    · cases hc
      obtain ⟨c', hs⟩ := h.pending id job hid
      exact ⟨c', hs.cons⟩
  · intro d d' s s' id hd hd' hs hs' hid hid'
    by_cases hdc : d = c
    · subst hdc
      cases hs.symm.trans ghost_began_self
      cases hid
    · by_cases hdc' : d' = c
      · subst hdc'
        cases hs'.symm.trans ghost_began_self
        cases hid'
      · rw [ghost_began_ne (Ne.symm hdc)] at hs
        rw [ghost_began_ne (Ne.symm hdc')] at hs'
        exact h.apart d d' s s' id (hd.resolve_left (Ne.symm hdc)) (hd'.resolve_left (Ne.symm hdc'))
          hs hs' hid hid'
  · intro id job hp
    obtain ⟨c', hs⟩ := h.pending id job (hpending id job hp)
    exact ⟨c', hs.cons⟩
  · intro id reading hr
    rw [haccept.results] at hr
    obtain ⟨c', job, hs, hread⟩ := h.results id reading hr
    exact ⟨c', job, hs.cons, hread.cons⟩

/-- The end of a call, or of a process, starts no thread. -/
theorem Traced.over (h : Traced st log) {ev : Event OcrEff OcrEff.Ans Exc OcrCall Unit}
    (hstarted : ∀ c id job, Started (ev :: log) c id job → Started log c id job)
    (hlive : ∀ d, Live d (ev :: log) → Live d log)
    (hghost : ∀ d, ghost ocrRules d (ev :: log) = ghost ocrRules d log)
    (hrequests : st'.requests = st.requests)
    (hpending : ∀ id job, st'.pending id = some job → st.pending id = some job)
    (hresults : ∀ id reading, st'.results id = some reading → st.results id = some reading) :
    Traced st' (ev :: log) where
  made c id job hs := by
    rw [hrequests]
    exact h.made c id job (hstarted c id job hs)
  once c c' id job job' h₁ h₂ := h.once c c' id job job' (hstarted _ _ _ h₁) (hstarted _ _ _ h₂)
  knows d v hd hv := by
    rw [hghost] at hv
    exact (h.knows d v (hlive d hd) hv).later hrequests.ge fun c id job _ hs => hstarted c id job hs
  apart d d' s s' id hd hd' hs hs' hid hid' := by
    rw [hghost] at hs hs'
    exact h.apart d d' s s' id (hlive d hd) (hlive d' hd') hs hs' hid hid'
  pending id job hp := by
    obtain ⟨c, hs⟩ := h.pending id job (hpending id job hp)
    exact ⟨c, hs.cons⟩
  results id reading hr := by
    obtain ⟨c, job, hs, hread⟩ := h.results id reading (hresults id reading hr)
    exact ⟨c, job, hs.cons, hread.cons⟩

theorem traced_kept (o : Recognizer) (cfg : Config) :
    Keeps (ocrThreads o cfg) ocrRules Completed (fun _ _ => True) Accounted Traced where
  began _ _ _ _ _ _ h _ hnew haccept := h.began hnew (accepted haccept)
  did _ _ _ _ _ _ _ _ _ _ h _ _ hlive hghost hallow hexec := h.exec hlive hghost hallow hexec
  ended _ c _ r _ _ h _ _ _ := h.over
    (fun _ _ _ hs => (List.mem_cons.1 hs).resolve_left fun heq => by cases heq)
    (fun _ hd => hd.2) (fun _ => rfl) rfl (fun _ _ hp => hp) fun _ _ hr => hr
  crashed w p _ _ _ h _ := by
    have hstarted : ∀ c id job, Started (.crashed p :: w.log) c id job → Started w.log c id job :=
      fun _ _ _ hs => (List.mem_cons.1 hs).resolve_left fun heq => by cases heq
    show Traced (if p = w.state.life then _ else _) _
    split
    · exact h.over hstarted (fun _ hd => hd.2) (fun _ => rfl) rfl (fun _ _ hp => by cases hp)
        fun _ _ hr => by cases hr
    · exact h.over hstarted (fun _ hd => hd.2) (fun _ => rfl) rfl (fun _ _ hp => hp)
        fun _ _ hr => hr

/-- Before any call. -/
theorem traced_init : Traced {} ([] : OcrLog) :=
  ⟨fun _ _ _ hs => (by cases hs), fun _ _ _ _ _ hs => (by cases hs), fun _ _ hd => hd.elim,
    fun _ _ _ _ _ hd => hd.elim, fun _ _ hp => (by cases hp), fun _ _ hr => by cases hr⟩

/-! ## One thread for a request -/

/-- The thread of a request is started once and begins once, after it was started. -/
structure Single (st : OcrShared) (log : OcrLog) : Prop where
  starts : (log.filterMap startOf).Nodup
  threads : (log.filterMap threadOf).Nodup
  pending : ∀ id job, st.pending id = some job → id ∉ log.filterMap threadOf
  started : ∀ id ∈ log.filterMap threadOf, id ∈ log.filterMap startOf

/-- An event that neither starts a thread nor lets one begin. -/
theorem Single.over (h : Single st log) {ev : Event OcrEff OcrEff.Ans Exc OcrCall Unit}
    (hstart : startOf ev = none) (hthread : threadOf ev = none)
    (hpending : ∀ id job, st'.pending id = some job → st.pending id = some job) :
    Single st' (ev :: log) := by
  have hstarts : (ev :: log).filterMap startOf = log.filterMap startOf :=
    List.filterMap_cons_none hstart
  have hthreads : (ev :: log).filterMap threadOf = log.filterMap threadOf :=
    List.filterMap_cons_none hthread
  refine ⟨?_, ?_, ?_, ?_⟩
  · rw [hstarts]
    exact h.starts
  · rw [hthreads]
    exact h.threads
  · rw [hthreads]
    exact fun id job hp => h.pending id job (hpending id job hp)
  · rw [hstarts, hthreads]
    exact h.started

/-- A thread is put where it waits to begin by being started only. -/
theorem pending_of_exec (hexec : ocrExec c env st e = some (r, st')) :
    (∃ id job, e = .startWorker id job ∧ startOf (.did c e r) = some id ∧
      st'.pending = Function.update st.pending id (some job)) ∨
    startOf (.did c e r) = none ∧ st'.pending = st.pending := by
  by_cases haside : e.Aside
  · refine .inr ⟨?_, (haside.exec hexec).2.1⟩
    cases e with
    | startWorker id job => exact haside.elim
    | _ => rfl
  cases e with
  | startWorker id job =>
      simp only [ocrExec] at hexec
      split at hexec
      · cases hexec
        exact .inr ⟨rfl, rfl⟩
      · cases hexec
        exact .inl ⟨id, job, rfl, rfl, rfl⟩
  | newRequest =>
      cases hexec
      exact .inr ⟨rfl, rfl⟩
  | operate id job =>
      cases hexec
      exact .inr ⟨rfl, rfl⟩
  | operated id =>
      simp only [ocrExec] at hexec
      split at hexec <;> cases hexec
      exact .inr ⟨rfl, rfl⟩
  | put id reading =>
      cases hexec
      exact .inr ⟨rfl, rfl⟩
  | get id =>
      simp only [ocrExec] at hexec
      split at hexec
      · cases hexec
        exact .inr ⟨rfl, rfl⟩
      · split at hexec <;> cases hexec
        exact .inr ⟨rfl, rfl⟩
  | _ => exact absurd trivial haside

theorem single_kept (o : Recognizer) (cfg : Config) :
    Keeps (ocrThreads o cfg) ocrRules Completed (fun _ _ => True)
      (fun st log => Accounted st log ∧ Traced st log) Single where
  began w c call s' _ hI h _ _ haccept := by
    obtain ⟨hworker, hsame⟩ | ⟨id, job, rfl, hid, hsame⟩ := (accepted haccept).pending
    · refine h.over rfl ?_ fun id job hp => hsame ▸ hp
      cases call with
      | worker id job => cases hworker
      | process a => rfl
      | recordSkipped a => rfl
      | close => rfl
    · have hfresh := h.pending id job hid
      obtain ⟨c', hs⟩ := hI.2.pending id job hid
      have hstarted : id ∈ w.log.filterMap startOf := mem_startOf.2 ⟨c', job, hs⟩
      refine ⟨h.starts, List.nodup_cons.2 ⟨hfresh, h.threads⟩, fun id' job' hp hmem => ?_,
        fun id' hmem => ?_⟩
      · rw [hsame] at hp
        by_cases heq : id' = id
        · subst heq
          rw [Function.update_self] at hp
          cases hp
        · rw [Function.update_of_ne heq] at hp
          exact h.pending id' job' hp ((List.mem_cons.1 hmem).resolve_left heq)
      · rcases List.mem_cons.1 hmem with rfl | hmem
        · exact hstarted
        · exact h.started id' hmem
  did w c env e k v r st' _ hI h _ _ hlive hghost hallow hexec := by
    obtain ⟨id, job, rfl, hstart, hsame⟩ | ⟨hstart, hsame⟩ := pending_of_exec hexec
    · -- The request is new, so no thread was started for it.
      have hnew : id ∉ w.log.filterMap startOf := fun hmem => by
        obtain ⟨c', job', hs⟩ := mem_startOf.1 hmem
        exact ((hI.2.knows c v hlive hghost).request id hallow.2.2.2.2.1).2 c' job' hs
      have hstarts : (.did c (.startWorker id job) r :: w.log).filterMap startOf =
          id :: w.log.filterMap startOf := List.filterMap_cons_some hstart
      refine ⟨?_, h.threads, fun id' job' hp => ?_, fun id' hmem => ?_⟩
      · rw [hstarts]
        exact List.nodup_cons.2 ⟨hnew, h.starts⟩
      · by_cases heq : id' = id
        · subst heq
          exact fun hmem => hnew (h.started id' hmem)
        · rw [hsame, Function.update_of_ne heq] at hp
          exact h.pending id' job' hp
      · rw [hstarts]
        exact List.mem_cons_of_mem _ (h.started id' hmem)
    · exact h.over hstart rfl fun id job hp => hsame ▸ hp
  ended _ _ _ _ _ _ h _ _ _ := h.over rfl rfl fun _ _ hp => hp
  crashed w p _ _ _ h _ := by
    show Single (if p = w.state.life then _ else _) _
    split
    · exact h.over rfl rfl fun _ _ hp => by cases hp
    · exact h.over rfl rfl fun _ _ hp => hp

/-! ## The readings that are given -/

/-- Every reading that a burst was given is its own. -/
def Given (log : OcrLog) : Prop :=
  ∀ c id reading, .did c (.get id) (.ok (some reading)) ∈ log →
    ∃ job, Started log c id job ∧ Read log id job reading

theorem Given.cons {ev : Event OcrEff OcrEff.Ans Exc OcrCall Unit} (h : Given log)
    (hev : ∀ c id reading, ev = .did c (.get id) (.ok (some reading)) →
      ∃ job, Started log c id job ∧ Read log id job reading) : Given (ev :: log) := by
  intro c id reading hmem
  have hold : ∃ job, Started log c id job ∧ Read log id job reading := by
    rcases List.mem_cons.1 hmem with heq | hmem
    · exact hev c id reading heq.symm
    · exact h c id reading hmem
  obtain ⟨job, hs, hr⟩ := hold
  exact ⟨job, hs.cons, hr.cons⟩

theorem given_kept (o : Recognizer) (cfg : Config) :
    Keeps (ocrThreads o cfg) ocrRules Completed (fun _ _ => True)
      (fun st log => (Accounted st log ∧ Traced st log) ∧ Single st log)
      (fun _ log => Given log) where
  began _ _ _ _ _ _ h _ _ _ := h.cons fun _ _ _ heq => by cases heq
  did w c env e k v r st' _ hI h _ _ hlive hghost hallow hexec := by
    refine h.cons fun c' id reading heq => ?_
    cases heq
    -- The burst waits for a thread of its own, and only one thread fills the queue.
    obtain ⟨-, job, hwaiting⟩ := hallow
    have hown := (hI.1.2.knows c v hlive hghost).waiting id job hwaiting
    have hres : w.state.results id = some reading := by
      change ocrExec c env w.state (.get id) = _ at hexec
      simp only [ocrExec] at hexec
      split at hexec
      next other hsome =>
        cases hexec
        exact hsome
      next =>
        split at hexec <;> cases hexec
    obtain ⟨c', job', hs, hread⟩ := hI.1.2.results id reading hres
    obtain ⟨-, rfl⟩ := hI.1.2.once c c' id job job' hown hs
    exact ⟨job, hown, hread⟩
  ended _ _ _ _ _ _ h _ _ _ := h.cons fun _ _ _ heq => by cases heq
  crashed _ _ _ _ _ h _ := h.cons fun _ _ _ heq => by cases heq

/-- The thread of a request is started once at most and begins once at most, and what a burst is
given for a request is what the recogniser came to in the thread that this burst started for it,
on the frame that it started it for. -/
theorem own_reading (o : Recognizer) (cfg : Config) (l : List (Choice OcrEnv OcrCall)) :
    (((ocrThreads o cfg).run (World.init {}) l).log.filterMap startOf).Nodup ∧
    (((ocrThreads o cfg).run (World.init {}) l).log.filterMap threadOf).Nodup ∧
    (∀ c c' id job job', Started ((ocrThreads o cfg).run (World.init {}) l).log c id job →
      Started ((ocrThreads o cfg).run (World.init {}) l).log c' id job' → c = c' ∧ job = job') ∧
    ∀ c id reading, .did c (.get id) (.ok (some reading)) ∈
        ((ocrThreads o cfg).run (World.init {}) l).log →
      ∃ job, Started ((ocrThreads o cfg).run (World.init {}) l).log c id job ∧
        Read ((ocrThreads o cfg).run (World.init {}) l).log id job reading := by
  have hsingle : Single {} ([] : OcrLog) :=
    ⟨List.nodup_nil, List.nodup_nil, fun _ _ hp => (by cases hp), fun _ hmem => by cases hmem⟩
  obtain ⟨-, ⟨⟨-, htraced⟩, hone⟩, hgiven⟩ :=
    ((((accounted_sound o cfg).and (traced_kept o cfg)).and (single_kept o cfg)).and
      (given_kept o cfg)).run (Sound.init _ _ _)
      ⟨⟨⟨accounted_init, traced_init⟩, hsingle⟩, fun _ _ _ hmem => by cases hmem⟩
      (Machine.admits_true _ l)
  exact ⟨hone.starts, hone.threads, htraced.once, hgiven⟩

end OcrRequest

end GateController

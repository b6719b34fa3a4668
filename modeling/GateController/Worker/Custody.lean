import GateController.Worker.FirstFrame

/-!
# Nobody loses an upload

An upload that was noticed is removed in the end, or it would fill the disk.  So
somebody has to know of it at any time: the handler's dictionary, the collector,
a burst in the queue, or a call that took it out of one of these and has not put
it into the next one or removed it.

`Custody` is what a call has taken out.  Every method of the worker gives
everything away again before it ends, however it ends.  The one place where that
depends on the other threads is `retry_pending`: it forgets an upload after it
has added it to the collector, so nobody may flush the collector in between.
Only the main thread does either.
-/

namespace GateController

open Data Effects Proc GateProcessor

variable {cfg : WorkerConfig}

/-! ## What a call has in its hands -/

/-- What a call is responsible for. -/
structure Custody where
  /-- Whether the call is a round of the main loop. -/
  polls : Bool
  /-- The uploads that it has taken and neither passed on nor removed. -/
  held : List String := []
  /-- The upload that it has added to the collector last. -/
  shelved : Option String := none

namespace Custody

/-- The custody after an operation. -/
def next (s : Custody) : (e : WorkerEff) → Except Exc e.Ans → Custody
  | .schedule _, .ok dropped => { s with held := s.held ++ dropped }
  | .forget path, _ => if s.shelved = some path then s else { s with held := path :: s.held }
  | .add path _, .ok answer =>
      { s with held := s.held.filter (· ≠ path) ++ answer.1.toList, shelved := some path }
  | .selectHot _, .ok selected => { s with held := s.held ++ selected }
  | .take, .ok (some flushed) => { s with held := s.held ++ flushed.1.pending, shelved := none }
  | .put b, .ok dropped =>
      { s with held := s.held.filter (· ∉ b.paths) ++ (dropped.map Burst.paths).getD [] }
  | .get, .ok b => { s with held := s.held ++ b.paths }
  | .remove path, _ => { s with held := s.held.filter (· ≠ path) }
  | _, _ => s

/-- Only the main thread adds to the collector and flushes it. -/
def allow (s : Custody) : WorkerEff → Prop
  | .add _ _ => s.polls = true
  | .take => s.polls = true
  | _ => True

/-- The worker's own operations do not fail, and a notification displaces at most one
upload. -/
def expect : (e : WorkerEff) → Except Exc e.Ans → Prop
  | .gate _, _ => True
  | .selectHot _, _ => True
  | .schedule _, .ok dropped => dropped.length ≤ 1
  | _, .ok _ => True
  | _, .error _ => False

end Custody

/-- The custody of a worker's thread. -/
def custody (cfg : WorkerConfig) : Protocol WorkerEff WorkerEff.Ans Exc (WorkerCall cfg) Custody where
  start call := { polls := match call with | .poll => true | _ => false }
  next := Custody.next
  allow := Custody.allow
  expect _ := Custody.expect

namespace Worker

variable {α β : Type} {s : Custody}

/-- Everything that is still held is among these, and the call is what it was. -/
def Holding (s : Custody) (paths : List String) (s' : Custody) : Prop :=
  s'.held ⊆ paths ∧ s'.polls = s.polls

/-- An operation that does not touch the uploads. -/
def Untouching : WorkerEff → Prop
  | .gate _ => True
  | .enter _ => True
  | .clock => True
  | .due _ => True
  | .candidate _ => True
  | .postpone _ _ => True
  | .exists_ _ => True
  | .tooLarge _ => True
  | .readable _ => True
  | .remainingCapacity => True
  | .rank _ => True
  | _ => False

theorem ignores_untouching {e : WorkerEff} (h : Untouching e) : (custody cfg).Ignores s e := by
  cases e with
  | schedule _ | forget _ | remove _ | add _ _ | selectHot _ | take | put _ | get => exact h.elim
  | _ => exact ⟨trivial, fun _ => rfl⟩

theorem obeys_untouching {p : WorkerProg α} (hp : p.Only Untouching) :
    Obeys (custody cfg) (fun s' _ => s' = s) s p :=
  Obeys.of_only hp fun _ => ignores_untouching

theorem obeys_op {e : WorkerEff} (h : Untouching e) :
    Obeys (custody cfg) (fun s' r => s' = s ∧ Custody.expect e r) s (op e) := by
  obtain ⟨hallow, hnext⟩ := ignores_untouching (s := s) h
  exact Obeys.perform hallow fun r hr => ⟨hnext r, hr⟩

theorem only_untouching_lift (p : Proc α) : (lift p).Only Untouching :=
  (only_lift p).mono fun _ ⟨_, h⟩ => h ▸ trivial

/-! ## The methods give everything away -/

theorem obeys_removeUploads_custody {paths held : List String}
    (hheld : s.held ⊆ paths ++ held) :
    Obeys (custody cfg) (fun s' r => Holding s held s' ∧ s'.shelved = s.shelved ∧ r = .ok ()) s
      (removeUploads paths) := by
  induction paths generalizing s with
  | nil => exact ⟨⟨hheld, rfl⟩, rfl, rfl⟩
  | cons path rest ih =>
      rw [removeUploads, Obeys.bind_iff]
      refine Obeys.perform trivial fun r hr => ?_
      cases r with
      | error x => exact hr.elim
      | ok u =>
          refine ih (s := { s with held := s.held.filter (· ≠ path) }) fun q hq => ?_
          obtain ⟨hmem, hne⟩ := List.mem_filter.1 hq
          rcases List.mem_cons.1 (hheld hmem) with rfl | hrest
          · exact absurd rfl (of_decide_eq_true hne)
          · exact hrest

/-- A cleanup that gives the rest away, after a call of the processor. -/
theorem obeys_finally_remove {p : WorkerProg α} (hp : p.Only Untouching) {paths : List String}
    (hheld : s.held ⊆ paths) :
    Obeys (custody cfg) (fun s' _ => Holding s [] s') s (p.finally_ (removeUploads paths)) := by
  rw [Prog.finally_, Obeys.bind_iff, Obeys.attempt_iff]
  refine (obeys_untouching hp).mono fun s' r hs' => ?_
  subst hs'
  refine Obeys.bind (obeys_removeUploads_custody (by simpa using hheld))
    (fun s₂ _ hs₂ => ?_) fun s₂ x hs₂ => hs₂.1
  simpa using hs₂.1

theorem obeys_reject {path : String} (reason : String) (hheld : s.held ⊆ [path]) :
    Obeys (custody cfg) (fun s' _ => Holding s [] s') s (reject cfg path reason) := by
  have honly : (do
      op (.enter none)
      let _ ← lift (recordSkipped cfg.gate { paths := [path], reason })
      return () : WorkerProg Unit).Only Untouching :=
    Prog.Only.bind (Prog.Only.perform_iff.2 trivial) fun _ =>
      Prog.Only.bind (only_untouching_lift _) fun _ => trivial
  rw [reject, Prog.finally_, Obeys.bind_iff, Obeys.attempt_iff]
  refine (obeys_untouching honly).mono fun s' r hs' => ?_
  subst hs'
  dsimp only
  rw [Obeys.bind_iff]
  refine Obeys.perform trivial fun r' hr' => ?_
  have hempty : Holding s' [] { s' with held := s'.held.filter (· ≠ path) } := by
    refine ⟨fun q hq => ?_, rfl⟩
    obtain ⟨hmem, hne⟩ := List.mem_filter.1 hq
    exact absurd (List.mem_singleton.1 (hheld hmem)) (of_decide_eq_true hne)
  cases r' with
  | error x => exact hr'.elim
  | ok u => exact Obeys.ofExcept_iff.2 hempty

/-- At most one upload is rejected, so it does not matter that a rejection may raise. -/
theorem obeys_rejectAll {paths : List String} (reason : String) (hone : paths.length ≤ 1)
    (hheld : s.held ⊆ paths) :
    Obeys (custody cfg) (fun s' _ => Holding s [] s') s (rejectAll cfg reason paths) := by
  match paths, hone with
  | [], _ => exact ⟨hheld, rfl⟩
  | [path], _ =>
      exact Obeys.bind (obeys_reject reason hheld) (fun s' _ hs' => hs') fun s' _ hs' => hs'

theorem obeys_scheduleCandidate (path : String) (isDirectory : Bool) (hheld : s.held = []) :
    Obeys (custody cfg) (fun s' _ => Holding s [] s') s
      (scheduleCandidate cfg path isDirectory) := by
  unfold scheduleCandidate
  split
  · exact ⟨by simp [hheld], rfl⟩
  · rw [Obeys.bind_iff]
    refine Obeys.perform trivial fun r hr => ?_
    cases r with
    | error x => exact hr.elim
    | ok dropped =>
        refine (obeys_rejectAll (s := { s with held := s.held ++ dropped }) _ hr ?_).mono
          fun s' _ hs' => hs'
        simp [hheld]

/-- An upload that goes into the collector, and the one that is given up for it. -/
theorem obeys_collect {path : String} {held : List String} (receivedAt : DateTime)
    (hpolls : s.polls = true) (hheld : s.held ⊆ path :: held) :
    Obeys (custody cfg) (fun s' r => Holding s held s' ∧ s'.shelved = some path ∧
      ∃ first, r = .ok first) s (collect path receivedAt) := by
  rw [collect, Obeys.bind_iff]
  refine Obeys.perform hpolls fun r hr => ?_
  have hkept : s.held.filter (· ≠ path) ⊆ held := by
    intro q hq
    obtain ⟨hmem, hne⟩ := List.mem_filter.1 hq
    exact (List.mem_cons.1 (hheld hmem)).resolve_left (of_decide_eq_true hne)
  match r with
  | .error x => exact hr.elim
  | .ok (none, first) =>
      refine ⟨⟨?_, rfl⟩, rfl, first, rfl⟩
      show s.held.filter (· ≠ path) ++ [] ⊆ held
      rw [List.append_nil]
      exact hkept
  | .ok (some dropped, first) =>
      dsimp only
      rw [Obeys.bind_iff]
      refine Obeys.perform trivial fun r hr => ?_
      cases r with
      | error x => exact hr.elim
      | ok u =>
          refine ⟨⟨fun q hq => ?_, rfl⟩, rfl, first, rfl⟩
          obtain ⟨hmem, hne⟩ := List.mem_filter.1 hq
          rcases List.mem_append.1 hmem with hold | hnew
          · exact hkept hold
          · exact absurd (by simpa using hnew) (of_decide_eq_true hne)

theorem obeys_collectAll {paths held : List String} (receivedAt : DateTime)
    (hpolls : s.polls = true) (hheld : s.held ⊆ paths ++ held) :
    Obeys (custody cfg) (fun s' r => Holding s held s' ∧ r = .ok ()) s
      (collectAll receivedAt paths) := by
  induction paths generalizing s with
  | nil => exact ⟨⟨hheld, rfl⟩, rfl⟩
  | cons path rest ih =>
      refine Obeys.bind (obeys_collect receivedAt hpolls hheld)
        (fun s' _ hs' => ?_) fun s' x hs' => ?_
      · refine (ih (hs'.1.2.trans hpolls) hs'.1.1).mono fun s₂ _ hs₂ => ?_
        exact ⟨⟨hs₂.1.1, hs₂.1.2.trans hs'.1.2⟩, hs₂.2⟩
      · obtain ⟨-, -, first, hraise⟩ := hs'
        cases hraise

theorem obeys_addHotFrames (receivedAt : DateTime) (hpolls : s.polls = true)
    (hheld : s.held = []) :
    Obeys (custody cfg) (fun s' _ => Holding s [] s') s (addHotFrames cfg receivedAt) := by
  unfold addHotFrames
  split
  · exact ⟨by simp [hheld], rfl⟩
  · rw [Obeys.bind_iff, Obeys.attempt_iff]
    refine Obeys.perform trivial fun r _ => ?_
    cases r with
    | error x =>
        dsimp only
        split <;> exact ⟨by simp [Custody.next, custody, hheld], rfl⟩
    | ok selected =>
        dsimp only
        refine Obeys.bind (obeys_op (e := .remainingCapacity) trivial) (fun s' remaining hs' => ?_)
          fun s' x hs' => hs'.2.elim
        obtain ⟨rfl, -⟩ := hs'
        refine Obeys.bind (@obeys_collectAll _ _ _ (selected.drop (min 2 remaining)) receivedAt
          hpolls ?_) (fun s₂ _ hs₂ => ?_) fun s₂ x hs₂ => by cases hs₂.2
        · show s.held ++ selected ⊆ _
          rw [hheld, List.nil_append, List.take_append_drop]
          exact List.Subset.refl _
        · refine (@obeys_removeUploads_custody _ _ _ [] (by simpa using hs₂.1.1)).mono
            fun s₃ _ hs₃ => ?_
          exact ⟨hs₃.1.1, hs₃.1.2.trans hs₂.1.2⟩

theorem obeys_offer {path : String} {candidate : Candidate} (hpolls : s.polls = true)
    (hheld : s.held = []) :
    Obeys (custody cfg) (fun s' _ => Holding s [] s') s (offer cfg path candidate) := by
  refine Obeys.bind (obeys_op (e := .readable path) trivial) (fun s' readable hs' => ?_)
    fun s' x hs' => hs'.2.elim
  obtain ⟨rfl, -⟩ := hs'
  split
  · refine Obeys.bind (obeys_collect _ hpolls (by simp [hheld]))
      (fun s₁ first hs₁ => ?_) fun s₁ x hs₁ => hs₁.1
    obtain ⟨⟨hempty, hsame⟩, hshelved, -⟩ := hs₁
    rw [Obeys.bind_iff]
    refine Obeys.perform trivial fun r hr => ?_
    cases r with
    | error x => exact hr.elim
    | ok u =>
        -- What it forgets now it has added before.
        have hnext : (custody cfg).next s₁ (.forget path) (.ok u) = s₁ := if_pos hshelved
        rw [hnext]
        dsimp only
        split
        · refine (obeys_addHotFrames _ (hsame.trans hpolls)
            (List.subset_nil.1 hempty)).mono fun s₂ _ hs₂ => ?_
          exact ⟨hs₂.1, hs₂.2.trans hsame⟩
        · exact ⟨hempty, hsame⟩
  · exact (obeys_op (e := .postpone path candidate) trivial).mono fun s₁ _ hs₁ => by
      rw [hs₁.1]
      exact ⟨by simp [hheld], rfl⟩

theorem Holding.trans {s s₁ s₂ : Custody} {paths paths' : List String} (h : Holding s paths s₁)
    (h' : Holding s₁ paths' s₂) : Holding s paths' s₂ := ⟨h'.1, h'.2.trans h.2⟩

/-- An upload that is forgotten is in the hands of the call. -/
theorem obeys_forget {path : String} {p : WorkerProg Unit} (hheld : s.held = [])
    (hp : ∀ s₁, Holding s [path] s₁ → Obeys (custody cfg) (fun s' _ => Holding s [] s') s₁ p) :
    Obeys (custody cfg) (fun s' _ => Holding s [] s') s (op (.forget path) >>= fun _ => p) := by
  rw [Obeys.bind_iff]
  refine Obeys.perform trivial fun r hr => ?_
  cases r with
  | error x => exact hr.elim
  | ok u =>
      refine hp _ ?_
      simp only [custody, Custody.next]
      split
      · exact ⟨by simp [hheld], rfl⟩
      · exact ⟨by simp [hheld], rfl⟩

theorem obeys_reject_after {path : String} (reason : String) {s₁ : Custody}
    (h : Holding s [path] s₁) :
    Obeys (custody cfg) (fun s' _ => Holding s [] s') s₁ (reject cfg path reason) :=
  (obeys_reject reason h.1).mono fun _ _ hs₂ => h.trans hs₂

theorem obeys_inspect {path : String} {candidate : Candidate} (hpolls : s.polls = true)
    (hheld : s.held = []) :
    Obeys (custody cfg) (fun s' _ => Holding s [] s') s (inspect cfg path candidate) := by
  refine Obeys.bind (obeys_op (e := .exists_ path) trivial) (fun s' found hs' => ?_)
    fun s' x hs' => hs'.2.elim
  obtain ⟨rfl, -⟩ := hs'
  split
  · refine Obeys.bind (obeys_op (e := .tooLarge path) trivial) (fun s' large hs' => ?_)
      fun s' x hs' => hs'.2.elim
    obtain ⟨rfl, -⟩ := hs'
    split
    · exact obeys_forget hheld fun _ hs₁ => obeys_reject_after _ hs₁
    · exact obeys_offer hpolls hheld
  · exact obeys_forget hheld fun _ hs₁ => obeys_reject_after _ hs₁

theorem obeys_retryAll (now : ℚ) (paths : List String) (hpolls : s.polls = true)
    (hheld : s.held = []) :
    Obeys (custody cfg) (fun s' _ => Holding s [] s') s (retryAll cfg now paths) := by
  induction paths generalizing s with
  | nil => exact ⟨by simp [hheld], rfl⟩
  | cons path rest ih =>
      have hrest : ∀ s₁ : Custody, Holding s [] s₁ →
          Obeys (custody cfg) (fun s' _ => Holding s [] s') s₁ (retryAll cfg now rest) := by
        intro s₁ hs₁
        refine (ih (hs₁.2.trans hpolls) (List.subset_nil.1 hs₁.1)).mono fun s₂ _ hs₂ => ?_
        exact ⟨hs₂.1, hs₂.2.trans hs₁.2⟩
      refine Obeys.bind (obeys_op (e := .candidate path) trivial) (fun s' candidate hs' => ?_)
        fun s' x hs' => hs'.2.elim
      obtain ⟨rfl, -⟩ := hs'
      cases candidate with
      | none => exact hrest s' ⟨by simp [hheld], rfl⟩
      | some candidate =>
          dsimp only
          split
          · refine obeys_forget hheld fun s₁ hs₁ => ?_
            exact Obeys.bind (obeys_reject_after _ hs₁) (fun s₂ _ hs₂ => hrest s₂ hs₂)
              fun _ _ hs₂ => hs₂
          · exact Obeys.bind (obeys_inspect hpolls hheld) (fun s₁ _ hs₁ => hrest s₁ hs₁)
              fun _ _ hs₁ => hs₁

theorem obeys_enqueue {b : Burst} (hheld : s.held ⊆ b.paths) :
    Obeys (custody cfg) (fun s' _ => Holding s [] s') s (enqueue cfg b) := by
  rw [enqueue, Obeys.bind_iff]
  refine Obeys.perform trivial fun r hr => ?_
  have hput : s.held.filter (· ∉ b.paths) = [] := by
    rw [List.filter_eq_nil_iff]
    intro q hq
    simp [hheld hq]
  match r with
  | .error x => exact hr.elim
  | .ok none =>
      refine ⟨?_, rfl⟩
      show s.held.filter (· ∉ b.paths) ++ [] ⊆ []
      rw [hput]
      exact List.Subset.refl _
  | .ok (some dropped) =>
      refine (obeys_finally_remove ?_ ?_).mono fun s' _ hs' => hs'
      · exact Prog.Only.bind (Prog.Only.perform_iff.2 trivial) fun _ =>
          Prog.Only.bind (only_untouching_lift _) fun _ => trivial
      · show s.held.filter (· ∉ b.paths) ++ dropped.paths ⊆ dropped.paths
        rw [hput]
        exact List.Subset.refl _

theorem obeys_flushDue (hpolls : s.polls = true) (hheld : s.held = []) :
    Obeys (custody cfg) (fun s' _ => Holding s [] s') s (flushDue cfg) := by
  rw [flushDue, Obeys.bind_iff]
  refine Obeys.perform hpolls fun r hr => ?_
  match r with
  | .error x => exact hr.elim
  | .ok none => exact ⟨by simp [custody, Custody.next, hheld], rfl⟩
  | .ok (some (c, now, wall)) =>
      refine Obeys.bind (obeys_op (e := .rank c.pending) trivial) (fun s' best hs' => ?_)
        fun s' x hs' => hs'.2.elim
      obtain ⟨rfl, -⟩ := hs'
      dsimp only
      generalize BurstCollector.order cfg.collector c.pending best = ranked
      refine Obeys.bind (@obeys_removeUploads_custody _ _ _ ranked ?_) (fun s₁ _ hs₁ => ?_)
        fun s₁ x hs₁ => by cases hs₁.2.2
      · -- What is pending is ranked or removed.
        show s.held ++ c.pending ⊆ _
        intro q hq
        rw [hheld, List.nil_append] at hq
        by_cases hranked : q ∈ ranked
        · exact List.mem_append_right _ hranked
        · exact List.mem_append_left _ (List.mem_filter.2 ⟨hq, decide_eq_true hranked⟩)
      · split
        next hnil => exact ⟨by simpa [hnil] using hs₁.1.1, hs₁.1.2⟩
        next => exact (obeys_enqueue hs₁.1.1).mono fun s₂ _ hs₂ => Holding.trans hs₁.1 hs₂

theorem obeys_poll (hpolls : s.polls = true) (hheld : s.held = []) :
    Obeys (custody cfg) (fun s' _ => Holding s [] s') s (poll cfg) := by
  have hretry : Obeys (custody cfg) (fun s' _ => Holding s [] s') s (retryPending cfg) := by
    refine Obeys.bind (obeys_op (e := .clock) trivial) (fun s' now hs' => ?_)
      fun s' x hs' => hs'.2.elim
    obtain ⟨rfl, -⟩ := hs'
    refine Obeys.bind (obeys_op (e := .due now) trivial) (fun s' due hs' => ?_)
      fun s' x hs' => hs'.2.elim
    obtain ⟨rfl, -⟩ := hs'
    exact obeys_retryAll now due hpolls hheld
  refine Obeys.bind hretry (fun s₁ _ hs₁ => ?_) fun s₁ x hs₁ => hs₁
  exact (obeys_flushDue (hs₁.2.trans hpolls) (List.subset_nil.1 hs₁.1)).mono fun s₂ _ hs₂ =>
    hs₁.trans hs₂

theorem only_untouching_emit (owner : CallId) (b : Burst) :
    (emit owner cfg b).Only Untouching := by
  refine Prog.Only.bind (Prog.Only.perform_iff.2 trivial) fun _ => ?_
  refine Prog.Only.bind (Prog.Only.attempt (only_untouching_lift _)) fun r => ?_
  cases r with
  | ok result => trivial
  | error x =>
      dsimp only
      split
      · exact Prog.Only.bind (Prog.Only.perform_iff.2 trivial) fun _ => only_untouching_lift _
      · trivial

theorem obeys_consume (owner : CallId) (hheld : s.held = []) :
    Obeys (custody cfg) (fun s' _ => Holding s [] s') s (consume owner cfg) := by
  rw [consume, Obeys.bind_iff]
  refine Obeys.perform trivial fun r hr => ?_
  cases r with
  | error x => exact hr.elim
  | ok b =>
      refine (obeys_finally_remove (only_untouching_emit owner b) ?_).mono fun s' _ hs' => hs'
      show s.held ++ b.paths ⊆ b.paths
      rw [hheld]
      exact List.Subset.refl _

/-- Every call begins and ends with empty hands. -/
theorem program_custody (c : CallId) (call : WorkerCall cfg) :
    Obeys (custody cfg) (fun s' _ => s'.held = []) ((custody cfg).start call) (program c call) := by
  have hempty : ∀ {s s' : Custody}, Holding s [] s' → s'.held = [] := fun h =>
    List.subset_nil.1 h.1
  cases call with
  | upload path content => rfl
  | notify n => exact (obeys_scheduleCandidate _ _ rfl).mono fun _ _ h => hempty h
  | poll => exact (obeys_poll rfl rfl).mono fun _ _ h => hempty h
  | consume => exact (obeys_consume c rfl).mono fun _ _ h => hempty h

end Worker

end GateController

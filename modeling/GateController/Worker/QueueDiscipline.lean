import GateController.Worker.Queue

/-!
# The methods of the burst queue keep to the protocol

Each method obeys the protocol of `GateController.Worker.Queue`.  The invariant
says what the inner queue looks like from inside the lock, where a consumer may
have taken items at any time but nobody else has put one.
-/

namespace GateController

open Effects

variable {α β : Type} {q : BoundedBurstQueue}

/-! ## The methods keep to the protocol -/

namespace BoundedBurstQueue

/-- The rule of `with self._lock`. -/
theorem obeys_withLock {call : QueueCall α} {body : QueueProg α β}
    {Q : QueueWatch α → Except QueueExc β → Prop} (hcall : call ≠ .get)
    (h : Obeys (queueWatch q)
      (fun w r => w.inside = true ∧ ¬ w.Busy ∧ Q { w with inside := false } r)
      ⟨call, true, .entered, []⟩ body) :
    Obeys (queueWatch q) Q (.start call) (withLock body) := by
  unfold withLock op
  rw [Obeys.bind_iff]
  refine Obeys.perform ⟨rfl, hcall⟩ fun r hr => ?_
  cases r with
  | error x => exact hr.elim
  | ok u =>
      dsimp only
      unfold Prog.finally_
      rw [Obeys.bind_iff, Obeys.attempt_iff]
      refine Obeys.mono h fun w r hw => ?_
      dsimp only
      rw [Obeys.bind_iff]
      refine Obeys.perform ⟨hw.1, hw.2.1⟩ fun u hu => ?_
      cases u with
      | error x => exact hu.elim
      | ok u => exact Obeys.ofExcept_iff.2 hw.2.2

/-- `get_nowait` under the lock: an item, or the queue was found empty. -/
theorem obeys_takeNowait {w : QueueWatch α} {Q : QueueWatch α → Except QueueExc (Except Unit (Option α)) → Prop}
    (hallow : w.allow .getNowait)
    (hitem : ∀ item : α, (w.stage = .draining → w.took.length < q.maxsize) →
      Q (w.take (some item)) (.ok (.ok (some item))))
    (hempty : Q (w.next .getNowait (.error .empty)) (.ok (.error ()))) :
    Obeys (queueWatch q) Q w takeNowait := by
  unfold takeNowait op
  rw [Obeys.bind_iff, Obeys.attempt_iff]
  refine Obeys.perform hallow fun r hr => ?_
  cases r with
  | error x =>
      cases (show x = .empty from hr)
      exact hempty
  | ok item =>
      obtain ⟨y, rfl⟩ := Option.isSome_iff_exists.1 hr.1
      exact hitem y hr.2

theorem obeys_evict (item : α) :
    Obeys (queueWatch q)
      (fun w r => ∃ dropped : Option α,
        w = ⟨.put item, true, .room, dropped.toList.map some⟩ ∧ r = .ok dropped)
      ⟨.put item, true, .passed, []⟩ evict := by
  unfold evict op
  rw [Obeys.bind_iff]
  refine Obeys.perform ⟨rfl, item, rfl⟩ fun r hr => ?_
  cases r with
  | error x => exact hr.elim
  | ok full =>
      cases full with
      | false => exact ⟨none, rfl, rfl⟩
      | true =>
          dsimp only
          rw [if_pos rfl, Obeys.bind_iff]
          exact obeys_takeNowait (.inl ⟨rfl, item, rfl⟩) (fun y _ => ⟨some y, rfl, rfl⟩)
            ⟨none, rfl, rfl⟩

theorem obeys_put (item : α) :
    Obeys (queueWatch q) (fun w r => w.call = .put item ∧ w.inside = false ∧
      (w.stage = .refused ∧ w.took = [] ∧ r = .ok (some item) ∨
        w.stage = .done ∧ ∃ dropped : Option α,
          w.took = dropped.toList.map some ∧ r = .ok dropped))
      (.start (.put item)) (put item) := by
  unfold put
  refine obeys_withLock (by simp) ?_
  unfold op
  rw [Obeys.bind_iff]
  refine Obeys.perform rfl fun r hr => ?_
  cases r with
  | error x => exact hr.elim
  | ok flag =>
      cases flag with
      | true =>
          refine ⟨rfl, ?_, rfl, rfl, .inl ⟨rfl, rfl, rfl⟩⟩
          simp [QueueWatch.Busy, queueWatch, QueueWatch.next, QueueWatch.afterFlag]
      | false =>
          dsimp only
          rw [if_neg (by simp), Obeys.bind_iff]
          refine Obeys.mono (obeys_evict item) ?_
          rintro _ _ ⟨dropped, rfl, rfl⟩
          dsimp only
          rw [Obeys.bind_iff]
          refine Obeys.perform (.inl ⟨rfl, item, rfl, rfl⟩) fun r hr => ?_
          cases r with
          | error x => exact hr.elim
          | ok u =>
              refine ⟨rfl, ?_, rfl, rfl, .inr ⟨rfl, dropped, rfl, rfl⟩⟩
              simp [QueueWatch.Busy, queueWatch, QueueWatch.next]

/-- The drain has one pass more than the queue can hold, so its passes suffice. -/
theorem obeys_drain (passes : Nat) (dropped : List (Option α))
    (hpasses : passes + dropped.length = q.maxsize + 1) (hlen : dropped.length ≤ q.maxsize) :
    Obeys (queueWatch q)
      (fun w r => ∃ all : List (Option α), w = ⟨.stop, true, .drained, all⟩ ∧ r = .ok all)
      ⟨.stop, true, .draining, dropped⟩ (drain passes dropped) := by
  induction passes generalizing dropped with
  | zero => omega
  | succ passes ih =>
      unfold drain
      rw [Obeys.bind_iff]
      refine obeys_takeNowait (.inr ⟨rfl, rfl⟩) (fun item hroom => ?_) ⟨dropped, rfl, rfl⟩
      have hlt : dropped.length < q.maxsize := hroom rfl
      refine ih (dropped ++ [some item]) ?_ ?_
      · simp only [List.length_append, List.length_singleton]
        omega
      · simp only [List.length_append, List.length_singleton]
        omega

theorem obeys_stop :
    Obeys (queueWatch q) (fun w r => w.call = (.stop : QueueCall α) ∧ w.inside = false ∧
      (w.stage = .refused ∧ w.took = [] ∧ r = .ok [] ∨ w.stage = .done ∧ r = .ok w.took))
      (.start .stop) q.stop := by
  unfold stop
  refine obeys_withLock (by simp) ?_
  unfold op
  rw [Obeys.bind_iff]
  refine Obeys.perform rfl fun r hr => ?_
  cases r with
  | error x => exact hr.elim
  | ok flag =>
      cases flag with
      | true =>
          refine ⟨rfl, ?_, rfl, rfl, .inl ⟨rfl, rfl, rfl⟩⟩
          simp [QueueWatch.Busy, queueWatch, QueueWatch.next, QueueWatch.afterFlag]
      | false =>
          dsimp only
          rw [if_neg (by simp), Obeys.bind_iff]
          refine Obeys.perform ⟨rfl, rfl⟩ fun r hr => ?_
          cases r with
          | error x => exact hr.elim
          | ok u =>
              dsimp only
              rw [Obeys.bind_iff]
              refine Obeys.mono (obeys_drain (q.maxsize + 1) [] rfl (Nat.zero_le _)) ?_
              rintro _ _ ⟨all, rfl, rfl⟩
              dsimp only
              rw [Obeys.bind_iff]
              refine Obeys.perform (.inr ⟨rfl, rfl, rfl⟩) fun r hr => ?_
              cases r with
              | error x => exact hr.elim
              | ok u =>
                  refine ⟨rfl, ?_, rfl, rfl, .inr ⟨rfl, rfl⟩⟩
                  simp [QueueWatch.Busy, queueWatch, QueueWatch.next]

/-- Each method keeps to the protocol and returns what it took out or refused. -/
theorem obeys_program (call : QueueCall α) :
    Obeys (queueWatch q) QueueWatch.Returns (.start call) (q.program call) := by
  cases call with
  | put item =>
      unfold program
      refine Obeys.bind (obeys_put item) (fun w dropped hw => ?_) (fun w x hw => ?_)
      · obtain ⟨hcall, hinside, hrefused | ⟨hstage, d, htook, hd⟩⟩ := hw
        · obtain ⟨hstage, htook, hd⟩ := hrefused
          cases hd
          exact ⟨hinside, by rw [hcall]; exact .inl ⟨hstage, htook, rfl⟩⟩
        · cases hd
          exact ⟨hinside, by rw [hcall]; exact .inr ⟨hstage, dropped, htook, rfl⟩⟩
      · obtain ⟨-, -, ⟨-, -, hx⟩ | ⟨-, d, -, hx⟩⟩ := hw
        · cases hx
        · cases hx
  | get =>
      unfold program get op
      rw [Obeys.bind_iff]
      refine Obeys.perform ⟨rfl, rfl⟩ fun r hr => ?_
      cases r with
      | error x => exact hr.elim
      | ok item => exact ⟨rfl, rfl, item, rfl, rfl⟩
  | stop =>
      unfold program
      refine Obeys.bind obeys_stop (fun w dropped hw => ?_) (fun w x hw => ?_)
      · obtain ⟨hcall, hinside, hrefused | ⟨hstage, hd⟩⟩ := hw
        · obtain ⟨hstage, htook, hd⟩ := hrefused
          cases hd
          exact ⟨hinside, by rw [hcall]; exact .inl ⟨hstage, htook, rfl⟩⟩
        · cases hd
          exact ⟨hinside, by rw [hcall]; exact .inr ⟨hstage, rfl⟩⟩
      · obtain ⟨-, -, ⟨-, -, hx⟩ | ⟨-, hx⟩⟩ := hw
        · cases hx
        · cases hx

end BoundedBurstQueue

/-! ## What holds inside the lock -/

/-- What the state says to a call, by how far the call has come. -/
structure QueueWatch.Fits (q : BoundedBurstQueue) (s : QueueState α) (c : CallId)
    (w : QueueWatch α) : Prop where
  fresh : w.stage = .called ∨ w.stage = .entered ∨ w.stage = .passed → w.took = []
  busy : w.Busy → w.inside = true
  refused : w.stage = .refused → s.stopping = true
  holder : w.inside = true → s.holder = some c
  unset : w.stage = .passed ∨ w.stage = .crowded ∨ w.stage = .room → s.stopping = false
  room : w.stage = .room → s.items.length < q.maxsize
  raised : w.call = .stop → w.stage = .draining ∨ w.stage = .drained ∨ w.stage = .done →
    s.stopping = true
  draining : w.stage = .draining → w.call = .stop ∧ (∀ item ∈ s.items, item.isSome) ∧
    w.took.length + s.items.length ≤ q.maxsize
  drained : w.stage = .drained → w.call = .stop ∧ s.items = []

/-- The state of the queue agrees with all calls. -/
structure QueueInv (q : BoundedBurstQueue) (s : QueueState α) (log : List (QueueEvent α)) :
    Prop where
  each : Ever (fun _ => queueWatch q) (fun c w => w.Fits q s c) log
  bounded : s.items.length ≤ q.maxsize
  plain : s.stopping = false → ∀ item ∈ s.items, item.isSome

namespace QueueWatch.Fits

variable {s s' : QueueState α} {c d : CallId} {w : QueueWatch α}

theorem start (call : QueueCall α) : (QueueWatch.start call).Fits q s c where
  fresh _ := rfl
  busy h := by simp [QueueWatch.Busy, QueueWatch.start] at h
  refused h := by simp [QueueWatch.start] at h
  holder h := by simp [QueueWatch.start] at h
  unset h := by simp [QueueWatch.start] at h
  room h := by simp [QueueWatch.start] at h
  raised _ h := by simp [QueueWatch.start] at h
  draining h := by simp [QueueWatch.start] at h
  drained h := by simp [QueueWatch.start] at h

/-- The consumer takes an item while another call may be inside the lock. -/
theorem shrink {item : Option α} {rest : List (Option α)} (h : w.Fits q s c)
    (hitems : s.items = item :: rest) : w.Fits q { s with items := rest } c where
  fresh := h.fresh
  busy := h.busy
  refused := h.refused
  holder := h.holder
  unset := h.unset
  room hw := by
    have := h.room hw
    rw [hitems, List.length_cons] at this
    exact Nat.lt_of_succ_lt this
  raised := h.raised
  draining hw := by
    obtain ⟨hcall, hsome, hlen⟩ := h.draining hw
    rw [hitems, List.length_cons] at hlen
    refine ⟨hcall, fun x hx => hsome x (by rw [hitems]; exact List.mem_cons_of_mem _ hx), ?_⟩
    dsimp only
    omega
  drained hw := by
    have := (h.drained hw).2
    rw [hitems] at this
    cases this

/-- A call outside the lock is not touched by what happens inside it. -/
theorem outside (h : w.Fits q s c) (hout : w.inside = false)
    (hstop : s.stopping = true → s'.stopping = true) : w.Fits q s' c := by
  have hidle : ¬ w.Busy := fun hb => by
    have := h.busy hb
    rw [hout] at this
    cases this
  simp only [QueueWatch.Busy, not_or] at hidle
  obtain ⟨-, hpassed, hcrowded, hroom, hdraining, hdrained⟩ := hidle
  exact {
    fresh := h.fresh
    busy := h.busy
    refused := fun hw => hstop (h.refused hw)
    holder := fun hw => by rw [hout] at hw; cases hw
    unset := fun hw => by
      rcases hw with hw | hw | hw
      · exact absurd hw hpassed
      · exact absurd hw hcrowded
      · exact absurd hw hroom
    room := fun hw => absurd hw hroom
    raised := fun hcall hw => hstop (h.raised hcall hw)
    draining := fun hw => absurd hw hdraining
    drained := fun hw => absurd hw hdrained }

end QueueWatch.Fits

section Step

variable {s s' : QueueState α} {c d : CallId} {w v : QueueWatch α} {e : QueueEff α}
  {r : Except QueueExc e.Ans}

/-- Every operation but the entry and the consumer's is made inside the lock. -/
theorem QueueWatch.inside_of_allow (h : w.Fits q s c) (hallow : w.allow e) (hacquire : e ≠ .acquire)
    (hget : e ≠ .get) : w.inside = true := by
  cases e with
  | acquire => exact absurd rfl hacquire
  | get => exact absurd rfl hget
  | release => exact hallow.1
  | stopping => exact h.busy (.inl hallow)
  | setStopping => exact h.busy (.inr (.inl hallow.1))
  | full => exact h.busy (.inr (.inl hallow.1))
  | getNowait =>
      rcases hallow with ⟨hstage, -⟩ | ⟨hstage, -⟩
      · exact h.busy (.inr (.inr (.inl hstage)))
      · exact h.busy (.inr (.inr (.inr (.inr (.inl hstage)))))
  | putNowait item =>
      rcases hallow with ⟨hstage, -⟩ | ⟨hstage, -⟩
      · exact h.busy (.inr (.inr (.inr (.inl hstage))))
      · exact h.busy (.inr (.inr (.inr (.inr (.inr hstage)))))

/-- The flag is only raised. -/
theorem BoundedBurstQueue.exec_stopping (hexec : q.exec c s e = some (r, s'))
    (h : s.stopping = true) : s'.stopping = true := by
  cases e with
  | acquire =>
      simp only [exec] at hexec
      split at hexec
      · cases hexec
        exact h
      · cases hexec
  | release => cases hexec; exact h
  | stopping => cases hexec; exact h
  | setStopping => cases hexec; rfl
  | full => cases hexec; exact h
  | getNowait =>
      simp only [exec] at hexec
      split at hexec
      · cases hexec
        exact h
      · cases hexec
        exact h
  | putNowait item =>
      simp only [exec] at hexec
      split at hexec
      · cases hexec
        exact h
      · cases hexec
        exact h
  | get =>
      simp only [exec] at hexec
      split at hexec
      · cases hexec
      · cases hexec
        exact h

/-- A step of one call leaves the others as they were: they are outside the lock, or the
step is the consumer's. -/
theorem QueueWatch.Fits.other (hd : d ≠ c) (h : w.Fits q s c) (hv : v.Fits q s d)
    (hallow : w.allow e) (hexec : q.exec c s e = some (r, s')) : v.Fits q s' d := by
  have hstop := fun hs => BoundedBurstQueue.exec_stopping hexec hs
  by_cases hget : e = .get
  · subst hget
    simp only [BoundedBurstQueue.exec] at hexec
    split at hexec
    · cases hexec
    · next item rest hitems =>
      cases hexec
      exact hv.shrink hitems
  · refine hv.outside (Bool.eq_false_iff.2 fun hinside => ?_) hstop
    have hholder : s.holder = some d := hv.holder hinside
    by_cases hacquire : e = .acquire
    · subst hacquire
      simp only [BoundedBurstQueue.exec, hholder, reduceCtorEq, if_false] at hexec
    · have := h.holder (inside_of_allow h hallow hacquire hget)
      rw [hholder] at this
      exact hd (Option.some.inj this)

/-- A step of a call, seen from that call. -/
theorem QueueWatch.Fits.own (h : w.Fits q s c) (hbounded : s.items.length ≤ q.maxsize)
    (hplain : s.stopping = false → ∀ item ∈ s.items, item.isSome) (hallow : w.allow e)
    (hexec : q.exec c s e = some (r, s')) :
    w.expect q e r ∧ (w.next e r).Fits q s' c ∧ s'.items.length ≤ q.maxsize ∧
      (s'.stopping = false → ∀ item ∈ s'.items, item.isSome) := by
  cases e with
  | acquire =>
      simp only [BoundedBurstQueue.exec] at hexec
      split at hexec
      · cases hexec
        refine ⟨trivial, ?_, hbounded, hplain⟩
        have htook := h.fresh (.inl hallow.1)
        constructor <;> simp [QueueWatch.next, QueueWatch.Busy, htook]
      · cases hexec
  | release =>
      cases hexec
      refine ⟨trivial, ?_, hbounded, hplain⟩
      have hidle := hallow.2
      simp only [QueueWatch.Busy, not_or] at hidle
      constructor <;> simp [QueueWatch.next, QueueWatch.Busy, hidle]
      · exact fun hstage => h.fresh (.inl hstage)
      · exact h.refused
      · exact fun hcall hstage => h.raised hcall (.inr (.inr hstage))
  | stopping =>
      cases hexec
      refine ⟨trivial, ?_, hbounded, hplain⟩
      have htook := h.fresh (.inr (.inl hallow))
      have hinside := h.busy (.inl hallow)
      have hholder := h.holder hinside
      cases hs : s.stopping with
      | true =>
          constructor <;>
            simp [QueueWatch.next, QueueWatch.Busy, QueueWatch.afterFlag, hinside, hholder, hs]
      | false =>
          constructor <;>
            simp [QueueWatch.next, QueueWatch.Busy, QueueWatch.afterFlag, hinside, hholder, hs,
              htook]
  | setStopping =>
      cases hexec
      refine ⟨trivial, ?_, hbounded, nofun⟩
      have htook := h.fresh (.inr (.inr hallow.1))
      have hinside := h.busy (.inr (.inl hallow.1))
      have hholder := h.holder hinside
      have hsome := hplain (h.unset (.inl hallow.1))
      constructor <;>
        simp [QueueWatch.next, QueueWatch.Busy, hinside, hholder, htook, hallow.2, hbounded]
      exact hsome
  | full =>
      cases hexec
      refine ⟨trivial, ?_, hbounded, hplain⟩
      have hinside := h.busy (.inr (.inl hallow.1))
      have hholder := h.holder hinside
      have hunset := h.unset (.inl hallow.1)
      by_cases hfull : q.maxsize ≤ s.items.length
      · constructor <;>
          simp [QueueWatch.next, QueueWatch.Busy, QueueWatch.afterFull, hfull, hinside, hholder,
            hunset]
      · constructor <;>
          simp [QueueWatch.next, QueueWatch.Busy, QueueWatch.afterFull, hfull, hinside, hholder,
            hunset]
        exact Nat.lt_of_not_le hfull
  | getNowait =>
      have hinside : w.inside = true := inside_of_allow h hallow nofun nofun
      have hholder := h.holder hinside
      simp only [BoundedBurstQueue.exec] at hexec
      split at hexec
      · next hitems =>
        cases hexec
        refine ⟨rfl, ?_, hbounded, hplain⟩
        rcases hallow with ⟨hstage, hput⟩ | ⟨hstage, hstop⟩
        · have hunset := h.unset (.inr (.inl hstage))
          constructor <;>
            simp [QueueWatch.next, QueueWatch.Busy, hstage, hinside, hholder, hunset, hitems,
              q.positive]
        · have hraised := h.raised hstop (.inl hstage)
          constructor <;>
            simp [QueueWatch.next, QueueWatch.Busy, hstage, hinside, hholder, hitems, hstop,
              hraised]
      · next item rest hitems =>
        cases hexec
        rw [hitems, List.length_cons] at hbounded
        have hrest : s.stopping = false → ∀ x ∈ rest, x.isSome := fun hs x hx =>
          hplain hs x (by rw [hitems]; exact List.mem_cons_of_mem _ hx)
        refine ⟨?_, ?_, Nat.le_of_succ_le hbounded, hrest⟩
        · rcases hallow with ⟨hstage, -⟩ | ⟨hstage, -⟩
          · have hunset := h.unset (.inr (.inl hstage))
            refine ⟨hplain hunset item (by rw [hitems]; exact List.mem_cons_self), fun hd => ?_⟩
            rw [hstage] at hd
            cases hd
          · obtain ⟨-, hsome, hlen⟩ := h.draining hstage
            rw [hitems, List.length_cons] at hlen
            exact ⟨hsome item (by rw [hitems]; exact List.mem_cons_self), fun _ => by omega⟩
        · rcases hallow with ⟨hstage, hput⟩ | ⟨hstage, hstop⟩
          · have hunset := h.unset (.inr (.inl hstage))
            constructor <;>
              simp [QueueWatch.next, QueueWatch.take, QueueWatch.Busy, hstage, hinside, hholder,
                hunset]
            exact hbounded
          · have hraised := h.raised hstop (.inl hstage)
            obtain ⟨-, hsome, hlen⟩ := h.draining hstage
            rw [hitems, List.length_cons] at hlen
            constructor <;>
              simp [QueueWatch.next, QueueWatch.take, QueueWatch.Busy, hstage, hinside, hholder,
                hstop, hraised]
            refine ⟨fun x hx => hsome x (by rw [hitems]; exact List.mem_cons_of_mem _ hx), ?_⟩
            omega
  | putNowait item =>
      have hinside : w.inside = true := inside_of_allow h hallow nofun nofun
      have hholder := h.holder hinside
      have hroom : s.items.length < q.maxsize := by
        rcases hallow with ⟨hstage, -⟩ | ⟨hstage, -⟩
        · exact h.room hstage
        · rw [(h.drained hstage).2]
          exact q.positive
      simp only [BoundedBurstQueue.exec, if_neg (Nat.not_le_of_lt hroom)] at hexec
      cases hexec
      refine ⟨trivial, ?_, ?_, fun hs x hx => ?_⟩
      · constructor <;> simp [QueueWatch.next, QueueWatch.Busy, hinside, hholder]
        intro hcall
        rcases hallow with ⟨-, y, hy, -⟩ | ⟨hstage, -⟩
        · rw [hy] at hcall
          cases hcall
        · exact h.raised hcall (.inr (.inl hstage))
      · rw [List.length_append]
        exact hroom
      · rcases hallow with ⟨hstage, y, -, rfl⟩ | ⟨hstage, hcall, -⟩
        · rcases List.mem_append.1 hx with hx | hx
          · exact hplain hs x hx
          · rw [List.mem_singleton.1 hx]
            rfl
        · rw [show s.stopping = true from h.raised hcall (.inr (.inl hstage))] at hs
          cases hs
  | get =>
      simp only [BoundedBurstQueue.exec] at hexec
      split at hexec
      · cases hexec
      · next item rest hitems =>
        cases hexec
        rw [hitems, List.length_cons] at hbounded
        refine ⟨trivial, ?_, Nat.le_of_succ_le hbounded, fun hs x hx => ?_⟩
        · constructor <;>
            simp [QueueWatch.next, QueueWatch.receive, QueueWatch.Busy, hallow.2]
          exact h.holder
        · exact hplain hs x (by rw [hitems]; exact List.mem_cons_of_mem _ hx)

end Step

/-- The queue agrees with all calls in every run. -/
theorem queue_invariant (q : BoundedBurstQueue) :
    Invariant (q.machine (α := α)) (fun _ => queueWatch q) (fun _ => QueueWatch.Returns)
      (fun _ _ => True) (QueueInv q) where
  obeys _ _ call _ _ _ _ := q.obeys_program call
  began w c call s' _ hI _ _ haccept := by
    cases haccept
    exact ⟨hI.each.began (.start call) fun _ _ _ _ h => h, hI.bounded, hI.plain⟩
  did w c env e k s r s' _ hI _ _ _ hghost hallow hexec := by
    have hfits := hI.each c s hghost
    obtain ⟨hexpect, hown, hbounded, hplain⟩ := hfits.own hI.bounded hI.plain hallow hexec
    exact ⟨hexpect, hI.each.did hghost hown fun d v hd _ hv => hfits.other hd hv hallow hexec,
      hbounded, hplain⟩
  ended w c s r _ hI _ _ _ := ⟨hI.each, hI.bounded, hI.plain⟩
  crashed w p env _ hI _ := ⟨hI.each, hI.bounded, hI.plain⟩

end GateController

import GateController.Worker.Custody

/-!
# No orphaned upload

The invariant of the worker's files.  An upload that was entered, into the
dictionary or as a hot frame, and was not removed since is in the dictionary, in
the collector, in the queue or in the hands of a call under way.

One operation moves an upload from one of these to another.  What it takes for
that of the other calls is only that the collector still has what the main
thread has just put there.
-/

namespace GateController

open Data Effects Proc GateProcessor

variable {cfg : WorkerConfig}

namespace Worker

/-! ## The structures and their bounds -/

/-- The dictionary and the collector keep to their limits and hold no path twice. -/
structure Bounded (s : WorkerState cfg) : Prop where
  table : s.retryAt.length ≤ cfg.maxPendingCandidates
  tableOnce : (s.retryAt.map Prod.fst).Nodup
  pending : s.collector.pending.length ≤ cfg.collector.maxCandidates
  pendingOnce : s.collector.pending.Nodup

/-- A path is in one of the structures that the threads share. -/
def Shelved (s : WorkerState cfg) (path : String) : Prop :=
  path ∈ s.retryAt.map Prod.fst ∨ path ∈ s.collector.pending ∨ ∃ b ∈ s.queue, path ∈ b.paths

end Worker

namespace RetryAt

variable {limit : Nat} {now : ℚ} {observedAt : DateTime} {path : String} {d : RetryAt}

theorem keys_pop : (d.pop path).map Prod.fst = (d.map Prod.fst).filter (· ≠ path) := by
  rw [pop, List.filter_map]
  rfl

theorem keys_put {candidate : Candidate} : (d.put path candidate).map Prod.fst = d.map Prod.fst := by
  rw [put, List.map_map]
  refine List.map_congr_left fun e _ => ?_
  simp only [Function.comp_apply]
  split
  next h => exact h.symm
  next => rfl

/-- What is scheduled goes to the end, and what comes first is given up. -/
theorem keys_schedule : (schedule limit now observedAt path d).1 ++
    (schedule limit now observedAt path d).2.map Prod.fst = (d.pop path).map Prod.fst ++ [path] := by
  simp only [schedule, pop]
  rw [← List.map_append, List.take_append_drop, List.map_append]
  rfl

theorem length_schedule : (schedule limit now observedAt path d).2.length ≤ limit := by
  simp only [schedule, List.length_drop]
  omega

/-- A dictionary within its limit gives up one entry at most. -/
theorem length_dropped (h : d.length ≤ limit) :
    (schedule limit now observedAt path d).1.length ≤ 1 := by
  have hfilter : (d.filter fun e => e.1 ≠ path).length ≤ d.length := List.length_filter_le _ _
  simp only [schedule, List.length_map, List.length_take, List.length_append, List.length_cons,
    List.length_nil]
  omega

theorem nodup_schedule (h : (d.map Prod.fst).Nodup) :
    ((schedule limit now observedAt path d).2.map Prod.fst).Nodup := by
  have hall : ((d.pop path).map Prod.fst ++ [path]).Nodup := by
    rw [keys_pop, List.nodup_append]
    refine ⟨h.filter _, List.nodup_singleton _, fun a ha b hb => ?_⟩
    rw [List.mem_singleton.1 hb]
    exact of_decide_eq_true (List.mem_filter.1 ha).2
  have hkeys : (schedule limit now observedAt path d).1 ++
      (schedule limit now observedAt path d).2.map Prod.fst = _ := keys_schedule
  rw [← hkeys] at hall
  exact (List.nodup_append.1 hall).2.1

end RetryAt

namespace BurstCollector

variable {w : CollectorConfig} {c : BurstCollector} {a : Arrival}

/-- What an addition makes of the pending paths. -/
theorem pending_add : (c.add w a).collector.pending =
      (if w.maxCandidates < (c.pending.erase a.path ++ [a.path]).length then
        (c.pending.erase a.path ++ [a.path]).tail else c.pending.erase a.path ++ [a.path]) ∧
    (c.add w a).dropped =
      (if w.maxCandidates < (c.pending.erase a.path ++ [a.path]).length then
        (c.pending.erase a.path ++ [a.path]).head? else none) := by
  simp only [add, Gathering.observe_pending]
  exact ⟨trivial, trivial⟩

/-- The path is pending, and what was pending is so still or is given up. -/
theorem mem_pending_add {path : String} (h : path = a.path ∨ path ∈ c.pending) :
    path ∈ (c.add w a).collector.pending ∨ (c.add w a).dropped = some path := by
  obtain ⟨hpending, hdropped⟩ := pending_add (w := w) (c := c) (a := a)
  have hmem : path ∈ c.pending.erase a.path ++ [a.path] := by
    by_cases heq : path = a.path
    · exact List.mem_append_right _ (List.mem_singleton.2 heq)
    · exact List.mem_append_left _ ((List.mem_erase_of_ne heq).2 (h.resolve_left heq))
  rw [hpending, hdropped]
  split
  · obtain ⟨first, rest, hcons⟩ := List.exists_cons_of_ne_nil (List.ne_nil_of_mem hmem)
    rw [hcons] at hmem ⊢
    rcases List.mem_cons.1 hmem with rfl | hrest
    · exact .inr rfl
    · exact .inl hrest
  · exact .inl hmem

theorem added_pending : a.path ∈ (c.add w a).collector.pending := by
  rw [pending_add.1]
  split
  next hlt =>
    have hne : c.pending.erase a.path ≠ [] := by
      intro hnil
      rw [hnil, List.nil_append, List.length_singleton] at hlt
      have := w.inRange.1
      omega
    obtain ⟨first, rest, hcons⟩ := List.exists_cons_of_ne_nil hne
    rw [hcons]
    simp
  next => simp

theorem length_pending_add (h : c.pending.length ≤ w.maxCandidates) :
    (c.add w a).collector.pending.length ≤ w.maxCandidates := by
  rw [pending_add.1]
  have herase : (c.pending.erase a.path).length ≤ c.pending.length :=
    List.erase_sublist.length_le
  split
  · simp only [List.length_tail, List.length_append, List.length_singleton]
    omega
  next hle => omega

theorem nodup_pending_add (h : c.pending.Nodup) : (c.add w a).collector.pending.Nodup := by
  have hall : (c.pending.erase a.path ++ [a.path]).Nodup := by
    rw [List.nodup_append]
    refine ⟨h.erase _, List.nodup_singleton _, fun x hx y hy heq => ?_⟩
    rw [List.mem_singleton.1 hy] at heq
    subst heq
    exact h.not_mem_erase hx
  rw [pending_add.1]
  split
  · exact hall.sublist (List.tail_sublist _)
  · exact hall

end BurstCollector

namespace Worker

section Step

variable {c : CallId} {env : WorkerEnv} {s s' : WorkerState cfg} {e : WorkerEff}
  {r : Except Exc e.Ans} {h : Custody}

/-- An operation keeps the bounds, and answers as it should. -/
theorem Bounded.exec (hs : Bounded s) (hexec : Worker.exec c env s e = some (r, s')) :
    Bounded s' ∧ Custody.expect e r := by
  cases e with
  | gate e =>
      rcases exec_gate hexec with rfl | ⟨gate, -, rfl⟩ <;> exact ⟨{ hs with }, trivial⟩
  | schedule path =>
      cases hexec
      exact ⟨{ hs with
        table := RetryAt.length_schedule
        tableOnce := RetryAt.nodup_schedule hs.tableOnce }, RetryAt.length_dropped hs.table⟩
  | forget path =>
      cases hexec
      refine ⟨{ hs with table := ?_, tableOnce := ?_ }, trivial⟩
      · exact (List.length_filter_le _ _).trans hs.table
      · show ((s.retryAt.pop path).map Prod.fst).Nodup
        rw [RetryAt.keys_pop]
        exact hs.tableOnce.filter _
  | postpone path candidate =>
      cases hexec
      refine ⟨{ hs with table := ?_, tableOnce := ?_ }, trivial⟩
      · exact (List.length_map _).trans_le hs.table
      · show ((s.retryAt.put path _).map Prod.fst).Nodup
        rw [RetryAt.keys_put]
        exact hs.tableOnce
  | add path receivedAt =>
      cases hexec
      exact ⟨{ hs with
        pending := BurstCollector.length_pending_add hs.pending
        pendingOnce := BurstCollector.nodup_pending_add hs.pendingOnce }, trivial⟩
  | take =>
      simp only [Worker.exec] at hexec
      split at hexec <;> cases hexec
      · exact ⟨{ hs with pending := Nat.zero_le _, pendingOnce := List.nodup_nil }, trivial⟩
      · exact ⟨hs, trivial⟩
  | get =>
      simp only [Worker.exec] at hexec
      split at hexec <;> cases hexec
      exact ⟨{ hs with }, trivial⟩
  | selectHot receivedAt =>
      cases hexec
      exact ⟨hs, trivial⟩
  | _ =>
      cases hexec
      exact ⟨{ hs with }, trivial⟩

/-- What an operation enters and removes. -/
def entered (path : String) : (e : WorkerEff) → Except Exc e.Ans → Prop → Prop
  | .schedule q, _, before => q = path ∨ before
  | .selectHot _, .ok selected, before => path ∈ selected ∨ before
  | .remove q, _, before => q ≠ path ∧ before
  | _, _, before => before

/-- An operation loses nothing: what it takes out of a structure it has in its hands. -/
theorem kept_exec {path : String} {before others : Prop}
    (hbefore : before → Shelved s path ∨ path ∈ h.held ∨ others)
    (hshelved : ∀ q, h.shelved = some q → q ∈ s.collector.pending)
    (hexec : Worker.exec c env s e = some (r, s')) (hentered : entered path e r before) :
    Shelved s' path ∨ path ∈ (h.next e r).held ∨ others := by
  cases e with
  | gate e =>
      have hnext : h.next (.gate e) r = h := rfl
      rw [hnext]
      rcases exec_gate hexec with rfl | ⟨gate, -, rfl⟩ <;> exact hbefore hentered
  | schedule q =>
      cases hexec
      have hkeys : (s.retryAt.schedule cfg.maxPendingCandidates env.clock env.wall q).1 ++
          (s.retryAt.schedule cfg.maxPendingCandidates env.clock env.wall q).2.map Prod.fst =
            (s.retryAt.pop q).map Prod.fst ++ [q] := RetryAt.keys_schedule
      have hcases : path ∈ (s.retryAt.pop q).map Prod.fst ++ [q] ∨
          path ∈ s.collector.pending ∨ (∃ b ∈ s.queue, path ∈ b.paths) ∨ path ∈ h.held ∨ others := by
        by_cases hq : path = q
        · exact .inl (by simp [hq])
        · rcases hbefore (hentered.resolve_left (Ne.symm hq)) with
            (htable | hcollector | hqueue) | hrest
          · refine .inl (List.mem_append_left _ ?_)
            rw [RetryAt.keys_pop]
            exact List.mem_filter.2 ⟨htable, decide_eq_true hq⟩
          · exact .inr (.inl hcollector)
          · exact .inr (.inr (.inl hqueue))
          · exact .inr (.inr (.inr hrest))
      rcases hcases with htable | hcollector | hqueue | hheld | hothers
      · -- What was in the dictionary is so still or is given up.
        rw [← hkeys] at htable
        rcases List.mem_append.1 htable with hdropped | hkept
        · exact .inr (.inl (List.mem_append_right _ hdropped))
        · exact .inl (.inl hkept)
      · exact .inl (.inr (.inl hcollector))
      · exact .inl (.inr (.inr hqueue))
      · exact .inr (.inl (List.mem_append_left _ hheld))
      · exact .inr (.inr hothers)
  | forget q =>
      cases hexec
      have hgrows : h.held ⊆ (h.next (.forget q) (.ok ())).held := by
        simp only [Custody.next]
        split
        · exact List.Subset.refl _
        · exact List.subset_cons_self _ _
      rcases hbefore hentered with (htable | hcollector | hqueue) | hheld | hothers
      · by_cases hq : path = q
        · -- It is in the collector already, or it is in the hands of the call now.
          subst hq
          by_cases hadded : h.shelved = some path
          · exact .inl (.inr (.inl (hshelved path hadded)))
          · refine .inr (.inl ?_)
            simp [Custody.next, hadded]
        · refine .inl (.inl ?_)
          show path ∈ (s.retryAt.pop q).map Prod.fst
          rw [RetryAt.keys_pop]
          exact List.mem_filter.2 ⟨htable, decide_eq_true hq⟩
      · exact .inl (.inr (.inl hcollector))
      · exact .inl (.inr (.inr hqueue))
      · exact .inr (.inl (hgrows hheld))
      · exact .inr (.inr hothers)
  | postpone q candidate =>
      cases hexec
      have htable : (s.retryAt.put q { candidate with
          retryAt := env.clock + cfg.retryInterval
          attempts := candidate.attempts + 1 }).map Prod.fst = s.retryAt.map Prod.fst :=
        RetryAt.keys_put
      rcases hbefore hentered with (hold | hcollector | hqueue) | hrest
      · exact .inl (.inl (htable ▸ hold))
      · exact .inl (.inr (.inl hcollector))
      · exact .inl (.inr (.inr hqueue))
      · exact .inr hrest
  | remove q =>
      cases hexec
      rcases hbefore hentered.2 with hshared | hheld | hothers
      · exact .inl hshared
      · exact .inr (.inl (List.mem_filter.2 ⟨hheld, decide_eq_true (Ne.symm hentered.1)⟩))
      · exact .inr (.inr hothers)
  | add q receivedAt =>
      cases hexec
      generalize ha : arrival s env q receivedAt = a
      obtain rfl : a.path = q := ha ▸ rfl
      have hcases : (path = a.path ∨ path ∈ s.collector.pending) ∨
          path ∈ s.retryAt.map Prod.fst ∨ (∃ b ∈ s.queue, path ∈ b.paths) ∨
            path ∈ h.held.filter (· ≠ a.path) ∨ others := by
        rcases hbefore hentered with (htable | hcollector | hqueue) | hheld | hothers
        · exact .inr (.inl htable)
        · exact .inl (.inr hcollector)
        · exact .inr (.inr (.inl hqueue))
        · by_cases hq : path = a.path
          · exact .inl (.inl hq)
          · exact .inr (.inr (.inr (.inl (List.mem_filter.2 ⟨hheld, decide_eq_true hq⟩))))
        · exact .inr (.inr (.inr (.inr hothers)))
      rcases hcases with hor | htable | hqueue | hheld | hothers
      · rcases BurstCollector.mem_pending_add hor with hpending | hdropped
        · exact .inl (.inr (.inl hpending))
        · exact .inr (.inl (List.mem_append_right _ (by simp [hdropped])))
      · exact .inl (.inl htable)
      · exact .inl (.inr (.inr hqueue))
      · exact .inr (.inl (List.mem_append_left _ hheld))
      · exact .inr (.inr hothers)
  | selectHot receivedAt =>
      cases hexec
      cases hhot : env.hotFrames with
      | error x =>
          rw [hhot] at hentered
          exact hbefore hentered
      | ok selected =>
          rw [hhot] at hentered
          rcases hentered with hnew | hold
          · exact .inr (.inl (List.mem_append_right _ hnew))
          · rcases hbefore hold with hshared | hheld | hothers
            · exact .inl hshared
            · exact .inr (.inl (List.mem_append_left _ hheld))
            · exact .inr (.inr hothers)
  | take =>
      simp only [Worker.exec] at hexec
      split at hexec <;> cases hexec
      · rcases hbefore hentered with (htable | hcollector | hqueue) | hheld | hothers
        · exact .inl (.inl htable)
        · exact .inr (.inl (List.mem_append_right _ hcollector))
        · exact .inl (.inr (.inr hqueue))
        · exact .inr (.inl (List.mem_append_left _ hheld))
        · exact .inr (.inr hothers)
      · exact hbefore hentered
  | put b =>
      have hput : s' = { s with queue := (putBurst cfg.maxPendingBursts s.queue b).2 } ∧
          r = .ok (putBurst cfg.maxPendingBursts s.queue b).1 := by
        cases hexec
        exact ⟨rfl, rfl⟩
      obtain ⟨rfl, rfl⟩ := hput
      have hnew : b ∈ (putBurst cfg.maxPendingBursts s.queue b).2 := by
        unfold putBurst
        split <;> simp
      have hold : ∀ b' ∈ s.queue, b' ∈ (putBurst cfg.maxPendingBursts s.queue b).2 ∨
          (putBurst cfg.maxPendingBursts s.queue b).1 = some b' := by
        intro b' hb'
        unfold putBurst
        split
        · obtain ⟨first, rest, hcons⟩ := List.exists_cons_of_ne_nil (List.ne_nil_of_mem hb')
          rw [hcons] at hb' ⊢
          rcases List.mem_cons.1 hb' with rfl | hrest
          · exact .inr rfl
          · exact .inl (List.mem_append_left _ hrest)
        · exact .inl (List.mem_append_left _ hb')
      rcases hbefore hentered with (htable | hcollector | ⟨b', hb', hpath⟩) | hheld | hothers
      · exact .inl (.inl htable)
      · exact .inl (.inr (.inl hcollector))
      · rcases hold b' hb' with hkept | hdropped
        · exact .inl (.inr (.inr ⟨b', hkept, hpath⟩))
        · refine .inr (.inl (List.mem_append_right _ ?_))
          rw [hdropped]
          exact hpath
      · by_cases hb : path ∈ b.paths
        · exact .inl (.inr (.inr ⟨b, hnew, hb⟩))
        · exact .inr (.inl (List.mem_append_left _ (List.mem_filter.2 ⟨hheld, decide_eq_true hb⟩)))
      · exact .inr (.inr hothers)
  | get =>
      simp only [Worker.exec] at hexec
      split at hexec
      · cases hexec
      next b rest hqueue =>
        cases hexec
        rcases hbefore hentered with (htable | hcollector | ⟨b', hb', hpath⟩) | hheld | hothers
        · exact .inl (.inl htable)
        · exact .inl (.inr (.inl hcollector))
        · rw [hqueue] at hb'
          rcases List.mem_cons.1 hb' with rfl | hrest
          · exact .inr (.inl (List.mem_append_right _ hpath))
          · exact .inl (.inr (.inr ⟨b', hrest, hpath⟩))
        · exact .inr (.inl (List.mem_append_left _ hheld))
        · exact .inr (.inr hothers)
  | _ =>
      cases hexec
      exact hbefore hentered

/-- Only the main thread's operations touch the collector. -/
theorem exec_collector (hexec : Worker.exec c env s e = some (r, s')) :
    s'.collector = s.collector ∨ ∀ h : Custody, h.allow e → h.polls = true := by
  cases e with
  | gate e => rcases exec_gate hexec with rfl | ⟨gate, -, rfl⟩ <;> exact .inl rfl
  | add path receivedAt => exact .inr fun _ hallow => hallow
  | take => exact .inr fun _ hallow => hallow
  | get =>
      simp only [Worker.exec] at hexec
      split at hexec <;> cases hexec
      exact .inl rfl
  | _ =>
      cases hexec
      exact .inl rfl

/-- What the main thread has added last is in the collector. -/
def ShelfHolds (s : WorkerState cfg) (h : Custody) : Prop :=
  ∀ path, h.shelved = some path → h.polls = true ∧ path ∈ s.collector.pending

theorem ShelfHolds.exec (hs : ShelfHolds s h) (hallow : h.allow e)
    (hexec : Worker.exec c env s e = some (r, s')) : ShelfHolds s' (h.next e r) := by
  cases e with
  | add path receivedAt =>
      cases hexec
      rintro _ ⟨⟩
      exact ⟨hallow, BurstCollector.added_pending⟩
  | take =>
      simp only [Worker.exec] at hexec
      split at hexec <;> cases hexec
      · rintro path ⟨⟩
      · exact hs
  | forget path =>
      cases hexec
      show ShelfHolds _ (if h.shelved = some path then h else { h with held := path :: h.held })
      split <;> exact hs
  | gate e => rcases exec_gate hexec with rfl | ⟨gate, -, rfl⟩ <;> exact hs
  | get =>
      simp only [Worker.exec] at hexec
      split at hexec <;> cases hexec
      exact hs
  | selectHot receivedAt =>
      cases hexec
      cases env.hotFrames <;> exact hs
  | _ =>
      cases hexec
      exact hs

end Step

/-! ## Runs -/

/-- The path was entered, into the dictionary or as a hot frame, and not removed since. -/
def Entered (path : String) : WorkerLog cfg → Prop
  | [] => False
  | .did _ e r :: log => entered path e r (Entered path log)
  | .began _ _ :: log => Entered path log
  | .ended _ _ :: log => Entered path log
  | .crashed _ :: log => Entered path log

/-- The path is in the hands of a call under way: it examines it, rejects it, flushes it
or processes its burst. -/
def InHands (path : String) (log : WorkerLog cfg) : Prop :=
  ∃ c h, Live c log ∧ ghost (fun _ => custody cfg) c log = some h ∧ path ∈ h.held

/-- The call is a round of the main loop that is under way. -/
def Polling (c : CallId) (log : WorkerLog cfg) : Prop :=
  Live c log ∧ ∃ h, ghost (fun _ => custody cfg) c log = some h ∧ h.polls = true

/-- There is one main thread, and nothing crashes. -/
def OneMainThread (w : WorkerWorld cfg) : Choice WorkerEnv (WorkerCall cfg) → Prop
  | .begin _ .poll => ∀ c, ¬ Polling c w.log
  | .crash _ _ => False
  | _ => True

/-- The invariant. -/
structure Accounted (s : WorkerState cfg) (log : WorkerLog cfg) : Prop where
  bounded : Bounded s
  kept : ∀ path, Entered path log → Shelved s path ∨ InHands path log
  shelf : Each (fun _ => custody cfg) (fun _ h => ShelfHolds s h) log
  single : ∀ c d, Polling c log → Polling d log → c = d

section Invariant

variable {s s' : WorkerState cfg} {log : WorkerLog cfg} {c d : CallId}

theorem polls_next (h : Custody) (e : WorkerEff) (r : Except Exc e.Ans) :
    (h.next e r).polls = h.polls := by
  unfold Custody.next
  split <;> first | rfl | (split <;> rfl)

theorem polling_did {e : WorkerEff} {r : Except Exc e.Ans} {h : Custody}
    (hghost : ghost (fun _ => custody cfg) c log = some h) :
    Polling d (.did c e r :: log) ↔ Polling d log := by
  have hsame := polls_next h e r
  by_cases hd : d = c
  · subst hd
    simp only [Polling, Live, ghost_did_self hghost, hghost, Option.some.injEq]
    constructor
    · rintro ⟨hlive, _, rfl, hpolls⟩
      exact ⟨hlive, h, rfl, hsame ▸ hpolls⟩
    · rintro ⟨hlive, _, rfl, hpolls⟩
      exact ⟨hlive, _, rfl, hsame.trans hpolls⟩
  · simp only [Polling, Live, ghost_did_ne (Ne.symm hd)]

theorem Accounted.did {env : WorkerEnv} {e : WorkerEff} {r : Except Exc e.Ans} {h : Custody}
    (hs : Accounted s log) (hlive : Live c log)
    (hghost : ghost (fun _ => custody cfg) c log = some h) (hallow : h.allow e)
    (hexec : Worker.exec c env s e = some (r, s')) :
    Custody.expect e r ∧ Accounted s' (.did c e r :: log) := by
  obtain ⟨hbounded, hexpect⟩ := hs.bounded.exec hexec
  have hshelf := hs.shelf c h hlive hghost
  refine ⟨hexpect, hbounded, fun path hpath => ?_, ?_, fun d d' hd hd' => ?_⟩
  · have hbefore : Entered path log → Shelved s path ∨ path ∈ h.held ∨
        ∃ d h', d ≠ c ∧ Live d log ∧ ghost (fun _ => custody cfg) d log = some h' ∧
          path ∈ h'.held := by
      intro hentered
      rcases hs.kept path hentered with hshared | ⟨d, h', hlive', hghost', hheld⟩
      · exact .inl hshared
      · by_cases hd : d = c
        · subst hd
          cases hghost.symm.trans hghost'
          exact .inr (.inl hheld)
        · exact .inr (.inr ⟨d, h', hd, hlive', hghost', hheld⟩)
    rcases kept_exec hbefore (fun q hq => (hshelf q hq).2) hexec hpath with
      hshared | hheld | ⟨d, h', hd, hlive', hghost', hheld⟩
    · exact .inl hshared
    · exact .inr ⟨c, _, hlive, ghost_did_self hghost, hheld⟩
    · exact .inr ⟨d, h', hlive', (ghost_did_ne (Ne.symm hd)).trans hghost', hheld⟩
  · refine Each.did (Φ := fun d h' => ShelfHolds s h' ∧ ghost (fun _ => custody cfg) d log = some h')
      (fun d h' hlive' hghost' => ⟨hs.shelf d h' hlive' hghost', hghost'⟩) hghost
      (hshelf.exec hallow hexec) fun d h' hd hlive' hh' => ?_
    rcases exec_collector hexec with hsame | hpolls
    · intro path hpath
      rw [hsame]
      exact hh'.1 path hpath
    · -- Another call with something on the shelf would be a second main thread.
      intro path hpath
      have hc : Polling c log := ⟨hlive, h, hghost, hpolls h hallow⟩
      have hd' : Polling d log := ⟨hlive', h', hh'.2, (hh'.1 path hpath).1⟩
      exact absurd (hs.single d c hd' hc) hd
  · exact hs.single d d' ((polling_did hghost).1 hd) ((polling_did hghost).1 hd')

theorem Accounted.began {call : WorkerCall cfg} (hs : Accounted s log) (hnew : ¬ Begun c log)
    (hmain : call = .poll → ∀ d, ¬ Polling d log) (haccept : Worker.accept s call = some s') :
    Accounted s' (.began c call :: log) := by
  have hsame : s'.retryAt = s.retryAt ∧ s'.collector = s.collector ∧ s'.queue = s.queue := by
    cases call <;> cases haccept <;> exact ⟨rfl, rfl, rfl⟩
  obtain ⟨htable, hcollector, hqueue⟩ := hsame
  have hother : ∀ d, d ≠ c → (Polling d (.began c call :: log) ↔ Polling d log) := by
    intro d hd
    simp only [Polling, Live, ghost_began_ne (Ne.symm hd)]
    rw [or_iff_right (Ne.symm hd)]
  have hself : Polling c (.began c call :: log) → call = .poll := by
    rintro ⟨-, h, hghost, hpolls⟩
    cases hghost.symm.trans ghost_began_self
    cases call <;> first | rfl | cases hpolls
  refine ⟨?_, fun path hpath => ?_, ?_, fun d d' hd hd' => ?_⟩
  · exact ⟨htable ▸ hs.bounded.table, htable ▸ hs.bounded.tableOnce,
      hcollector ▸ hs.bounded.pending, hcollector ▸ hs.bounded.pendingOnce⟩
  · rcases hs.kept path hpath with hshared | ⟨d, h, hlive, hghost, hheld⟩
    · left
      unfold Shelved
      rw [htable, hcollector, hqueue]
      exact hshared
    · have hd : d ≠ c := by
        rintro rfl
        exact hnew hlive.begun
      exact .inr ⟨d, h, .inr hlive, (ghost_began_ne (Ne.symm hd)).trans hghost, hheld⟩
  · refine hs.shelf.began (fun path hpath => by cases hpath) fun d h hd hlive hh => ?_
    intro path hpath
    rw [hcollector]
    exact hh path hpath
  · by_cases hc : d = c
    · subst hc
      by_cases hc' : d' = d
      · exact hc'.symm
      · exact absurd ((hother d' hc').1 hd') (hmain (hself hd) d')
    · by_cases hc' : d' = c
      · subst hc'
        exact absurd ((hother d hc).1 hd) (hmain (hself hd') d)
      · exact hs.single d d' ((hother d hc).1 hd) ((hother d' hc').1 hd')

/-- The one obligation per kind of event. -/
theorem accounted_invariant :
    Invariant (worker cfg) (fun _ => custody cfg) (fun _ h _ => h.held = []) OneMainThread
      Accounted where
  obeys w c call s' _ _ _ := program_custody c call
  began w c call s' _ hs hok hnew haccept := by
    refine hs.began hnew ?_ haccept
    rintro rfl
    exact hok
  did w c env e k h r s' _ hs _ _ hlive hghost hallow hexec :=
    hs.did hlive hghost hallow hexec
  ended w c h r _ hs hlive hghost hheld := by
    have hpolling : ∀ d, Polling d (.ended c r :: w.log) → Polling d w.log :=
      fun d hd => ⟨hd.1.2, hd.2⟩
    refine ⟨hs.bounded, fun path hpath => ?_, hs.shelf.ended, fun d d' hd hd' =>
      hs.single d d' (hpolling d hd) (hpolling d' hd')⟩
    rcases hs.kept path hpath with hshared | ⟨d, h', hlive', hghost', hmem⟩
    · exact .inl hshared
    · -- The call that ends has empty hands.
      have hd : d ≠ c := by
        rintro rfl
        cases hghost.symm.trans hghost'
        rw [hheld] at hmem
        cases hmem
      exact .inr ⟨d, h', ⟨Ne.symm hd, hlive'⟩, hghost', hmem⟩
  crashed w p env _ _ hok := hok.elim

end Invariant

/-- In every state of every run with one main thread, each upload that was entered and is
still there is in the dictionary, in the hands of a call, in the collector or in a queued
burst, and the dictionary and the collector keep to their limits and hold no path
twice. -/
theorem no_orphaned_upload (gate : State) (files : String → Option (Content cfg.digests))
    (l : List (Choice WorkerEnv (WorkerCall cfg)))
    (hmain : (worker cfg).Admits OneMainThread (boot cfg gate files) l) :
    let w := (worker cfg).run (boot cfg gate files) l
    (∀ path, Entered path w.log → (w.state.files path).isSome →
      path ∈ w.state.retryAt.map Prod.fst ∨ InHands path w.log ∨
        path ∈ w.state.collector.pending ∨ ∃ b ∈ w.state.queue, path ∈ b.paths) ∧
      w.state.retryAt.length ≤ cfg.maxPendingCandidates ∧
      (w.state.retryAt.map Prod.fst).Nodup ∧
      w.state.collector.pending.length ≤ cfg.collector.maxCandidates ∧
      w.state.collector.pending.Nodup := by
  have hstart : Accounted (boot cfg gate files).state (boot cfg gate files).log := by
    refine ⟨⟨Nat.zero_le _, List.nodup_nil, Nat.zero_le _, List.nodup_nil⟩, fun path h => h.elim,
      fun d h hlive => hlive.elim, fun c d hc => hc.1.elim⟩
  obtain ⟨-, haccounted⟩ := accounted_invariant.run (Sound.init _ _ _) hstart hmain
  refine ⟨fun path hentered _ => ?_, haccounted.bounded.table, haccounted.bounded.tableOnce,
    haccounted.bounded.pending, haccounted.bounded.pendingOnce⟩
  rcases haccounted.kept path hentered with (htable | hcollector | hqueue) | hheld
  · exact .inl htable
  · exact .inr (.inr (.inl hcollector))
  · exact .inr (.inr (.inr hqueue))
  · exact .inr (.inl hheld)

/-- No round of the main loop has begun. -/
def pollFree : WorkerLog cfg → Bool
  | [] => true
  | .began _ .poll :: _ => false
  | _ :: log => pollFree log

theorem not_polling_of_pollFree {c : CallId} : ∀ {log : WorkerLog cfg}, pollFree log = true →
    ¬ Polling c log := by
  have hpolls : ∀ (log : WorkerLog cfg) (h : Custody), pollFree log = true →
      ghost (fun _ => custody cfg) c log = some h → h.polls = false := by
    intro log
    induction log with
    | nil => nofun
    | cons ev log ih =>
        intro h hfree hghost
        cases ev with
        | began d call =>
            by_cases hd : d = c
            · subst hd
              cases hghost.symm.trans ghost_began_self
              cases call <;> first | rfl | cases hfree
            · rw [ghost_began_ne hd] at hghost
              refine ih h ?_ hghost
              cases call <;> first | exact hfree | cases hfree
        | did d e r =>
            by_cases hd : d = c
            · subst hd
              simp only [ghost, if_true] at hghost
              obtain ⟨h', hghost', rfl⟩ := Option.map_eq_some_iff.1 hghost
              exact (polls_next h' e r).trans (ih h' hfree hghost')
            · rw [ghost_did_ne hd] at hghost
              exact ih h hfree hghost
        | ended d r => exact ih h hfree hghost
        | crashed p => exact ih h hfree hghost
  rintro log hfree ⟨-, h, hghost, hpoll⟩
  rw [hpolls log h hfree hghost] at hpoll
  cases hpoll

theorem admits_steps (w : WorkerWorld cfg) (c : CallId) (env : WorkerEnv) (n : Nat) :
    (worker cfg).Admits OneMainThread w (List.replicate n (.step c env)) := by
  induction n generalizing w with
  | zero => trivial
  | succ n ih => exact ⟨trivial, ih _⟩

end Worker

/-- An upload that has been notified and collected. -/
theorem Late.no_orphaned_upload_collected :
    let l := whole 1 (.upload "a.jpg" jpeg) 0 ++ (whole 2 (.notify (.created "a.jpg" false)) 0 ++
      whole 3 .poll 0)
    let w := (worker config).run (Worker.boot config { db := Db.fresh } fun _ => none) l
    (∀ path, Worker.Entered path w.log → (w.state.files path).isSome →
      path ∈ w.state.retryAt.map Prod.fst ∨ Worker.InHands path w.log ∨
        path ∈ w.state.collector.pending ∨ ∃ b ∈ w.state.queue, path ∈ b.paths) ∧
      w.state.retryAt.length ≤ config.maxPendingCandidates ∧
      (w.state.retryAt.map Prod.fst).Nodup ∧
      w.state.collector.pending.length ≤ config.collector.maxCandidates ∧
      w.state.collector.pending.Nodup := by
  refine Worker.no_orphaned_upload { db := Db.fresh } (fun _ => none) _ ?_
  rw [Machine.admits_append, Machine.admits_append, ← Machine.run_append]
  refine ⟨⟨trivial, Worker.admits_steps _ _ _ _⟩, ⟨trivial, Worker.admits_steps _ _ _ _⟩,
    fun c => Worker.not_polling_of_pollFree ?_, Worker.admits_steps _ _ _ _⟩
  decide +kernel

end GateController

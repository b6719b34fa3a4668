import GateController.Camera.Correlator

/-!
# Pending events and the table of duplicates

An event that is pending must be remembered, or it would be accepted a second
time.  The table is larger than the queue, but matching takes events out of the
queue and leaves the table as it is, so the oldest id of a full table may still
be pending when it is forgotten.  `Spares` says of a call that it forgets no id
of an event that stays pending.  The queue is guarded in every state of a run
exactly if all its calls do.
-/

namespace GateController

open Data

namespace ReolinkEventCorrelator

/-- The ids of the pending events. -/
def ids (s : State) : List String := s.events.map SanitizedCameraEvent.eventId

/-- No event can be entered twice. -/
structure Guarded (limits : Limits) (s : State) : Prop where
  /-- No two pending events have one id. -/
  distinct : (ids s).Nodup
  /-- Every pending event is remembered. -/
  remembered : ∀ eventId ∈ ids s, remembers s eventId = true
  /-- An event that is pending is not accepted again. -/
  refused : ∀ event now, event.eventId ∈ ids (prune limits now.utc s) →
    (record limits event now s).1 ≠ .accepted
  /-- An event that a burst is credited to is not left for another burst. -/
  spent : ∀ receivedAt now event,
    nearest limits receivedAt.utc (prune limits now.utc s).events = some event →
      (∀ x, (correlate limits receivedAt now s).1 ≠ .error x) →
        event.eventId ∉ ids (correlate limits receivedAt now s).2

/-- The call forgets no id of an event that stays pending. -/
def Spares (limits : Limits) (s : State) : Call → Prop
  | .record event now =>
      stale limits event now.utc = false →
      remembers (prune limits now.utc s) event.eventId = false →
      (prune limits now.utc s).seen.length = limits.maxSeen →
      ∀ entry, (prune limits now.utc s).seen.head? = some entry →
        entry.1 ∉ (keepNewest (limits.maxEvents - 1)
          (prune limits now.utc s).events).map SanitizedCameraEvent.eventId
  | .correlate _ _ => True

variable {limits : Limits} {s : State} {now : Instant}

/-! ## The table -/

/-- The table is bounded and has every id once. -/
structure Tabled (limits : Limits) (s : State) : Prop where
  bounded : s.seen.length ≤ limits.maxSeen
  distinct : (s.seen.map Prod.fst).Nodup

theorem Tabled.prune (h : Tabled limits s) : Tabled limits (prune limits now s) where
  bounded := (List.length_filter_le _ _).trans h.bounded
  distinct := h.distinct.sublist (List.filter_sublist.map _)

theorem not_mem_of_not_remembers {eventId : String} (h : remembers s eventId = false) :
    eventId ∉ s.seen.map Prod.fst := by
  intro hmem
  obtain ⟨⟨id, at_⟩, hentry, rfl⟩ := List.mem_map.1 hmem
  rw [remembers_iff.2 ⟨at_, hentry⟩] at h
  cases h

theorem Tabled.accept {event : SanitizedCameraEvent} (h : Tabled limits s)
    (hnew : remembers s event.eventId = false) : Tabled limits (accept limits event s) where
  bounded := length_keepNewest_le _ _
  distinct := by
    refine List.Nodup.sublist ((keepNewest_sublist _ _).map _) ?_
    rw [List.map_append]
    refine List.Nodup.append h.distinct (List.nodup_singleton _) ?_
    exact List.disjoint_singleton.2 (not_mem_of_not_remembers hnew)

theorem Tabled.step (h : Tabled limits s) (call : Call) : Tabled limits (step limits s call) := by
  rcases step_cases limits s call with heq | ⟨event, now, -, -, hnew, heq⟩ |
    ⟨receivedAt, now, event, -, -, heq⟩
  · exact heq ▸ h.prune
  · exact heq ▸ h.prune.accept hnew
  · exact heq ▸ ⟨h.prune.bounded, h.prune.distinct⟩

theorem tabled_run (calls : List Call) : Tabled limits (run limits calls) := by
  induction calls using List.reverseRecOn with
  | nil => exact ⟨Nat.zero_le _, List.nodup_nil⟩
  | append_singleton calls call ih => exact run_concat calls call ▸ ih.step call

/-! ## The queue -/

/-- Every pending event is in the table with its time of arrival. -/
structure Entered (s : State) : Prop where
  distinct : (ids s).Nodup
  entered : ∀ event ∈ s.events, (event.eventId, event.receivedAt.utc) ∈ s.seen

theorem Entered.prune (h : Entered s) : Entered (prune limits now s) where
  distinct := h.distinct.sublist (List.filter_sublist.map _)
  entered event hevent := by
    obtain ⟨hin, hyoung⟩ := mem_prune_events.1 hevent
    exact mem_prune_seen.2 ⟨h.entered event hin, hyoung⟩

theorem Entered.erase (h : Entered s) (event : SanitizedCameraEvent) :
    Entered { s with events := s.events.erase event } where
  distinct := h.distinct.sublist (List.erase_sublist.map _)
  entered other hother := h.entered other (List.mem_of_mem_erase hother)

theorem Entered.remembers (h : Entered s) {eventId : String} (hid : eventId ∈ ids s) :
    remembers s eventId = true := by
  obtain ⟨event, hevent, rfl⟩ := List.mem_map.1 hid
  exact remembers_iff.2 ⟨_, h.entered event hevent⟩

/-- Taking the newest of a list to which one element was added. -/
theorem keepNewest_concat {α : Type} {capacity : Nat} (hpos : 1 ≤ capacity) (l : List α) (a : α) :
    keepNewest capacity (l ++ [a]) = keepNewest (capacity - 1) l ++ [a] := by
  have hlen : l.length + 1 - capacity = l.length - (capacity - 1) := by omega
  have hle : l.length - (capacity - 1) ≤ l.length := Nat.sub_le _ _
  rw [keepNewest, keepNewest, List.length_append, List.length_singleton, hlen,
    List.drop_append_of_le_length hle]

/-- What the table keeps when an id is added: all, or all but the oldest. -/
theorem accept_seen {event : SanitizedCameraEvent} (hpos : 1 ≤ limits.maxEvents)
    (h : Tabled limits s) :
    (s.seen.length < limits.maxSeen ∧ (accept limits event s).seen =
      s.seen ++ [(event.eventId, event.receivedAt.utc)]) ∨
    ∃ entry rest, s.seen = entry :: rest ∧ s.seen.length = limits.maxSeen ∧
      (accept limits event s).seen = rest ++ [(event.eventId, event.receivedAt.utc)] := by
  have hmax : 1 ≤ limits.maxSeen := by
    unfold Limits.maxSeen
    omega
  rcases h.bounded.lt_or_eq with hlt | hfull
  · refine .inl ⟨hlt, keepNewest_of_le ?_⟩
    rw [List.length_append, List.length_singleton]
    exact hlt
  · cases hseen : s.seen with
    | nil =>
        rw [hseen, List.length_nil] at hfull
        omega
    | cons entry rest =>
        refine .inr ⟨entry, rest, rfl, hseen ▸ hfull, ?_⟩
        have hlen : rest.length + 1 - (limits.maxSeen - 1) = 1 := by
          rw [hseen, List.length_cons] at hfull
          omega
        have hdrop : keepNewest (limits.maxSeen - 1) (entry :: rest) = rest := by
          rw [keepNewest, List.length_cons, hlen, List.drop_one, List.tail_cons]
        change keepNewest limits.maxSeen (s.seen ++ _) = _
        rw [keepNewest_concat hmax, hseen, hdrop]

/-- An event that is accepted in a call that spares the pending ones. -/
theorem Entered.accept {event : SanitizedCameraEvent} (h : Entered s) (htable : Tabled limits s)
    (hpos : 1 ≤ limits.maxEvents) (hnew : ReolinkEventCorrelator.remembers s event.eventId = false)
    (hspares : s.seen.length = limits.maxSeen → ∀ entry, s.seen.head? = some entry →
      entry.1 ∉ (keepNewest (limits.maxEvents - 1) s.events).map SanitizedCameraEvent.eventId) :
    Entered (accept limits event s) := by
  have hfresh : event.eventId ∉ ids s := by
    intro hmem
    rw [h.remembers hmem] at hnew
    cases hnew
  have hkept : ∀ other ∈ keepNewest (limits.maxEvents - 1) s.events, other ∈ s.events :=
    fun other hother => (keepNewest_sublist _ _).subset hother
  constructor
  · refine List.Nodup.sublist ((keepNewest_sublist _ _).map _) ?_
    rw [List.map_append]
    exact List.Nodup.append h.distinct (List.nodup_singleton _) (List.disjoint_singleton.2 hfresh)
  · intro other hother
    rw [ReolinkEventCorrelator.accept, keepNewest_concat hpos] at hother
    rcases accept_seen hpos htable with ⟨-, hseen⟩ | ⟨entry, rest, hseen, hfull, hafter⟩
    · rw [hseen]
      rcases List.mem_append.1 hother with hold | hself
      · exact List.mem_append_left _ (h.entered other (hkept other hold))
      · cases List.mem_singleton.1 hself
        exact List.mem_append_right _ List.mem_cons_self
    · rw [hafter]
      rcases List.mem_append.1 hother with hold | hself
      · have hentered := h.entered other (hkept other hold)
        rw [hseen] at hentered
        rcases List.mem_cons.1 hentered with rfl | hrest
        · exact absurd (List.mem_map_of_mem hold) (hspares hfull _ (by rw [hseen]; rfl))
        · exact List.mem_append_left _ hrest
      · cases List.mem_singleton.1 hself
        exact List.mem_append_right _ List.mem_cons_self

theorem Entered.step (h : Entered s) (htable : Tabled limits s) (hpos : 1 ≤ limits.maxEvents)
    {call : Call} (hspares : Spares limits s call) : Entered (step limits s call) := by
  rcases step_cases limits s call with heq | ⟨event, now, rfl, hfresh, hnew, heq⟩ |
    ⟨receivedAt, now, event, -, -, heq⟩
  · exact heq ▸ h.prune
  · exact heq ▸ h.prune.accept htable.prune hpos hnew (hspares hfresh hnew)
  · exact heq ▸ h.prune.erase event

/-- What is entered in the table is guarded. -/
theorem Entered.guarded (h : Entered s) : Guarded limits s where
  distinct := h.distinct
  remembered _ := h.remembers
  refused event now hid := by
    have hseen := (h.prune).remembers hid
    rcases record_cases limits s event now with
      ⟨-, heq⟩ | ⟨-, -, heq⟩ | ⟨-, hnew, -⟩
    · rw [heq]
      nofun
    · rw [heq]
      nofun
    · rw [hseen] at hnew
      cases hnew
  spent receivedAt now event hnear hok := by
    have hpruned := @Entered.prune limits _ now.utc h
    rcases correlate_cases limits s receivedAt now with
      ⟨x, heq⟩ | ⟨hnone, -⟩ | ⟨event', hnear', heq⟩
    · exact absurd (congrArg Prod.fst heq) (hok x)
    · rw [hnone] at hnear
      cases hnear
    · cases hnear.symm.trans hnear'
      rw [heq]
      intro hmem
      obtain ⟨other, hother, hid⟩ := List.mem_map.1 hmem
      have hin := (nearest_spec hnear).1
      have hdistinct := hpruned.distinct
      have heqv : other = event :=
        List.inj_on_of_nodup_map hdistinct (List.mem_of_mem_erase hother) hin hid
      have hnodup : (ReolinkEventCorrelator.prune limits now.utc s).events.Nodup := hdistinct.of_map _
      exact hnodup.not_mem_erase (heqv ▸ hother)

/-! ## Runs -/

/-- A call that does not spare a pending event leaves it unguarded. -/
theorem Spares.of_guarded (htable : Tabled limits s) (hpos : 1 ≤ limits.maxEvents) {call : Call}
    (h : Guarded limits (step limits s call)) : Spares limits s call := by
  cases call with
  | correlate receivedAt now => trivial
  | record event now =>
      intro hfresh hnew hfull entry hentry hkept
      have heq : step limits s (.record event now) =
          accept limits event (prune limits now.utc s) := by
        simp [step, record, hfresh, hnew]
      rw [heq] at h
      have htable' := @Tabled.prune _ _ now.utc htable
      rcases accept_seen hpos htable' with ⟨hlt, -⟩ | ⟨entry', rest, hseen, -, hafter⟩
      · exact absurd hfull hlt.ne
      · rw [hseen, List.head?_cons] at hentry
        cases hentry
        have hpending : entry.1 ∈ ids (accept limits event (prune limits now.utc s)) := by
          rw [ids, accept, keepNewest_concat hpos, List.map_append]
          exact List.mem_append_left _ hkept
        obtain ⟨at_, hmem⟩ := remembers_iff.1 (h.remembered _ hpending)
        rw [hafter] at hmem
        have hdistinct := htable'.distinct
        rw [hseen, List.map_cons, List.nodup_cons] at hdistinct
        rcases List.mem_append.1 hmem with hrest | hself
        · exact hdistinct.1 (List.mem_map.2 ⟨_, hrest, rfl⟩)
        · have hid : entry.1 = event.eventId := congrArg Prod.fst (List.mem_singleton.1 hself)
          refine not_mem_of_not_remembers hnew ?_
          rw [hseen, ← hid]
          exact List.mem_cons_self

/-- In a run of calls that spare the pending events every pending event is entered. -/
theorem entered_run (hpos : 1 ≤ limits.maxEvents) (calls : List Call)
    (h : ∀ earlier call, earlier ++ [call] <+: calls → Spares limits (run limits earlier) call) :
    Entered (run limits calls) := by
  induction calls using List.reverseRecOn with
  | nil => exact ⟨List.nodup_nil, nofun⟩
  | append_singleton calls call ih =>
      rw [run_concat]
      have hearlier := ih fun earlier call' hbefore =>
        h earlier call' (hbefore.trans (List.prefix_append _ _))
      exact hearlier.step (tabled_run calls) hpos (h calls call (List.prefix_refl _))

/-- In a run every state is guarded if and only if every call spares the events that stay
pending. -/
theorem pending_guarded (limits : Limits) (hpos : 1 ≤ limits.maxEvents) (calls : List Call) :
    (∀ earlier, earlier <+: calls → Guarded limits (run limits earlier)) ↔
      ∀ earlier call, earlier ++ [call] <+: calls → Spares limits (run limits earlier) call := by
  constructor
  · intro h earlier call hbefore
    refine Spares.of_guarded (tabled_run earlier) hpos ?_
    rw [← run_concat]
    exact h _ hbefore
  · intro h earlier hbefore
    refine Entered.guarded (entered_run hpos earlier fun earlier' call hbefore' => ?_)
    exact h earlier' call (hbefore'.trans hbefore)

/-! ### A queue of two -/

namespace Forgotten

/-- The time of all calls. -/
def noon : DateTime := ⟨63920000000000000, some 0⟩

/-- An event that arrives so many microseconds later. -/
def arriving (eventId : String) (later : Instant) : SanitizedCameraEvent where
  eventId := eventId
  eventType := "vehicle"
  ruleId := none
  receivedAt := ⟨noon.utc + later, some 0⟩

/-- The first event stays pending while three more come and are matched, then a fifth
comes. -/
def calls : List Call :=
  [.record (arriving "first" 0) noon,
    .record (arriving "second" 2) noon, .correlate ⟨noon.utc + 2, some 0⟩ noon,
    .record (arriving "third" 2) noon, .correlate ⟨noon.utc + 2, some 0⟩ noon,
    .record (arriving "fourth" 2) noon, .correlate ⟨noon.utc + 2, some 0⟩ noon,
    .record (arriving "fifth" 2) noon]

/-- The first event is pending and forgotten, so it is accepted again. -/
theorem first_unguarded : ¬ ∀ earlier, earlier <+: calls →
    Guarded { maxEvents := 2 } (run { maxEvents := 2 } earlier) := by
  intro h
  have hfull := h calls (List.prefix_refl _)
  have hfirst : "first" ∈ ids (run { maxEvents := 2 } calls) := by decide +kernel
  have hforgotten : remembers (run { maxEvents := 2 } calls) "first" = false := by decide +kernel
  rw [hfull.remembered _ hfirst] at hforgotten
  cases hforgotten

/-- The states of this run are guarded if and only if its calls spare the pending events. -/
theorem pending_guarded_two :
    (∀ earlier, earlier <+: calls →
      Guarded { maxEvents := 2 } (run { maxEvents := 2 } earlier)) ↔
    ∀ earlier call, earlier ++ [call] <+: calls →
      Spares { maxEvents := 2 } (run { maxEvents := 2 } earlier) call :=
  pending_guarded { maxEvents := 2 } (by decide) calls

end Forgotten

end ReolinkEventCorrelator

end GateController

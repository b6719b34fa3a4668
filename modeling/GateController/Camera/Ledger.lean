import GateController.Camera.Duplicates
import Mathlib.Algebra.Order.Group.Multiset
import Mathlib.Data.Multiset.Filter

/-!
# Which events may still be credited

The ledger of a run keeps the events that were accepted, those that a burst was
credited to and those that the queue had no place for.  What leaves the queue in
a call other than by age is read off the queue before and after the call.  While
time does not go back, the queue holds the events of the ledger that are not
gone and not too old, and a burst is credited to the nearest of them.
-/

namespace GateController

open Data

namespace ReolinkEventCorrelator

/-- The events that were accepted, matched and displaced in a run. -/
structure Ledger where
  accepted : Multiset SanitizedCameraEvent := 0
  matched : Multiset SanitizedCameraEvent := 0
  displaced : Multiset SanitizedCameraEvent := 0

/-- What was neither matched nor displaced. -/
def Ledger.outstanding (b : Ledger) : Multiset SanitizedCameraEvent :=
  b.accepted - (b.displaced + b.matched)

/-- What of it is not too old. -/
def Ledger.live (limits : Limits) (now : Instant) (b : Ledger) : Multiset SanitizedCameraEvent :=
  b.outstanding.filter fun event => expired limits now event.receivedAt.utc = false

/-- The ledger after a call. -/
def Ledger.enter (limits : Limits) (s : State) (b : Ledger) : Call → Ledger
  | .record event now =>
      if (record limits event now s).1 = .accepted then
        { b with
          accepted := event ::ₘ b.accepted
          displaced := b.displaced +
            (event ::ₘ ((prune limits now.utc s).events : Multiset SanitizedCameraEvent) -
              ((record limits event now s).2.events : Multiset SanitizedCameraEvent)) }
      else b
  | .correlate receivedAt now =>
      { b with
        matched := b.matched +
          (((prune limits now.utc s).events : Multiset SanitizedCameraEvent) -
            ((correlate limits receivedAt now s).2.events : Multiset SanitizedCameraEvent)) }

/-- The ledger of a run. -/
def ledger (limits : Limits) (calls : List Call) : Ledger :=
  (calls.foldl (fun p call => (step limits p.1 call, p.2.enter limits p.1 call))
    (({}, {}) : State × Ledger)).2

/-- The calls are made one after the other. -/
def Chronological (calls : List Call) : Prop :=
  calls.Pairwise fun earlier later => earlier.now.utc ≤ later.now.utc

/-- All events that are recorded have a time zone. -/
def Aware (calls : List Call) : Prop :=
  ∀ event now, .record event now ∈ calls → event.receivedAt.offset ≠ none

variable {limits : Limits} {s : State} {b : Ledger}

theorem ledger_concat (calls : List Call) (call : Call) :
    ledger limits (calls ++ [call]) = (ledger limits calls).enter limits (run limits calls) call := by
  have hstate : (calls.foldl (fun p call => (step limits p.1 call, p.2.enter limits p.1 call))
      (({}, {}) : State × Ledger)).1 = run limits calls := by
    induction calls using List.reverseRecOn with
    | nil => rfl
    | append_singleton calls call ih => simp only [List.foldl_append, List.foldl_cons,
        List.foldl_nil, ih, run_concat]
  simp only [ledger, List.foldl_append, List.foldl_cons, List.foldl_nil, hstate]

/-! ## The balance of a call -/

/-- Some come in and some go: who is there are those that came in and did not go. -/
theorem settle {α : Type} [DecidableEq α] {p : α → Prop} [DecidablePred p]
    {came gone new before after : Multiset α} (hgone : gone ≤ came)
    (hbefore : before = (came - gone).filter p) (hnew : ∀ a ∈ new, p a)
    (hafter : after ≤ new + before) :
    gone + (new + before - after) ≤ new + came ∧
      after = (new + came - (gone + (new + before - after))).filter p := by
  have hcount : ∀ a, Multiset.count a before =
      if p a then Multiset.count a came - Multiset.count a gone else 0 := by
    intro a
    rw [hbefore, Multiset.count_filter, Multiset.count_sub]
  constructor
  · rw [Multiset.le_iff_count]
    intro a
    have h₁ := Multiset.le_iff_count.1 hgone a
    have h₂ := hcount a
    simp only [Multiset.count_add, Multiset.count_sub]
    split at h₂ <;> omega
  · refine Multiset.ext.2 fun a => ?_
    have h₁ := Multiset.le_iff_count.1 hgone a
    have h₂ := hcount a
    have h₃ := Multiset.le_iff_count.1 hafter a
    rw [Multiset.count_add] at h₃
    simp only [Multiset.count_filter, Multiset.count_add, Multiset.count_sub]
    split
    · next hp =>
      rw [if_pos hp] at h₂
      omega
    · next hp =>
      rw [if_neg hp] at h₂
      have hzero : Multiset.count a new = 0 :=
        Multiset.count_eq_zero_of_notMem fun hmem => hp (hnew a hmem)
      omega

/-- The queue holds what is live, and no more has gone than came. -/
structure Balanced (limits : Limits) (now : Instant) (s : State) (b : Ledger) : Prop where
  gone : b.displaced + b.matched ≤ b.accepted
  queue : (s.events : Multiset SanitizedCameraEvent) = b.live limits now

/-- The queue still holds what is live after the old ones are dropped. -/
theorem Balanced.prune {now now' : Instant} (h : Balanced limits now s b) (hle : now ≤ now') :
    Balanced limits now' (prune limits now' s) b where
  gone := h.gone
  queue := by
    have hevents : ((ReolinkEventCorrelator.prune limits now' s).events :
        Multiset SanitizedCameraEvent) = Multiset.filter
          (fun event => expired limits now' event.receivedAt.utc = false) s.events := by
      rw [Multiset.filter_coe, ReolinkEventCorrelator.prune]
      simp
    rw [hevents, h.queue, Ledger.live, Multiset.filter_filter, Ledger.live]
    refine Multiset.filter_congr fun event _ => ⟨And.left, fun hyoung => ⟨hyoung, ?_⟩⟩
    cases hold : expired limits now event.receivedAt.utc with
    | false => rfl
    | true => rw [expired_mono hle hold] at hyoung; cases hyoung

/-- An event is accepted. -/
theorem Balanced.accept {now : Instant} {event : SanitizedCameraEvent} (h : Balanced limits now s b)
    (hyoung : expired limits now event.receivedAt.utc = false) :
    Balanced limits now (accept limits event s)
      { b with
        accepted := event ::ₘ b.accepted
        displaced := b.displaced + (event ::ₘ (s.events : Multiset SanitizedCameraEvent) -
          ((ReolinkEventCorrelator.accept limits event s).events :
            Multiset SanitizedCameraEvent)) } := by
  have hle : ((ReolinkEventCorrelator.accept limits event s).events :
      Multiset SanitizedCameraEvent) ≤ {event} + (s.events : Multiset SanitizedCameraEvent) := by
    rw [add_comm]
    exact (keepNewest_sublist _ _).subperm
  obtain ⟨hgone, hqueue⟩ := settle h.gone h.queue (by simpa using hyoung) hle
  rw [Multiset.singleton_add, Multiset.singleton_add] at hgone hqueue
  refine ⟨?_, ?_⟩
  · change b.displaced + _ + b.matched ≤ event ::ₘ b.accepted
    rw [add_right_comm]
    exact hgone
  · change _ = Multiset.filter _ (event ::ₘ b.accepted - (b.displaced + _ + b.matched))
    rw [add_right_comm]
    exact hqueue

/-- Events are taken out. -/
theorem Balanced.take {now : Instant} {s' : State} (h : Balanced limits now s b)
    (hle : (s'.events : Multiset SanitizedCameraEvent) ≤ s.events) :
    Balanced limits now s' { b with
      matched := b.matched + ((s.events : Multiset SanitizedCameraEvent) - s'.events) } := by
  obtain ⟨hgone, hqueue⟩ := @settle _ _ _ _ _ _ 0 _ s'.events h.gone h.queue (by simp)
    (by rwa [zero_add])
  rw [zero_add, zero_add] at hgone hqueue
  refine ⟨?_, ?_⟩
  · change b.displaced + (b.matched + _) ≤ b.accepted
    rw [← add_assoc]
    exact hgone
  · change _ = Multiset.filter _ (b.accepted - (b.displaced + (b.matched + _)))
    rw [← add_assoc]
    exact hqueue

/-- `correlate` only takes events out. -/
theorem correlate_events_le (receivedAt now : DateTime) :
    ((correlate limits receivedAt now s).2.events : Multiset SanitizedCameraEvent) ≤
      (ReolinkEventCorrelator.prune limits now.utc s).events := by
  rcases correlate_cases limits s receivedAt now with ⟨x, heq⟩ | ⟨-, heq⟩ | ⟨event, -, heq⟩
  · rw [heq]
  · rw [heq]
  · rw [heq]
    exact List.erase_sublist.subperm

/-- A call at its time, on a queue without old events. -/
theorem Balanced.call {call : Call}
    (h : Balanced limits call.now.utc (ReolinkEventCorrelator.prune limits call.now.utc s) b) :
    Balanced limits call.now.utc (step limits s call) (b.enter limits s call) := by
  cases call with
  | record event now =>
      change Balanced limits now.utc (record limits event now s).2 (b.enter limits s _)
      rcases record_cases limits s event now with ⟨-, heq⟩ | ⟨-, -, heq⟩ | ⟨hfresh, -, heq⟩
      · rw [Ledger.enter, heq, if_neg nofun]
        exact h
      · rw [Ledger.enter, heq, if_neg nofun]
        exact h
      · rw [Ledger.enter, heq, if_pos rfl]
        simp only [stale, outside, Bool.or_eq_false_iff] at hfresh
        exact Balanced.accept h hfresh.1.1
  | correlate receivedAt now => exact Balanced.take h (correlate_events_le receivedAt now)

/-- The queue of a run, at any time after its last call. -/
theorem balanced_run {calls : List Call} (h : Chronological calls) {now : Instant}
    (hnow : ∀ call ∈ calls, call.now.utc ≤ now) :
    Balanced limits now (ReolinkEventCorrelator.prune limits now (run limits calls))
      (ledger limits calls) := by
  induction calls using List.reverseRecOn generalizing now with
  | nil => exact ⟨le_refl _, rfl⟩
  | append_singleton calls call ih =>
      obtain ⟨hcalls, -, hlast⟩ := List.pairwise_append.1 h
      have hbefore := ih hcalls fun earlier hmem => hlast earlier hmem call List.mem_cons_self
      rw [run_concat, ledger_concat]
      exact hbefore.call.prune
        (hnow call (List.mem_append_right _ List.mem_cons_self))

/-! ## Bounds -/

theorem length_prune_events_le (now : Instant) :
    (ReolinkEventCorrelator.prune limits now s).events.length ≤ s.events.length :=
  List.length_filter_le _ _

/-- The queue is bounded. -/
theorem length_events_le (calls : List Call) :
    (run limits calls).events.length ≤ limits.maxEvents := by
  induction calls using List.reverseRecOn with
  | nil => exact Nat.zero_le _
  | append_singleton calls call ih =>
      rw [run_concat]
      rcases step_cases limits (run limits calls) call with heq | ⟨event, now, -, -, -, heq⟩ |
        ⟨receivedAt, now, event, -, -, heq⟩
      · exact heq ▸ (length_prune_events_le _).trans ih
      · exact heq ▸ length_keepNewest_le _ _
      · exact heq ▸ (List.length_erase_le.trans (length_prune_events_le _)).trans ih

/-- Pending events have a time zone if all that were recorded have one. -/
theorem aware_run {calls : List Call} (h : Aware calls) :
    ∀ event ∈ (run limits calls).events, event.receivedAt.offset ≠ none := by
  induction calls using List.reverseRecOn with
  | nil => nofun
  | append_singleton calls call ih =>
      have hold := ih fun event now hmem => h event now (List.mem_append_left _ hmem)
      have hpruned : ∀ event ∈ (ReolinkEventCorrelator.prune limits call.now.utc
          (run limits calls)).events, event.receivedAt.offset ≠ none :=
        fun event hevent => hold event (mem_prune_events.1 hevent).1
      rw [run_concat]
      rcases step_cases limits (run limits calls) call with heq | ⟨new, now, rfl, -, -, heq⟩ |
        ⟨receivedAt, now, taken, rfl, -, heq⟩
      · exact heq ▸ hpruned
      · rw [heq]
        intro event hevent
        rcases List.mem_append.1 ((keepNewest_sublist _ _).subset hevent) with hin | hself
        · exact hpruned event hin
        · cases List.mem_singleton.1 hself
          exact h new now (List.mem_append_right _ List.mem_cons_self)
      · rw [heq]
        exact fun event hevent => hpruned event (List.mem_of_mem_erase hevent)

/-! ## Correlation -/

/-- The burst is credited to the nearest live event, and to nothing if none is near. -/
structure Correlates (limits : Limits) (receivedAt now : DateTime) (s : State)
    (live : Multiset SanitizedCameraEvent) : Prop where
  /-- A burst is matched if and only if a live event is near. -/
  iff : (∃ trigger, (correlate limits receivedAt now s).1 = .ok trigger ∧
      trigger.correlation = "matched") ↔ ∃ event ∈ live, near limits receivedAt.utc event = true
  /-- The event is the nearest one, and it alone is taken out. -/
  matched : (∃ event ∈ live, near limits receivedAt.utc event = true) →
    ∃ event ∈ live, near limits receivedAt.utc event = true ∧
      (∀ other ∈ live, near limits receivedAt.utc other = true →
        key receivedAt.utc event ≤ key receivedAt.utc other) ∧
      (correlate limits receivedAt now s).1 = .ok (matchedTrigger receivedAt.utc event) ∧
      event ::ₘ ((correlate limits receivedAt now s).2.events :
        Multiset SanitizedCameraEvent) = live
  /-- Otherwise no event is lost. -/
  fallback : (¬ ∃ event ∈ live, near limits receivedAt.utc event = true) →
    (correlate limits receivedAt now s).1 = .ok ftpFallbackTrigger ∧
      ((correlate limits receivedAt now s).2.events : Multiset SanitizedCameraEvent) = live

/-- `correlate` on a queue that holds the live events. -/
theorem Balanced.correlates {receivedAt now : DateTime}
    (h : Balanced limits now.utc (ReolinkEventCorrelator.prune limits now.utc s) b)
    (haware : ∀ event ∈ s.events, event.receivedAt.offset ≠ none) :
    Correlates limits receivedAt now s (b.live limits now.utc) := by
  rw [← h.queue]
  rcases correlate_cases limits s receivedAt now with ⟨x, heq⟩ | ⟨hnone, heq⟩ | ⟨event, hnear, heq⟩
  · have hany : ((ReolinkEventCorrelator.prune limits now.utc s).events.any
        fun event => event.receivedAt.offset.isNone) = false := by
      rw [List.any_eq_false]
      intro event hevent
      rw [Option.isNone_iff_eq_none]
      exact haware event (mem_prune_events.1 hevent).1
    cases hnear : nearest limits receivedAt.utc
        (ReolinkEventCorrelator.prune limits now.utc s).events <;>
      simp [correlate, hany, hnear] at heq
  · have hfar : ¬ ∃ event ∈ ((ReolinkEventCorrelator.prune limits now.utc s).events :
        Multiset SanitizedCameraEvent), near limits receivedAt.utc event = true := by
      rintro ⟨event, hmem, hevent⟩
      rw [nearest_eq_none_iff.1 hnone event hmem] at hevent
      cases hevent
    refine ⟨⟨?_, fun hex => absurd hex hfar⟩, fun hex => absurd hex hfar, fun _ => ?_⟩
    · rintro ⟨trigger, htrigger, hmatched⟩
      rw [heq] at htrigger
      cases htrigger
      exact absurd hmatched (by decide)
    · rw [heq]
      exact ⟨rfl, rfl⟩
  · obtain ⟨hin, hclose, hleast⟩ := nearest_spec hnear
    have hex : ∃ event ∈ ((ReolinkEventCorrelator.prune limits now.utc s).events :
        Multiset SanitizedCameraEvent), near limits receivedAt.utc event = true :=
      ⟨event, hin, hclose⟩
    refine ⟨⟨fun _ => hex, fun _ => ⟨_, congrArg Prod.fst heq, rfl⟩⟩, fun _ => ?_,
      fun hnex => absurd hex hnex⟩
    refine ⟨event, hin, hclose, hleast, congrArg Prod.fst heq, ?_⟩
    rw [heq, ← Multiset.coe_erase]
    exact Multiset.cons_erase hin

/-- Something is displaced only where the queue is full. -/
theorem displaced_full {event : SanitizedCameraEvent} {now : DateTime}
    (h : (b.enter limits s (.record event now)).displaced ≠ b.displaced) :
    (record limits event now s).2.events.length = limits.maxEvents := by
  rcases record_cases limits s event now with ⟨-, heq⟩ | ⟨-, -, heq⟩ | ⟨-, -, heq⟩
  · simp [Ledger.enter, heq] at h
  · simp [Ledger.enter, heq] at h
  · rw [heq]
    refine le_antisymm (length_keepNewest_le _ _) (Nat.le_of_not_lt fun hlt => h ?_)
    have hlen : ((ReolinkEventCorrelator.prune limits now.utc s).events ++ [event]).length ≤
        limits.maxEvents := by
      simp only [accept, keepNewest, List.length_drop] at hlt
      omega
    have hkept : ((accept limits event (ReolinkEventCorrelator.prune limits now.utc s)).events :
        Multiset SanitizedCameraEvent) =
          event ::ₘ ((ReolinkEventCorrelator.prune limits now.utc s).events :
            Multiset SanitizedCameraEvent) := by
      rw [accept, keepNewest_of_le hlen, ← Multiset.coe_add, add_comm]
      exact Multiset.singleton_add _ _
    simp only [Ledger.enter, heq, if_true, hkept]
    refine Multiset.ext.2 fun a => ?_
    rw [Multiset.count_add, Multiset.count_sub, Nat.sub_self, Nat.add_zero]

/-- After calls in the order of their times, a burst is credited to the nearest event that was
accepted, was not matched or displaced before and is not too old.  The queue and the table of
duplicates are bounded, and a call displaces events only if it leaves the queue full. -/
theorem correlates_live (limits : Limits) (calls : List Call) (receivedAt now : DateTime)
    (horder : Chronological (calls ++ [.correlate receivedAt now])) (haware : Aware calls) :
    Correlates limits receivedAt now (run limits calls)
      ((ledger limits calls).live limits now.utc) ∧
    (run limits calls).events.length ≤ limits.maxEvents ∧
    (run limits calls).seen.length ≤ 2 * limits.maxEvents ∧
    ∀ event now', ((ledger limits calls).enter limits (run limits calls)
        (.record event now')).displaced ≠ (ledger limits calls).displaced →
      (record limits event now' (run limits calls)).2.events.length = limits.maxEvents := by
  obtain ⟨hcalls, -, hlast⟩ := List.pairwise_append.1 horder
  have hbalanced := @balanced_run limits _ hcalls _
    fun call hmem => hlast call hmem _ List.mem_cons_self
  refine ⟨hbalanced.correlates (aware_run haware), length_events_le calls, ?_,
    fun event now' => displaced_full⟩
  rw [Nat.mul_comm]
  exact (tabled_run calls).bounded

/-! ### Two events and a burst -/

namespace Credited

open Forgotten

/-- Two events arrive, a burst is credited to the second one, and another burst comes. -/
def calls : List Call :=
  [.record (arriving "first" 0) noon, .record (arriving "second" 2) noon,
    .correlate ⟨noon.utc + 2, some 0⟩ noon]

theorem correlates_live_first :
    Correlates {} noon noon (run {} calls) ((ledger {} calls).live {} noon.utc) ∧
      (run {} calls).events.length ≤ ({} : Limits).maxEvents ∧
      (run {} calls).seen.length ≤ 2 * ({} : Limits).maxEvents ∧
      ∀ event now, ((ledger {} calls).enter {} (run {} calls)
          (.record event now)).displaced ≠ (ledger {} calls).displaced →
        (record {} event now (run {} calls)).2.events.length = ({} : Limits).maxEvents := by
  refine correlates_live {} calls noon noon ?_ ?_
  · unfold Chronological
    decide +kernel
  · intro event now hmem
    simp only [calls, List.mem_cons, List.not_mem_nil, or_false, Call.record.injEq,
      reduceCtorEq] at hmem
    rcases hmem with ⟨rfl, -⟩ | ⟨rfl, -⟩ <;> nofun

end Credited

end ReolinkEventCorrelator

end GateController

import GateController.Models
import Mathlib.Data.List.Induction
import Mathlib.Data.List.Nodup
import Mathlib.Data.Prod.Lex
import Mathlib.Data.String.Basic

/-!
# The correlator of camera events

`ReolinkEventCorrelator` keeps the camera events that no burst was credited to
yet, and the ids of the events it has accepted lately.  `record` and `correlate`
run under one lock, so a call is one step.  Both first drop what is older than
the time to live.

A time without a zone is read as UTC.  `correlate` subtracts the arrival times
of the pending events as they were recorded, so one without a zone raises there.
-/

namespace GateController

open Data

/-- A camera event, without what tells cameras apart. -/
structure SanitizedCameraEvent where
  eventId : String
  eventType : String
  ruleId : Option String
  receivedAt : DateTime
  eventAt : Option DateTime := none
deriving DecidableEq

/-- What a burst is reported to be triggered by. -/
structure TriggerTelemetry where
  source : String
  eventType : String
  correlation : String
  ruleId : Option String := none
  eventAt : Option DateTime := none
  /-- The distance in milliseconds. -/
  deltaMs : Option ℚ := none
deriving DecidableEq

/-- `ftp_fallback_trigger`. -/
def ftpFallbackTrigger : TriggerTelemetry where
  source := "camera_ftp"
  eventType := "unverified"
  correlation := "unverified"

namespace ReolinkEventCorrelator

/-- The parameters of a correlator, with times in microseconds. -/
structure Limits where
  ttl : Int := 15000000
  window : Int := 5000000
  maxEvents : Nat := 64

/-- `_max_seen`. -/
def Limits.maxSeen (limits : Limits) : Nat := limits.maxEvents * 2

/-- The pending events and the ids that are remembered, oldest first. -/
structure State where
  events : List SanitizedCameraEvent := []
  seen : List (String × Instant) := []

/-- `now - at_`. -/
def age (now at_ : Instant) : Int := now.val - at_.val

/-- Older than the time to live. -/
def expired (limits : Limits) (now at_ : Instant) : Bool := decide (limits.ttl < age now at_)

/-- `_prune`. -/
def prune (limits : Limits) (now : Instant) (s : State) : State where
  events := s.events.filter fun event => !expired limits now event.receivedAt.utc
  seen := s.seen.filter fun entry => !expired limits now entry.2

/-- Drop from the front what exceeds a capacity. -/
def keepNewest {α : Type} (capacity : Nat) (l : List α) : List α := l.drop (l.length - capacity)

/-- What `record` returns. -/
inductive Recording where
  | accepted
  | stale
  | duplicate
deriving DecidableEq

/-- Too old, or too far ahead. -/
def outside (limits : Limits) (now at_ : Instant) : Bool :=
  expired limits now at_ || decide (age now at_ < -limits.window)

/-- Whether the arrival of the event or the time of its alarm is out of bounds. -/
def stale (limits : Limits) (event : SanitizedCameraEvent) (now : Instant) : Bool :=
  outside limits now event.receivedAt.utc ||
    event.eventAt.any fun eventAt => outside limits now eventAt.utc

/-- Whether the id of an event is remembered. -/
def remembers (s : State) (eventId : String) : Bool := s.seen.any fun entry => entry.1 == eventId

/-- An event that is accepted. -/
def accept (limits : Limits) (event : SanitizedCameraEvent) (s : State) : State where
  events := keepNewest limits.maxEvents (s.events ++ [event])
  seen := keepNewest limits.maxSeen (s.seen ++ [(event.eventId, event.receivedAt.utc)])

/-- `record`. -/
def record (limits : Limits) (event : SanitizedCameraEvent) (now : DateTime) (s : State) :
    Recording × State :=
  let s := prune limits now.utc s
  if stale limits event now.utc then (.stale, s)
  else if remembers s event.eventId then (.duplicate, s)
  else (.accepted, accept limits event s)

/-- `abs(event.received_at - received_at)`, in microseconds. -/
def distance (receivedAt : Instant) (event : SanitizedCameraEvent) : Nat :=
  (age event.receivedAt.utc receivedAt).natAbs

/-- Whether a burst may be credited to the event. -/
def near (limits : Limits) (receivedAt : Instant) (event : SanitizedCameraEvent) : Bool :=
  decide ((distance receivedAt event : Int) ≤ limits.window)

/-- The key of `min`: the distance, the arrival and the id. -/
def key (receivedAt : Instant) (event : SanitizedCameraEvent) : ℕ ×ₗ ℕ ×ₗ String :=
  toLex (distance receivedAt event, toLex (event.receivedAt.utc.val, event.eventId))

/-- The event that a burst is credited to. -/
def nearest (limits : Limits) (receivedAt : Instant) (events : List SanitizedCameraEvent) :
    Option SanitizedCameraEvent :=
  (events.filter (near limits receivedAt)).minOn? (key receivedAt)

/-- The trigger of a burst that is credited to an event. -/
def matchedTrigger (receivedAt : Instant) (event : SanitizedCameraEvent) : TriggerTelemetry where
  source := "reolink_webhook"
  eventType := event.eventType
  ruleId := event.ruleId
  correlation := "matched"
  eventAt := event.eventAt
  deltaMs := some (distance receivedAt event / 1000)

/-- `correlate`. -/
def correlate (limits : Limits) (receivedAt now : DateTime) (s : State) :
    Except Exc TriggerTelemetry × State :=
  let s := prune limits now.utc s
  if s.events.any fun event => event.receivedAt.offset.isNone then
    (.error (.typeError "can't subtract offset-naive and offset-aware datetimes"), s)
  else
    match nearest limits receivedAt.utc s.events with
    | none => (.ok ftpFallbackTrigger, s)
    | some event =>
        (.ok (matchedTrigger receivedAt.utc event), { s with events := s.events.erase event })

/-- A call of the correlator. -/
inductive Call where
  | record (event : SanitizedCameraEvent) (now : DateTime)
  | correlate (receivedAt now : DateTime)

/-- The time of a call. -/
def Call.now : Call → DateTime
  | .record _ now => now
  | .correlate _ now => now

/-- The state after a call. -/
def step (limits : Limits) (s : State) : Call → State
  | .record event now => (record limits event now s).2
  | .correlate receivedAt now => (correlate limits receivedAt now s).2

/-- The state after some calls, the first one first. -/
def run (limits : Limits) (calls : List Call) : State := calls.foldl (step limits) {}

/-! ## What the operations do to the lists -/

variable {limits : Limits} {s : State} {now : Instant}

@[simp] theorem run_nil : run limits [] = {} := rfl

theorem run_concat (calls : List Call) (call : Call) :
    run limits (calls ++ [call]) = step limits (run limits calls) call := by
  simp [run]

theorem keepNewest_sublist {α : Type} (capacity : Nat) (l : List α) :
    (keepNewest capacity l).Sublist l :=
  List.drop_sublist _ _

theorem length_keepNewest_le {α : Type} (capacity : Nat) (l : List α) :
    (keepNewest capacity l).length ≤ capacity := by
  simp only [keepNewest, List.length_drop]
  omega

/-- Nothing is dropped below the capacity. -/
theorem keepNewest_of_le {α : Type} {capacity : Nat} {l : List α} (h : l.length ≤ capacity) :
    keepNewest capacity l = l := by
  rw [keepNewest, Nat.sub_eq_zero_of_le h, List.drop_zero]

theorem mem_prune_events {event : SanitizedCameraEvent} :
    event ∈ (prune limits now s).events ↔
      event ∈ s.events ∧ expired limits now event.receivedAt.utc = false := by
  simp [prune]

theorem mem_prune_seen {entry : String × Instant} :
    entry ∈ (prune limits now s).seen ↔
      entry ∈ s.seen ∧ expired limits now entry.2 = false := by
  simp [prune]

theorem remembers_iff {eventId : String} :
    remembers s eventId = true ↔ ∃ at_, (eventId, at_) ∈ s.seen := by
  simp only [remembers, List.any_eq_true, beq_iff_eq]
  constructor
  · rintro ⟨⟨id, at_⟩, hmem, rfl⟩
    exact ⟨at_, hmem⟩
  · rintro ⟨at_, hmem⟩
    exact ⟨(eventId, at_), hmem, rfl⟩

/-- What is expired stays expired. -/
theorem expired_mono {now' at_ : Instant} (hle : now ≤ now') (h : expired limits now at_ = true) :
    expired limits now' at_ = true := by
  have hval : now.val ≤ now'.val := hle
  have hold : limits.ttl < age now at_ := of_decide_eq_true h
  refine decide_eq_true ?_
  unfold age at hold ⊢
  omega

/-- The three outcomes of `record`. -/
theorem record_cases (limits : Limits) (s : State) (event : SanitizedCameraEvent)
    (now : DateTime) :
    (stale limits event now.utc = true ∧
      record limits event now s = (.stale, prune limits now.utc s)) ∨
    (stale limits event now.utc = false ∧
      remembers (prune limits now.utc s) event.eventId = true ∧
      record limits event now s = (.duplicate, prune limits now.utc s)) ∨
    (stale limits event now.utc = false ∧
      remembers (prune limits now.utc s) event.eventId = false ∧
      record limits event now s = (.accepted, accept limits event (prune limits now.utc s))) := by
  cases hstale : stale limits event now.utc with
  | true => exact .inl ⟨rfl, by simp [record, hstale]⟩
  | false =>
      cases hseen : remembers (prune limits now.utc s) event.eventId with
      | true => exact .inr (.inl ⟨rfl, rfl, by simp [record, hstale, hseen]⟩)
      | false => exact .inr (.inr ⟨rfl, rfl, by simp [record, hstale, hseen]⟩)

/-- The three outcomes of `correlate`. -/
theorem correlate_cases (limits : Limits) (s : State) (receivedAt now : DateTime) :
    (∃ x, correlate limits receivedAt now s = (.error x, prune limits now.utc s)) ∨
    (nearest limits receivedAt.utc (prune limits now.utc s).events = none ∧
      correlate limits receivedAt now s = (.ok ftpFallbackTrigger, prune limits now.utc s)) ∨
    ∃ event, nearest limits receivedAt.utc (prune limits now.utc s).events = some event ∧
      correlate limits receivedAt now s = (.ok (matchedTrigger receivedAt.utc event),
        { prune limits now.utc s with events := (prune limits now.utc s).events.erase event }) := by
  cases hnaive : (prune limits now.utc s).events.any fun event => event.receivedAt.offset.isNone with
  | true => exact .inl ⟨_, by simp [correlate, hnaive]; rfl⟩
  | false =>
      cases hnear : nearest limits receivedAt.utc (prune limits now.utc s).events with
      | none => exact .inr (.inl ⟨rfl, by simp [correlate, hnaive, hnear]⟩)
      | some event => exact .inr (.inr ⟨event, rfl, by simp [correlate, hnaive, hnear]⟩)

/-- What a call does to the lists. -/
theorem step_cases (limits : Limits) (s : State) (call : Call) :
    step limits s call = prune limits call.now.utc s ∨
    (∃ event now, call = .record event now ∧ stale limits event now.utc = false ∧
      remembers (prune limits now.utc s) event.eventId = false ∧
      step limits s call = accept limits event (prune limits now.utc s)) ∨
    ∃ receivedAt now event, call = .correlate receivedAt now ∧
      nearest limits receivedAt.utc (prune limits now.utc s).events = some event ∧
      step limits s call = { prune limits now.utc s with
        events := (prune limits now.utc s).events.erase event } := by
  cases call with
  | record event now =>
      rcases record_cases limits s event now with
        ⟨-, heq⟩ | ⟨-, -, heq⟩ | ⟨hfresh, hnew, heq⟩
      · exact .inl (congrArg Prod.snd heq)
      · exact .inl (congrArg Prod.snd heq)
      · exact .inr (.inl ⟨event, now, rfl, hfresh, hnew, congrArg Prod.snd heq⟩)
  | correlate receivedAt now =>
      rcases correlate_cases limits s receivedAt now with
        ⟨x, heq⟩ | ⟨-, heq⟩ | ⟨event, hnear, heq⟩
      · exact .inl (congrArg Prod.snd heq)
      · exact .inl (congrArg Prod.snd heq)
      · exact .inr (.inr ⟨receivedAt, now, event, rfl, hnear, congrArg Prod.snd heq⟩)

/-- The events that `nearest` chooses from. -/
theorem nearest_eq_none_iff {receivedAt : Instant} {events : List SanitizedCameraEvent} :
    nearest limits receivedAt events = none ↔
      ∀ event ∈ events, near limits receivedAt event = false := by
  rw [nearest, ← Option.not_isSome_iff_eq_none, List.isSome_minOn?_iff, not_not,
    List.filter_eq_nil_iff]
  simp

theorem nearest_spec {receivedAt : Instant} {events : List SanitizedCameraEvent}
    {event : SanitizedCameraEvent} (h : nearest limits receivedAt events = some event) :
    event ∈ events ∧ near limits receivedAt event = true ∧
      ∀ other ∈ events, near limits receivedAt other = true →
        key receivedAt event ≤ key receivedAt other := by
  have hmem : event ∈ events.filter (near limits receivedAt) := List.minOn?_mem h
  obtain ⟨hin, hnear⟩ := List.mem_filter.1 hmem
  refine ⟨hin, hnear, fun other hother hn => ?_⟩
  have hle := List.apply_get_minOn?_le_of_mem (f := key receivedAt)
    (List.mem_filter.2 ⟨hother, hn⟩)
  simp only [nearest] at h
  simpa only [h, Option.get_some] using hle

end ReolinkEventCorrelator

end GateController

import GateController.Models
import GateController.Data.Recency
import Mathlib.Data.Rat.Defs

/-!
# The burst collector

`BurstCollector` gathers uploads until none has come for a quiet window, ranks
them and emits what is left as one burst.  `add` and the first half of
`flush_due` run under its lock, so each is one step of a state machine.  What a
step reads from outside, the clocks, the file and the ranking, is an argument of
it.

A burst is identified by the content of the upload that began it, read when it
arrived.  The upload itself may be gone by the time the burst is emitted: it can
be given up for a newer one, or ranked out.  The results of this module say what
the emitted burst has to do with the uploads: which identity it carries and
which of them stands first.
-/

namespace GateController

open Data

/-- The `hexdigest` of a file's content. -/
structure Digest where
  text : String
  nonempty : text ≠ ""
deriving DecidableEq

/-- The parameters of a `BurstCollector`. -/
structure CollectorConfig where
  quietWindow : ℚ := 1 / 2
  includeReceivedAt : Bool := false
  includeDecisionStartedAt : Bool := false
  includeProcessingStartedAt : Bool := false
  includeIdempotencyKey : Bool := false
  preferFirstCandidate : Bool := false
  maxCandidates : Nat := 8
  inRange : 1 ≤ maxCandidates ∧ maxCandidates ≤ 16 := by decide

/-- The collector that `run_worker` builds. -/
def CollectorConfig.ofWorker (quietWindow : ℚ) (maxCandidates : Nat)
    (inRange : 1 ≤ maxCandidates ∧ maxCandidates ≤ 16) : CollectorConfig where
  quietWindow := quietWindow
  includeReceivedAt := true
  includeDecisionStartedAt := true
  includeProcessingStartedAt := true
  includeIdempotencyKey := true
  preferFirstCandidate := true
  maxCandidates := maxCandidates
  inRange := inRange

/-- The fields of a `BurstCollector`. -/
structure BurstCollector where
  pending : List String := []
  receivedAt : Option DateTime := none
  idempotencyKey : Option Digest := none
  firstSeen : Option ℚ := none
  deadline : Option ℚ := none

/-- A call of `add`, with what it reads. -/
structure Arrival where
  path : String
  receivedAt : Option DateTime := none
  /-- `arrival_clock()`. -/
  arrivedAt : DateTime
  /-- The clock when the first candidate is seen. -/
  seenAt : ℚ
  /-- The clock when the deadline is set. -/
  addedAt : ℚ
  /-- `content_digest(path)`, or none if the file cannot be read. -/
  digest : Option Digest
deriving DecidableEq

/-- What an upload leaves in a collector: the fields, the path that was given up
for it, and whether it was the first of its burst. -/
structure Added where
  collector : BurstCollector
  dropped : Option String
  firstCandidate : Bool

/-- What `flush_due` hands to `emit`.  An entry is there if the collector includes
it. -/
structure Burst where
  paths : List String
  receivedAt : Option DateTime
  decisionStartedAt : Option ℚ
  processingStartedAt : Option DateTime
  identity : Option Digest
deriving DecidableEq

namespace BurstCollector

/-! ## Adding -/

/-- The fields that the first candidate of a burst sets, and that a later one may
correct. -/
def observe (cfg : CollectorConfig) (c : BurstCollector) (a : Arrival) : BurstCollector :=
  if c.pending = [] then
    { c with
      receivedAt := some (a.receivedAt.getD a.arrivedAt)
      firstSeen := some a.seenAt
      idempotencyKey := if cfg.includeIdempotencyKey then a.digest else c.idempotencyKey }
  else
    match a.receivedAt, c.receivedAt with
    | some receivedAt, some current =>
        if receivedAt.utc < current.utc then { c with receivedAt := some receivedAt } else c
    | _, _ => c

/-- `add`. -/
def add (cfg : CollectorConfig) (c : BurstCollector) (a : Arrival) : Added :=
  let observed := c.observe cfg a
  let moved := observed.pending.erase a.path ++ [a.path]
  let overfull := cfg.maxCandidates < moved.length
  { collector := { observed with
      pending := if overfull then moved.tail else moved
      deadline := some (a.addedAt + cfg.quietWindow) }
    dropped := if overfull then moved.head? else none
    firstCandidate := c.pending.isEmpty }

/-- `remaining_capacity`. -/
def remainingCapacity (cfg : CollectorConfig) (c : BurstCollector) : Nat :=
  cfg.maxCandidates - c.pending.length

/-! ## Flushing -/

/-- Whether the deadline has passed. -/
def due (c : BurstCollector) (now : ℚ) : Bool := c.deadline.any fun deadline => deadline ≤ now

/-- The ranking with the oldest candidate in front, if that is wanted and it is
ranked at all. -/
def order (cfg : CollectorConfig) (pending ranked : List String) : List String :=
  match pending with
  | [] => ranked
  | primary :: _ =>
      if cfg.preferFirstCandidate && primary ∈ ranked then
        primary :: ranked.filter (· ≠ primary)
      else ranked

/-- The burst of a collector whose candidates were ranked. -/
def burst (cfg : CollectorConfig) (c : BurstCollector) (now : ℚ) (wall : DateTime)
    (paths : List String) : Burst where
  paths := paths
  receivedAt := if cfg.includeReceivedAt then c.receivedAt else none
  decisionStartedAt := if cfg.includeDecisionStartedAt then some now else none
  processingStartedAt := if cfg.includeProcessingStartedAt then some wall else none
  identity := if cfg.includeIdempotencyKey then c.idempotencyKey else none

/-- What comes of `flush_due`: the fields, the candidates that are removed, and the
burst that is emitted. -/
structure Flushed where
  collector : BurstCollector
  removed : List String
  emitted : Option Burst

/-- `flush_due`. -/
def flushDue (cfg : CollectorConfig) (c : BurstCollector) (now : ℚ) (wall : DateTime)
    (ranker : List String → List String) : Flushed :=
  if c.due now then
    let ranked := order cfg c.pending (ranker c.pending)
    { collector := {}
      removed := c.pending.filter (· ∉ ranked)
      emitted := if ranked = [] then none else some (c.burst cfg now wall ranked) }
  else { collector := c, removed := [], emitted := none }

end BurstCollector

/-! ## Runs -/

/-- A call of the collector. -/
inductive CollectorOp where
  | add (a : Arrival)
  | flushDue (now : ℚ) (wall : DateTime) (ranker : List String → List String)

/-- A collector with the uploads it has been given since it was last emptied. -/
structure Gathering where
  collector : BurstCollector := {}
  arrivals : List Arrival := []

namespace Gathering

/-- One call. -/
def step (cfg : CollectorConfig) (g : Gathering) : CollectorOp → Gathering
  | .add a => ⟨(g.collector.add cfg a).collector, g.arrivals ++ [a]⟩
  | .flushDue now wall ranker =>
      ⟨(g.collector.flushDue cfg now wall ranker).collector,
        if g.collector.due now then [] else g.arrivals⟩

/-- Any calls in any order, from a new collector. -/
def after (cfg : CollectorConfig) (calls : List CollectorOp) : Gathering := calls.foldl (step cfg) {}

/-- What the uploads have to do with the fields. -/
structure Holds (cfg : CollectorConfig) (g : Gathering) : Prop where
  pending : g.collector.pending = recent cfg.maxCandidates (g.arrivals.map Arrival.path)
  key : cfg.includeIdempotencyKey = true →
    g.collector.idempotencyKey = g.arrivals.head?.bind Arrival.digest

end Gathering

/-- The oldest path that is still held, if it is wanted in front and ranked, or else the best
ranked one. -/
def firstEmitted (cfg : CollectorConfig) (arrivals : List Arrival)
    (ranker : List String → List String) : Option String :=
  let held := recent cfg.maxCandidates (arrivals.map Arrival.path)
  (held.head?.filter fun path => cfg.preferFirstCandidate && path ∈ ranker held) <|>
    (ranker held).head?

/-- The digest of the upload that began the burst, as it was when it arrived. -/
def firstDigest (arrivals : List Arrival) : Option Digest := arrivals.head?.bind Arrival.digest

namespace Gathering

variable {cfg : CollectorConfig} {g : Gathering}

theorem holds_empty : ({} : Gathering).Holds cfg := ⟨(recent_nil _).symm, fun _ => rfl⟩

theorem observe_pending (c : BurstCollector) (a : Arrival) :
    (c.observe cfg a).pending = c.pending := by
  unfold BurstCollector.observe
  split
  · rfl
  · split
    · split <;> rfl
    · rfl

theorem observe_key (c : BurstCollector) (a : Arrival) (hkey : cfg.includeIdempotencyKey = true) :
    (c.observe cfg a).idempotencyKey = if c.pending = [] then a.digest else c.idempotencyKey := by
  unfold BurstCollector.observe
  split
  · simp
  · split
    · split <;> rfl
    · rfl

/-- An upload leaves the identity alone or sets it to its own digest. -/
theorem add_key (c : BurstCollector) (a : Arrival) :
    (c.add cfg a).collector.idempotencyKey = c.idempotencyKey ∨
      (c.add cfg a).collector.idempotencyKey = a.digest := by
  simp only [BurstCollector.add]
  by_cases hkey : cfg.includeIdempotencyKey = true
  · rw [observe_key c a hkey]
    split
    · exact .inr rfl
    · exact .inl rfl
  · refine .inl ?_
    unfold BurstCollector.observe
    split
    · simp
    · split
      · split <;> rfl
      · rfl

theorem Holds.add (h : g.Holds cfg) (a : Arrival) : (g.step cfg (.add a)).Holds cfg where
  pending := by
    simp only [step, BurstCollector.add, List.map_append, List.map_cons, List.map_nil]
    rw [recent_concat cfg.inRange.1, ← h.pending, observe_pending]
  key := by
    intro hkey
    simp only [step, BurstCollector.add]
    rw [observe_key _ _ hkey, h.key hkey]
    simp only [h.pending, recent_eq_nil_iff cfg.inRange.1, List.map_eq_nil_iff]
    cases g.arrivals with
    | nil => rfl
    | cons b arrivals => rfl

theorem Holds.flushDue (h : g.Holds cfg) (now : ℚ) (wall : DateTime)
    (ranker : List String → List String) : (g.step cfg (.flushDue now wall ranker)).Holds cfg := by
  simp only [step, BurstCollector.flushDue]
  by_cases hdue : g.collector.due now = true
  · simp only [hdue, if_true]
    exact holds_empty
  · simp only [hdue]
    exact ⟨h.pending, h.key⟩

/-- Whatever was called, the fields are those of the uploads. -/
theorem holds_after (cfg : CollectorConfig) (calls : List CollectorOp) :
    (after cfg calls).Holds cfg := by
  have hrun : ∀ (calls : List CollectorOp) (g : Gathering), g.Holds cfg →
      (calls.foldl (step cfg) g).Holds cfg := by
    intro calls
    induction calls with
    | nil => exact fun g h => h
    | cons call calls ih =>
        intro g h
        cases call with
        | add a => exact ih _ (h.add a)
        | flushDue now wall ranker => exact ih _ (h.flushDue now wall ranker)
  exact hrun calls {} holds_empty

/-- What a burst carries: the digest of the upload that began it, and in front the
path that `firstEmitted` names. -/
theorem emitted_of_flushDue {now : ℚ} {wall : DateTime} {ranker : List String → List String}
    {b : Burst} {k : Digest} (h : g.Holds cfg)
    (hemit : (g.collector.flushDue cfg now wall ranker).emitted = some b)
    (hid : b.identity = some k) :
    firstDigest g.arrivals = some k ∧
      ∃ path rest, b.paths = path :: rest ∧ firstEmitted cfg g.arrivals ranker = some path := by
  unfold BurstCollector.flushDue at hemit
  split at hemit
  next hdue =>
    dsimp only at hemit
    split at hemit
    · cases hemit
    next hne =>
      cases hemit
      simp only [BurstCollector.burst] at hid ⊢
      split at hid
      next hkey =>
        refine ⟨(h.key hkey).symm.trans hid, ?_⟩
        simp only [firstEmitted, ← h.pending]
        revert hne
        unfold BurstCollector.order
        cases g.collector.pending with
        | nil =>
            intro hne
            obtain ⟨path, rest, heq⟩ := List.exists_cons_of_ne_nil hne
            exact ⟨path, rest, heq, by simp [heq]⟩
        | cons primary others =>
            intro hne
            simp only at hne ⊢
            by_cases hfirst : (cfg.preferFirstCandidate &&
                decide (primary ∈ ranker (primary :: others))) = true
            · rw [if_pos hfirst]
              exact ⟨primary, _, rfl, by simp only [List.head?_cons, Option.filter, hfirst]; rfl⟩
            · rw [if_neg hfirst] at hne ⊢
              obtain ⟨path, rest, heq⟩ := List.exists_cons_of_ne_nil hne
              refine ⟨path, rest, heq, ?_⟩
              rw [heq] at hfirst
              simp only [List.head?_cons, Option.filter, heq, if_neg hfirst]
              rfl
      · cases hid
  · cases hemit

end Gathering

end GateController

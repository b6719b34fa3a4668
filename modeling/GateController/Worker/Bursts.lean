import GateController.Effects.Trace
import GateController.Processing.Keys
import GateController.Worker.Collector

/-!
# What becomes of a burst

A burst that was emitted is put into the queue, and there are four ways for it
to leave: the processing thread takes it and `process` returns, or raises and
`on_error` records that, or a newer burst displaces it, or the service stops.
`process` is handed the identity of the burst.  `report_dropped` takes it off
the item and drops it, and `on_error` never gets it, so both record under the
digest of the first path of the burst, read at that time.

The handlers are the ones of `__main__`.  What a trigger resolver answers goes
into the trace of a call only, and the files are removed after everything that
is modelled here.
-/

namespace GateController

open Data Effects Proc GateProcessor

namespace Worker

/-! ## The handlers -/

/-- `report_dropped`, with `record_skipped` of `__main__`. -/
def reportDropped (cfg : Config) (b : Burst) (reason : String) : Proc ProcessingResult :=
  recordSkipped cfg { paths := b.paths, reason, receivedAt := b.receivedAt }

/-- `_report_processing_error`, with `record_error` of `__main__`. -/
def reportProcessingError (cfg : Config) (b : Burst) : Proc Unit :=
  exceptException
    (do
      let _ ← recordSkipped cfg
        { paths := b.paths, reason := "processing_error", receivedAt := b.receivedAt }
      return ())
    (return ())

/-- What `_process_bursts` hands to `emit`. -/
def processArgs (b : Burst) : ProcessArgs where
  paths := b.paths
  receivedAt := b.receivedAt
  decisionStartedAt := b.decisionStartedAt
  idempotencyKey := b.identity.map Digest.text

/-- `_process_bursts` with one item. -/
def processBurst (owner : CallId) (cfg : Config) (b : Burst) : Proc Unit := do
  match ← (process owner cfg (processArgs b)).attempt with
  | .ok _ => return ()
  | .error x => if x.isException then reportProcessingError cfg b else .raise x

/-! ## Fates -/

/-- How a burst leaves the queue. -/
inductive Fate where
  /-- `process` returned. -/
  | processed
  /-- `process` raised, and `on_error` was called. -/
  | raised
  /-- A newer burst displaced it. -/
  | coalesced
  /-- It was waiting when the service stopped. -/
  | stopping
deriving DecidableEq

/-- The operations with which a fate is carried out. -/
inductive Carried (owner : CallId) (cfg : Config) (b : Burst) : Fate → List Outcome → Prop where
  | processed {t : List Outcome} {result : ProcessingResult}
      (h : (process owner cfg (processArgs b)).Yields t (.ok result)) :
      Carried owner cfg b .processed t
  | raised {t t' : List Outcome} {x : Exc} {r : Except Exc Unit}
      (h : (process owner cfg (processArgs b)).Yields t (.error x)) (hx : x.isException = true)
      (h' : (reportProcessingError cfg b).Yields t' r) : Carried owner cfg b .raised (t ++ t')
  | coalesced {t : List Outcome} {r : Except Exc ProcessingResult}
      (h : (reportDropped cfg b "queue_coalesced").Yields t r) : Carried owner cfg b .coalesced t
  | stopping {t : List Outcome} {r : Except Exc ProcessingResult}
      (h : (reportDropped cfg b "service_stopping").Yields t r) : Carried owner cfg b .stopping t

/-- The digests that were read are those of the files. -/
def ReadsFiles (files : String → String) (t : List Outcome) : Prop :=
  ∀ path r, (⟨.env (.contentDigest path), r⟩ : Outcome) ∈ t → r = .ok (files path)

/-- The events that were written have the key. -/
def WritesUnder (key : String) (t : List Outcome) : Prop := ∀ o ∈ t, o.1.WritesUnder key

section Fates

variable {owner : CallId} {cfg : Config} {b : Burst}

/-- The processing thread carries out one of the first two fates, unless an
exception that nobody catches ends it. -/
theorem carried_of_processBurst {t : List Outcome} {r : Except Exc Unit}
    (h : (processBurst owner cfg b).Yields t r) :
    Carried owner cfg b .processed t ∨ Carried owner cfg b .raised t ∨
      ∃ x, r = .error x ∧ x.isException = false := by
  rcases h.bind_inv with ⟨t₁, t₂, outcome, h₁, h₂, rfl⟩ | ⟨x, h₁, -⟩
  · obtain ⟨outcome', h₁, heq⟩ := h₁.attempt_inv
    cases heq
    cases outcome with
    | ok result =>
        obtain ⟨rfl, rfl⟩ := Prog.yields_ret_iff.1 h₂
        rw [List.append_nil]
        exact .inl (.processed h₁)
    | error x =>
        dsimp only at h₂
        split at h₂
        next hx => exact .inr (.inl (.raised h₁ hx h₂))
        next hx =>
          obtain ⟨-, rfl⟩ := Prog.yields_raise_iff.1 h₂
          exact .inr (.inr ⟨x, rfl, by simpa using hx⟩)
  · obtain ⟨_, -, heq⟩ := h₁.attempt_inv
    cases heq

/-! ## Under the identity -/

theorem process_writes {k : Digest} (hid : b.identity = some k) {t : List Outcome}
    {r : Except Exc ProcessingResult} (h : (process owner cfg (processArgs b)).Yields t r) :
    WritesUnder k.text t :=
  Prog.Only.of_yields (only_process owner cfg (by simp [processArgs, hid]) k.nonempty) h

/-- Without a key, `record_skipped` writes under the digest of the first path. -/
theorem recordSkipped_writes {a : SkipArgs} {path : String} {rest : List String}
    {files : String → String} (hkey : a.idempotencyKey = none) (hpaths : a.paths = path :: rest)
    {t : List Outcome} {r : Except Exc ProcessingResult} (h : (recordSkipped cfg a).Yields t r)
    (hfiles : ReadsFiles files t) : WritesUnder (files path) t := by
  obtain ⟨write, heq, hwrite⟩ := recordSkipped_eq cfg a
  rw [heq, hkey, hpaths] at h
  -- The first operation reads the digest, and what follows writes under it.
  cases h with
  | call _ _ digest h =>
      have hdigest : digest = .ok (files path) := hfiles path digest List.mem_cons_self
      subst hdigest
      intro o ho
      rcases List.mem_cons.1 ho with rfl | ho
      · trivial
      · exact Prog.Only.of_yields (hwrite _) h o ho

theorem reportProcessingError_writes {path : String} {rest : List String} {files : String → String}
    (hpaths : b.paths = path :: rest) {t : List Outcome} {r : Except Exc Unit}
    (h : (reportProcessingError cfg b).Yields t r) (hfiles : ReadsFiles files t) :
    WritesUnder (files path) t := by
  rcases h.bind_inv with ⟨t₁, t₂, outcome, h₁, h₂, rfl⟩ | ⟨x, h₁, -⟩
  · obtain ⟨outcome', h₁, heq⟩ := h₁.attempt_inv
    cases heq
    have hnil : t₂ = [] := by
      cases outcome with
      | ok u => exact (Prog.yields_ret_iff.1 h₂).1
      | error x =>
          dsimp only at h₂
          split at h₂
          · exact (Prog.yields_ret_iff.1 h₂).1
          · exact (Prog.yields_raise_iff.1 h₂).1
    subst hnil
    rw [List.append_nil] at hfiles ⊢
    rcases h₁.bind_inv with ⟨t₃, t₄, result, h₃, h₄, rfl⟩ | ⟨x, h₃, -⟩
    · obtain ⟨rfl, -⟩ := Prog.yields_ret_iff.1 h₄
      rw [List.append_nil] at hfiles ⊢
      exact recordSkipped_writes rfl hpaths h₃ hfiles
    · exact recordSkipped_writes rfl hpaths h₃ hfiles
  · obtain ⟨_, -, heq⟩ := h₁.attempt_inv
    cases heq

/-! ## Under another key -/

/-- Answers of a store that has seen nothing yet and that fails to look one key up. -/
def storeWithout (files : String → String) (key : String) : (e : Eff) → Except Exc e.Ans
  | .env (.contentDigest path) => .ok (files path)
  | .env .clock => .ok datetimeMin
  | .env .decisionClock => .ok 0
  | .env (.preparePayload _) => .ok []
  | .store (.actuationClaimStatus k) => if k = key then .error .other else .ok none
  | .store (.eventId _) => .ok none
  | .store (.recordEventWithOutbox _ _) => .ok 1
  | _ => .error .other

variable {files : String → String} {key : String}

theorem readsFiles_trace {α : Type} (p : Proc α) :
    ReadsFiles files (p.trace (storeWithout files key)) := fun _ _ h =>
  Prog.answer_of_mem_trace _ p _ h

theorem outcome_outboxPayload (cfg : Config) (files : String → String) (key : String)
    (paths : List String) (await : Bool) :
    ∃ payload, (outboxPayload cfg paths await).outcome (storeWithout files key) = .ok payload := by
  unfold outboxPayload
  cases cfg.outboxEnabled with
  | false => exact ⟨none, rfl⟩
  | true => cases await <;> exact ⟨_, rfl⟩

/-- On such a store `record_skipped` writes under the digest of the first path, if
that is another key. -/
theorem recordSkipped_trace {a : SkipArgs} {path : String} {rest : List String}
    (hkey : a.idempotencyKey = none) (hpaths : a.paths = path :: rest) (hne : files path ≠ key) :
    ∃ event payload, event.idempotencyKey = some (files path) ∧
      (⟨.store (.recordEventWithOutbox event payload), .ok 1⟩ : Outcome) ∈
        (recordSkipped cfg a).trace (storeWithout files key) := by
  have hread : (if truthy a.idempotencyKey then pure (a.idempotencyKey.getD "")
      else eventKey a.paths : Proc String).outcome (storeWithout files key) = .ok (files path) := by
    rw [hkey, hpaths]
    rfl
  have hexists : (eventExists (files path)).outcome (storeWithout files key) = .ok false := by
    have hstatus : (store (.actuationClaimStatus (files path))).outcome
        (storeWithout files key) = .ok none := by
      rw [store, Prog.outcome_perform]
      exact if_neg hne
    exact (Prog.outcome_bind_ok _ hstatus).trans rfl
  obtain ⟨payload, hpayload⟩ := outcome_outboxPayload cfg files key a.paths true
  refine ⟨{ source := "ocr", reason := a.reason, opened := false
            idempotencyKey := some (files path), receivedAt := a.receivedAt.getD datetimeMin
            decisionAt := some datetimeMin }, payload, rfl, ?_⟩
  refine Prog.mem_trace_bind _ hread (Prog.mem_trace_bind _ hexists ?_)
  rw [if_neg Bool.false_ne_true]
  refine Prog.mem_trace_bind _ (a := a.receivedAt.getD datetimeMin) ?_
    (Prog.mem_trace_bind _ (a := datetimeMin) rfl ?_)
  · cases a.receivedAt <;> rfl
  refine Prog.mem_trace_bind_left _ (Prog.mem_trace_bind _ hpayload ?_)
  exact List.mem_singleton.2 rfl

theorem outcome_uniqueContentCandidates (files : String → String) (key : String)
    (seen paths : List String) :
    ∃ candidates, (uniqueContentCandidates seen paths).outcome (storeWithout files key) =
      .ok candidates := by
  induction paths generalizing seen with
  | nil => exact ⟨[], rfl⟩
  | cons path rest ih =>
      by_cases hseen : files path ∈ seen
      · obtain ⟨candidates, h⟩ := ih seen
        refine ⟨candidates, (Prog.outcome_bind_ok _ (a := files path) rfl).trans ?_⟩
        rw [if_pos hseen]
        exact h
      · obtain ⟨candidates, h⟩ := ih (files path :: seen)
        refine ⟨(path, files path) :: candidates,
          (Prog.outcome_bind_ok _ (a := files path) rfl).trans ?_⟩
        rw [if_neg hseen]
        exact (Prog.outcome_bind_ok _ h).trans rfl

/-- On a store that fails to look the identity up, `process` raises. -/
theorem process_raises {k : Digest} (hid : b.identity = some k) :
    (process owner cfg (processArgs b)).outcome (storeWithout files k.text) = .error .other := by
  obtain ⟨candidates, hcandidates⟩ :=
    outcome_uniqueContentCandidates files k.text [] b.paths
  refine (Prog.outcome_bind_ok (a := (processArgs b).decisionStartedAt.getD 0) _ ?_).trans
    ((Prog.outcome_bind_ok _ hcandidates).trans ?_)
  · cases (processArgs b).decisionStartedAt <;> rfl
  refine Prog.outcome_bind_error _ (Prog.outcome_bind_error _ ?_)
  rw [store, Prog.outcome_perform]
  simp only [storeWithout, processArgs, hid, keyOr, truthy, Option.map_some]
  simp [k.nonempty]

/-- A burst that is not processed, and whose first path has another digest by now,
can be recorded under that digest. -/
theorem exists_carried (owner : CallId) (cfg : Config) {k : Digest} (hid : b.identity = some k) {path : String}
    {rest : List String} (hpaths : b.paths = path :: rest) (hne : files path ≠ k.text)
    {fate : Fate} (hfate : fate ≠ .processed) :
    ∃ t event payload, Carried owner cfg b fate t ∧ ReadsFiles files t ∧
      event.idempotencyKey = some (files path) ∧
      (⟨.store (.recordEventWithOutbox event payload), .ok 1⟩ : Outcome) ∈ t := by
  have hskip : ∀ reason, ∃ event payload, event.idempotencyKey = some (files path) ∧
      (⟨.store (.recordEventWithOutbox event payload), .ok 1⟩ : Outcome) ∈
        (recordSkipped cfg { paths := b.paths, reason, receivedAt := b.receivedAt }).trace
          (storeWithout files k.text) :=
    fun reason => recordSkipped_trace rfl hpaths hne
  have hcarried := fun reason => Prog.yields_trace (storeWithout files k.text)
    (reportDropped cfg b reason)
  cases fate with
  | processed => exact absurd rfl hfate
  | coalesced =>
      obtain ⟨event, payload, hkey, hmem⟩ := hskip "queue_coalesced"
      exact ⟨_, event, payload, .coalesced (hcarried _), readsFiles_trace _, hkey, hmem⟩
  | stopping =>
      obtain ⟨event, payload, hkey, hmem⟩ := hskip "service_stopping"
      exact ⟨_, event, payload, .stopping (hcarried _), readsFiles_trace _, hkey, hmem⟩
  | raised =>
      obtain ⟨event, payload, hkey, hmem⟩ := hskip "processing_error"
      have hraise := Prog.yields_trace (storeWithout files k.text)
        (process owner cfg (processArgs b))
      rw [process_raises hid] at hraise
      have hreport := Prog.yields_trace (storeWithout files k.text) (reportProcessingError cfg b)
      have hmem' : (⟨.store (.recordEventWithOutbox event payload), .ok 1⟩ : Outcome) ∈
          (reportProcessingError cfg b).trace (storeWithout files k.text) := by
        refine Prog.mem_trace_bind_left _ ?_
        rw [Prog.trace_attempt]
        exact Prog.mem_trace_bind_left _ hmem
      refine ⟨_, event, payload, .raised hraise rfl hreport, ?_, hkey,
        List.mem_append_right _ hmem'⟩
      intro path r h
      rcases List.mem_append.1 h with h | h
      · exact readsFiles_trace _ path r h
      · exact readsFiles_trace _ path r h

end Fates

/-! ## One identity per burst -/

/-- A burst that carries the identity `k` is recorded under `k`, whatever the
outside answers, exactly if it is processed, or if the file that stands first in
it has the digest that the upload which began the burst had when it arrived.  The
processing thread carries out one of the first two fates, unless an exception that
nobody catches ends it. -/
theorem burst_recorded_under_identity (owner : CallId) (cfg : Config) (w : CollectorConfig)
    (calls : List CollectorOp) (now : ℚ) (wall : DateTime) (ranker : List String → List String)
    {b : Burst} {k : Digest}
    (hemit : ((Gathering.after w calls).collector.flushDue w now wall ranker).emitted = some b)
    (hid : b.identity = some k) (fate : Fate) (files : String → String) :
    ((∀ t, Carried owner cfg b fate t → ReadsFiles files t → WritesUnder k.text t) ↔
      fate = .processed ∨
        (firstEmitted w (Gathering.after w calls).arrivals ranker).map files =
          (firstDigest (Gathering.after w calls).arrivals).map Digest.text) ∧
    ∀ t r, (processBurst owner cfg b).Yields t r →
      Carried owner cfg b .processed t ∨ Carried owner cfg b .raised t ∨
        ∃ x, r = .error x ∧ x.isException = false := by
  refine ⟨?_, fun t r => carried_of_processBurst⟩
  obtain ⟨hfirst, path, rest, hpaths, hpath⟩ :=
    Gathering.emitted_of_flushDue (Gathering.holds_after w calls) hemit hid
  simp only [hfirst, hpath, Option.map_some, Option.some.injEq]
  constructor
  · intro h
    by_contra hnot
    obtain ⟨hfate, hne⟩ := not_or.1 hnot
    obtain ⟨t, event, payload, hcarried, hreads, hkey, hmem⟩ :=
      exists_carried owner cfg hid hpaths hne hfate
    have hunder : event.idempotencyKey = some k.text := h t hcarried hreads _ hmem
    exact hne (Option.some.inj (hkey.symm.trans hunder))
  · intro h t hcarried hreads
    have hdropped : fate ≠ .processed → files path = k.text := fun hfate => h.resolve_left hfate
    cases hcarried with
    | processed ht => exact process_writes hid ht
    | raised ht hx ht' =>
        intro o ho
        rcases List.mem_append.1 ho with ho | ho
        · exact process_writes hid ht o ho
        · have hwrites := reportProcessingError_writes hpaths ht'
            fun path r h => hreads path r (List.mem_append_right _ h)
          rw [hdropped nofun] at hwrites
          exact hwrites o ho
    | coalesced ht =>
        have hwrites := recordSkipped_writes rfl hpaths ht hreads
        rwa [hdropped nofun] at hwrites
    | stopping ht =>
        have hwrites := recordSkipped_writes rfl hpaths ht hreads
        rwa [hdropped nofun] at hwrites

/-! ### A burst that lost the upload it is named after -/

/-- A collector that holds one candidate. -/
def single : CollectorConfig := .ofWorker (1 / 2) 1 ⟨by decide, by decide⟩

/-- Two uploads of different content, the second within the quiet window. -/
def twoUploads : List CollectorOp :=
  [.add { path := "a.jpg", arrivedAt := datetimeMin, seenAt := 0, addedAt := 0
          digest := some ⟨"a", by decide⟩ },
   .add { path := "b.jpg", arrivedAt := datetimeMin, seenAt := 0, addedAt := 0
          digest := some ⟨"b", by decide⟩ }]

/-- The burst of the second upload, with the identity of the first. -/
def renamed : Burst where
  paths := ["b.jpg"]
  receivedAt := some datetimeMin
  decisionStartedAt := some 1
  processingStartedAt := some datetimeMin
  identity := some ⟨"a", by decide⟩

theorem renamed_emitted :
    ((Gathering.after single twoUploads).collector.flushDue single 1 datetimeMin id).emitted =
      some renamed := by
  decide +kernel

/-- The first upload was given up for the second, and the burst is displaced in the
queue.  Its event is recorded under the second upload's digest. -/
theorem coalesced_recorded_elsewhere :
    ((Gathering.after single twoUploads).collector.flushDue single 1 datetimeMin id).emitted =
        some renamed ∧
      renamed.identity = some ⟨"a", by decide⟩ ∧
      ∃ t event payload, Carried ⟨0, 0⟩ {} renamed .coalesced t ∧ ReadsFiles (fun _ => "b") t ∧
        event.idempotencyKey = some "b" ∧
        (⟨.store (.recordEventWithOutbox event payload), .ok 1⟩ : Outcome) ∈ t :=
  ⟨renamed_emitted, rfl,
    exists_carried ⟨0, 0⟩ {} (k := ⟨"a", by decide⟩) rfl rfl (by decide) (by decide)⟩

theorem burst_recorded_under_identity_renamed :
    ((∀ t, Carried ⟨0, 0⟩ {} renamed .coalesced t → ReadsFiles (fun _ => "a") t →
      WritesUnder "a" t) ↔
      Fate.coalesced = .processed ∨
        (firstEmitted single (Gathering.after single twoUploads).arrivals id).map (fun _ => "a") =
          (firstDigest (Gathering.after single twoUploads).arrivals).map Digest.text) ∧
    ∀ t r, (processBurst ⟨0, 0⟩ {} renamed).Yields t r →
      Carried ⟨0, 0⟩ {} renamed .processed t ∨ Carried ⟨0, 0⟩ {} renamed .raised t ∨
        ∃ x, r = .error x ∧ x.isException = false :=
  burst_recorded_under_identity ⟨0, 0⟩ {} single twoUploads 1 datetimeMin id
    (k := ⟨"a", by decide⟩) renamed_emitted rfl .coalesced fun _ => "a"

end Worker

end GateController

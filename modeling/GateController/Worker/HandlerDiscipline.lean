import GateController.Worker.Handler

/-!
# The worker's threads keep to their keys

What a thread writes into the store it writes under the key of the call that it
has entered.  The key is the identity of a burst, or the first digest that the
call reads.  A burst gets its identity from the collector it was taken from.
-/

namespace GateController

open Data Effects Proc GateProcessor

/-! ## Rules -/

/-- What a thread has done so far. -/
structure WorkerWatch where
  /-- The key of the call of the processor, once it is settled. -/
  key : Option String := none
  /-- The collector that was flushed. -/
  taken : Option BurstCollector := none
  /-- The burst that left the queue. -/
  burst : Option Burst := none

namespace WorkerWatch

/-- The watch after an operation. -/
def next (s : WorkerWatch) : (e : WorkerEff) → Except Exc e.Ans → WorkerWatch
  | .gate (.env (.contentDigest _)), .ok digest => { s with key := some (s.key.getD digest) }
  | .enter key, _ => { s with key }
  | .take, .ok (some flushed) => { s with taken := some flushed.1 }
  | .put _, .ok (some dropped) => { s with burst := some dropped }
  | .get, .ok b => { s with burst := some b }
  | _, _ => s

/-- What a thread may do. -/
def allow (s : WorkerWatch) : WorkerEff → Prop
  | .gate e => e.WritesUnder emptyBurst ∨ ∃ key, s.key = some key ∧ e.WritesUnder key
  | .enter key => key = none ∨ ∃ b, s.burst = some b ∧ key = b.identity.map Digest.text
  | .put b => b.identity = none ∨ ∃ c, s.taken = some c ∧ b.identity = c.idempotencyKey
  | _ => True

/-- A digest is never empty, and `_content_digest` never raises. -/
def expect : (e : WorkerEff) → Except Exc e.Ans → Prop
  | .gate (.env (.contentDigest _)), r => ∃ digest : Digest, r = .ok digest.text
  | _, _ => True

end WorkerWatch

/-- The rules of a worker's thread. -/
def workerWatch (cfg : WorkerConfig) :
    Protocol WorkerEff WorkerEff.Ans Exc (WorkerCall cfg) WorkerWatch where
  start _ := {}
  next := WorkerWatch.next
  allow := WorkerWatch.allow
  expect _ := WorkerWatch.expect

/-- The thread keeps to the rules from wherever it stands. -/
def Disciplined {α : Type} (cfg : WorkerConfig) (p : WorkerProg α) : Prop :=
  ∀ s, Obeys (workerWatch cfg) (fun _ _ => True) s p

namespace Worker

variable {cfg : WorkerConfig} {α β : Type} {s : WorkerWatch}

theorem Disciplined.ret (a : α) : Disciplined cfg (.ret a) := fun _ => trivial

theorem Disciplined.raise (x : Exc) : Disciplined cfg (.raise x : WorkerProg α) := fun _ => trivial

theorem Disciplined.bind {p : WorkerProg α} {f : α → WorkerProg β} (hp : Disciplined cfg p)
    (hf : ∀ a, Disciplined cfg (f a)) : Disciplined cfg (p >>= f) := fun s =>
  Obeys.bind (hp s) (fun s' a _ => hf a s') fun _ _ _ => trivial

theorem Disciplined.attempt {p : WorkerProg α} (hp : Disciplined cfg p) :
    Disciplined cfg p.attempt := fun s => Obeys.attempt_iff.2 (hp s)

theorem Disciplined.finally_ {p : WorkerProg α} {cleanup : WorkerProg Unit}
    (hp : Disciplined cfg p) (hcleanup : Disciplined cfg cleanup) :
    Disciplined cfg (p.finally_ cleanup) :=
  Disciplined.bind (Disciplined.attempt hp) fun _ => Disciplined.bind hcleanup fun _ _ => by simp

/-- An operation without a rule. -/
theorem disciplined_op {e : WorkerEff} (h : ∀ s : WorkerWatch, s.allow e) :
    Disciplined cfg (op e) := fun s => Obeys.perform (h s) fun _ _ => trivial

/-- Enter a call of the processor and make it. -/
theorem disciplined_enter {key : Option String} {p : WorkerProg α}
    (hallow : s.allow (.enter key))
    (hp : ∀ s : WorkerWatch, s.key = key → Obeys (workerWatch cfg) (fun _ _ => True) s p) :
    Obeys (workerWatch cfg) (fun _ _ => True) s (op (.enter key) >>= fun _ => p) := by
  rw [Obeys.bind_iff]
  refine Obeys.perform hallow fun r _ => ?_
  cases r with
  | ok u => exact hp _ rfl
  | error x => trivial

/-! ## Calls of the processor -/

theorem lift_bind (p : Proc α) (f : α → Proc β) : lift (p >>= f) = lift p >>= fun a => lift (f a) := by
  induction p with
  | ret a => rfl
  | raise x => rfl
  | call e k ih => exact congrArg _ (funext ih)

theorem key_next {key : String} {e : Eff} {r : Except Exc e.Ans} (hkey : s.key = some key) :
    (s.next (.gate e) r).key = some key := by
  unfold WorkerWatch.next
  split <;> simp_all

/-- A call that writes under the key that is settled. -/
theorem obeys_lift {key : String} {p : Proc α} (hp : p.Only (Eff.WritesUnder key))
    (hkey : s.key = some key) :
    Obeys (workerWatch cfg) (fun s' _ => s'.key = some key) s (lift p) := by
  induction p generalizing s with
  | ret a => exact hkey
  | raise x => exact hkey
  | call e k ih => exact ⟨.inr ⟨key, hkey, hp.1⟩, fun r _ => ih r (hp.2 r) (key_next hkey)⟩

/-- A call about nothing. -/
theorem disciplined_lift_empty {p : Proc α} (hp : p.Only (Eff.WritesUnder emptyBurst)) :
    Disciplined cfg (lift p) := by
  intro s
  induction p generalizing s with
  | ret a => trivial
  | raise x => trivial
  | call e k ih => exact ⟨.inl hp.1, fun r _ => ih r (hp.2 r) _⟩

/-- A call that settles its key by the first digest it reads. -/
theorem obeys_lift_digest {path : String} {f : String → Proc α}
    (hf : ∀ digest : Digest, (f digest.text).Only (Eff.WritesUnder digest.text))
    (hkey : s.key = none) :
    Obeys (workerWatch cfg) (fun _ _ => True) s (lift (env (.contentDigest path) >>= f)) := by
  refine ⟨.inl trivial, fun r hr => ?_⟩
  obtain ⟨digest, rfl⟩ := hr
  refine (obeys_lift (hf digest) ?_).mono fun _ _ _ => trivial
  show some (s.key.getD digest.text) = some digest.text
  rw [hkey]
  rfl

/-- `record_skipped` without a key. -/
theorem recordSkipped_obeys (gate : Config) {a : SkipArgs} (ha : a.idempotencyKey = none)
    (hkey : s.key = none) :
    Obeys (workerWatch cfg) (fun _ _ => True) s (lift (recordSkipped gate a)) := by
  obtain ⟨write, heq, hwrite⟩ := recordSkipped_eq gate a
  rw [heq, ha, if_neg (by simp [truthy])]
  cases a.paths with
  | nil => exact disciplined_lift_empty (hwrite emptyBurst) s
  | cons path rest => exact obeys_lift_digest (fun digest => hwrite digest.text) hkey

theorem lift_attempt (p : Proc α) : lift p.attempt = (lift p).attempt := by
  induction p with
  | ret a => rfl
  | raise x => rfl
  | call e k ih => exact congrArg _ (funext ih)

theorem reportProcessingError_obeys (gate : Config) (b : Burst) (hkey : s.key = none) :
    Obeys (workerWatch cfg) (fun _ _ => True) s (lift (reportProcessingError gate b)) := by
  rw [reportProcessingError, exceptException, lift_bind, lift_attempt, lift_bind]
  refine Obeys.bind (Obeys.attempt_iff.2 (Obeys.bind (recordSkipped_obeys gate rfl hkey)
    (fun _ _ _ => trivial) fun _ _ _ => trivial)) (R := fun _ _ => True) (fun s r _ => ?_)
    fun _ _ _ => trivial
  cases r with
  | ok u => trivial
  | error x =>
      dsimp only
      split <;> trivial

theorem uniqueContentCandidates_cons (path : String) (rest : List String) :
    uniqueContentCandidates [] (path :: rest) = env (.contentDigest path) >>= fun digest =>
      uniqueContentCandidates [digest] rest >>= fun others => .ret ((path, digest) :: others) := by
  simp only [uniqueContentCandidates, List.not_mem_nil, if_false]
  rfl

/-- The candidates of a burst, when no key is settled yet: the first digest settles it. -/
theorem uniqueContentCandidates_obeys (paths : List String) (hkey : s.key = none) :
    Obeys (workerWatch cfg) (fun s' r => ∀ candidates, r = .ok candidates →
      candidates = [] ∨ ∃ digest : Digest, s'.key = some digest.text ∧
        eventKeyFromDigests (candidates.map Prod.snd) = digest.text) s
      (lift (uniqueContentCandidates [] paths)) := by
  cases paths with
  | nil =>
      rintro candidates ⟨⟩
      exact .inl rfl
  | cons path rest =>
      rw [uniqueContentCandidates_cons, lift_bind]
      refine ⟨.inl trivial, fun r hr => ?_⟩
      obtain ⟨digest, rfl⟩ := hr
      have hsettled : (s.next (.gate (.env (.contentDigest path))) (.ok digest.text)).key =
          some digest.text := by
        show some (s.key.getD digest.text) = some digest.text
        rw [hkey]
        rfl
      have hrest : (uniqueContentCandidates [digest.text] rest).Only
          (Eff.WritesUnder digest.text) := under_of_noEvent (only_uniqueContentCandidates _ _) _
      have hlift := lift_bind (uniqueContentCandidates [digest.text] rest) fun others =>
        .ret ((path, digest.text) :: others)
      refine Eq.mpr (congrArg (Obeys _ _ _) hlift) ?_
      refine Obeys.bind (obeys_lift hrest hsettled) (fun s' others hs' => ?_)
        fun _ _ _ _ hraise => by cases hraise
      rintro candidates ⟨⟩
      exact .inr ⟨digest, hs', rfl⟩

/-- `process`, once it is entered. -/
theorem process_obeys (owner : CallId) (gate : Config) (b : Burst)
    (hkey : s.key = b.identity.map Digest.text) :
    Obeys (workerWatch cfg) (fun _ _ => True) s (lift (process owner gate (processArgs b))) := by
  cases hid : b.identity with
  | some k =>
      rw [hid] at hkey
      exact (obeys_lift (only_process owner gate (by simp [processArgs, hid]) k.nonempty)
        hkey).mono fun _ _ _ => trivial
  | none =>
      rw [hid] at hkey
      obtain ⟨rest, heq, hrest⟩ := process_eq owner gate (processArgs b)
      have hor : ∀ digests, keyOr (processArgs b).idempotencyKey (eventKeyFromDigests digests) =
          eventKeyFromDigests digests := by
        intro digests
        simp [processArgs, hid, keyOr, truthy]
      simp only [hor] at hrest
      rw [heq, lift_bind]
      refine Obeys.bind (R := fun s' _ => s'.key = none) ?_ (fun s₁ started hs₁ => ?_)
        fun _ _ _ => trivial
      · cases (processArgs b).decisionStartedAt with
        | some started => exact hkey
        | none =>
            refine ⟨.inl trivial, fun r _ => ?_⟩
            cases r <;> exact hkey
      rw [lift_bind]
      refine Obeys.bind (uniqueContentCandidates_obeys _ hs₁) (fun s₂ candidates hs₂ => ?_)
        fun _ _ _ => trivial
      rcases hs₂ candidates rfl with rfl | ⟨digest, hsettled, hdigest⟩
      · exact disciplined_lift_empty (hrest started [] (by decide)) s₂
      · have hwrites := hrest started candidates (by rw [hdigest]; exact digest.nonempty)
        rw [hdigest] at hwrites
        exact (obeys_lift hwrites hsettled).mono fun _ _ _ => trivial

/-! ## The threads -/

theorem obeys_removeUploads (paths : List String) :
    Obeys (workerWatch cfg) (fun s' _ => s' = s) s (removeUploads paths) := by
  have honly : (removeUploads paths).Only fun e => ∃ path, e = .remove path := by
    induction paths with
    | nil => trivial
    | cons path rest ih => exact Prog.Only.bind (Prog.Only.perform_iff.2 ⟨path, rfl⟩) fun _ => ih
  refine Obeys.of_only honly ?_
  rintro e ⟨path, rfl⟩
  exact ⟨trivial, fun _ => rfl⟩

theorem disciplined_removeUploads (paths : List String) :
    Disciplined cfg (removeUploads paths) := fun _ =>
  (obeys_removeUploads paths).mono fun _ _ _ => trivial

theorem disciplined_reject (path reason : String) : Disciplined cfg (reject cfg path reason) := by
  refine Disciplined.finally_ (fun s => ?_) (disciplined_op fun _ => trivial)
  exact disciplined_enter (.inl rfl) fun s hs =>
    Obeys.bind (recordSkipped_obeys cfg.gate rfl hs) (fun _ _ _ => trivial) fun _ _ _ => trivial

theorem disciplined_rejectAll (reason : String) (paths : List String) :
    Disciplined cfg (rejectAll cfg reason paths) := by
  induction paths with
  | nil => exact Disciplined.ret ()
  | cons path rest ih => exact Disciplined.bind (disciplined_reject path reason) fun _ => ih

theorem disciplined_scheduleCandidate (path : String) (isDirectory : Bool) :
    Disciplined cfg (scheduleCandidate cfg path isDirectory) := by
  unfold scheduleCandidate
  split
  · exact Disciplined.ret ()
  · exact Disciplined.bind (disciplined_op fun _ => trivial) fun _ => disciplined_rejectAll _ _

theorem disciplined_collect (path : String) (receivedAt : DateTime) :
    Disciplined cfg (collect path receivedAt) := by
  refine Disciplined.bind (disciplined_op fun _ => trivial) fun r => ?_
  match r with
  | (some dropped, first) =>
      exact Disciplined.bind (disciplined_op fun _ => trivial) fun _ => Disciplined.ret first
  | (none, first) => exact Disciplined.ret first

theorem disciplined_collectAll (receivedAt : DateTime) (paths : List String) :
    Disciplined cfg (collectAll receivedAt paths) := by
  induction paths with
  | nil => exact Disciplined.ret ()
  | cons path rest ih => exact Disciplined.bind (disciplined_collect _ _) fun _ => ih

theorem disciplined_addHotFrames (receivedAt : DateTime) :
    Disciplined cfg (addHotFrames cfg receivedAt) := by
  unfold addHotFrames
  split
  · exact Disciplined.ret ()
  · refine Disciplined.bind (Disciplined.attempt (disciplined_op fun _ => trivial)) fun r => ?_
    cases r with
    | error x =>
        dsimp only
        split
        · exact Disciplined.ret ()
        · exact Disciplined.raise x
    | ok selected =>
        refine Disciplined.bind (disciplined_op fun _ => trivial) fun remaining => ?_
        exact Disciplined.bind (disciplined_collectAll _ _) fun _ => disciplined_removeUploads _

theorem disciplined_inspect (path : String) (candidate : Candidate) :
    Disciplined cfg (inspect cfg path candidate) := by
  have hoffer : Disciplined cfg (offer cfg path candidate) := by
    refine Disciplined.bind (disciplined_op fun _ => trivial) fun readable => ?_
    split
    · refine Disciplined.bind (disciplined_collect _ _) fun first => ?_
      refine Disciplined.bind (disciplined_op fun _ => trivial) fun _ => ?_
      split
      · exact disciplined_addHotFrames _
      · exact Disciplined.ret ()
    · exact disciplined_op fun _ => trivial
  refine Disciplined.bind (disciplined_op fun _ => trivial) fun found => ?_
  split
  · refine Disciplined.bind (disciplined_op fun _ => trivial) fun large => ?_
    split
    · exact Disciplined.bind (disciplined_op fun _ => trivial) fun _ => disciplined_reject _ _
    · exact hoffer
  · exact Disciplined.bind (disciplined_op fun _ => trivial) fun _ => disciplined_reject _ _

theorem disciplined_retryAll (now : ℚ) (paths : List String) :
    Disciplined cfg (retryAll cfg now paths) := by
  induction paths with
  | nil => exact Disciplined.ret ()
  | cons path rest ih =>
      refine Disciplined.bind (disciplined_op fun _ => trivial) fun candidate => ?_
      cases candidate with
      | none => exact ih
      | some candidate =>
          dsimp only
          split
          · exact Disciplined.bind (disciplined_op fun _ => trivial) fun _ =>
              Disciplined.bind (disciplined_reject _ _) fun _ => ih
          · exact Disciplined.bind (disciplined_inspect _ _) fun _ => ih

theorem finally_obeys {p : WorkerProg α} {cleanup : WorkerProg Unit}
    (hp : Obeys (workerWatch cfg) (fun _ _ => True) s p) (hcleanup : Disciplined cfg cleanup) :
    Obeys (workerWatch cfg) (fun _ _ => True) s (p.finally_ cleanup) :=
  Obeys.bind (R := fun _ _ => True) (Obeys.attempt_iff.2 hp) (fun s' _ _ =>
    Disciplined.bind hcleanup (fun _ _ => by simp) s') fun _ _ _ => trivial

theorem enqueue_obeys {b : Burst} (hallow : s.allow (.put b)) :
    Obeys (workerWatch cfg) (fun _ _ => True) s (enqueue cfg b) := by
  unfold enqueue
  rw [Obeys.bind_iff]
  refine Obeys.perform hallow fun r _ => ?_
  match r with
  | .error x => trivial
  | .ok none => trivial
  | .ok (some dropped) =>
      refine finally_obeys ?_ (disciplined_removeUploads _)
      exact disciplined_enter (.inl rfl) fun s hs =>
        Obeys.bind (recordSkipped_obeys cfg.gate rfl hs) (fun _ _ _ => trivial) fun _ _ _ => trivial

theorem disciplined_flushDue : Disciplined cfg (flushDue cfg) := by
  intro s
  unfold flushDue
  rw [Obeys.bind_iff]
  refine Obeys.perform (by trivial) fun r _ => ?_
  match r with
  | .error x => trivial
  | .ok none => trivial
  | .ok (some (c, now, wall)) =>
      dsimp only
      rw [Obeys.bind_iff]
      refine Obeys.perform (by trivial) fun r _ => ?_
      cases r with
      | error x => trivial
      | ok best =>
          refine Obeys.bind (obeys_removeUploads _) (fun s' _ hs' => ?_) fun _ _ _ => trivial
          split
          · trivial
          · refine enqueue_obeys ?_
            -- The flushed collector is the one that gave the burst its identity.
            subst hs'
            show (if cfg.collector.includeIdempotencyKey then c.idempotencyKey else none) = none ∨
              ∃ c', some c = some c' ∧ (if cfg.collector.includeIdempotencyKey
                then c.idempotencyKey else none) = c'.idempotencyKey
            split
            · exact .inr ⟨c, rfl, rfl⟩
            · exact .inl rfl

theorem disciplined_poll : Disciplined cfg (poll cfg) :=
  Disciplined.bind (Disciplined.bind (disciplined_op fun _ => trivial) fun _ =>
    Disciplined.bind (disciplined_op fun _ => trivial) fun _ => disciplined_retryAll _ _)
    fun _ => disciplined_flushDue

theorem disciplined_consume (c : CallId) : Disciplined cfg (consume c cfg) := by
  intro s
  unfold consume
  rw [Obeys.bind_iff]
  refine Obeys.perform (by trivial) fun r _ => ?_
  cases r with
  | error x => trivial
  | ok b =>
      refine finally_obeys ?_ (disciplined_removeUploads _)
      refine disciplined_enter (.inr ⟨b, rfl, rfl⟩) fun s hs => ?_
      refine Obeys.bind (R := fun _ _ => True) (Obeys.attempt_iff.2 (process_obeys c cfg.gate b hs))
        (fun s' r _ => ?_) fun _ _ _ => trivial
      cases r with
      | ok result => trivial
      | error x =>
          dsimp only
          split
          · exact disciplined_enter (.inl rfl) fun s hs => reportProcessingError_obeys cfg.gate b hs
          · trivial

/-- Every thread keeps to the rules. -/
theorem program_obeys (c : CallId) (call : WorkerCall cfg) :
    Obeys (workerWatch cfg) (fun _ _ => True) ((workerWatch cfg).start call) (program c call) := by
  cases call with
  | upload path content => trivial
  | notify n => exact disciplined_scheduleCandidate _ _ _
  | poll => exact disciplined_poll _
  | consume => exact disciplined_consume c _

end Worker

end GateController

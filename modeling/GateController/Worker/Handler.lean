import GateController.Runtime.Machine
import GateController.Worker.Bursts

/-!
# The worker

The threads of `run_worker` around an upload.  The watchdog thread calls
`schedule_candidate` for every notification, the main thread calls
`retry_pending` and `flush_due` in turn, and the processing thread takes bursts
off the queue, processes them and removes their files.  What they share is the
directory, the dictionary of the handler, the collector, the queue and the store
of the gate.  Every access is one operation, so the threads interleave between
any two of them.  The processor's own operations are those of the gate's machine.

A collector's and a queue's method is one operation, since a lock makes it one.
The clocks, the ranking and the hot frames are the outside's.  An upload appears
in the directory at once.  `StartupReconciler` is modelled on its own, in `Startup`.
-/

namespace GateController

open Data Effects Proc GateProcessor

/-! ## Files -/

/-- The digests of names, which `_content_digest` falls back on for a file that is not
there.  SHA-256 is taken to be free of collisions on names. -/
structure NameDigests where
  /-- `sha256("missing:" + path)`. -/
  missing : String → Digest
  injective : Function.Injective missing
  emptyBurst : ∀ path, (missing path).text ≠ GateProcessor.emptyBurst

/-- A file.  No content has the digest of a name. -/
structure Content (h : NameDigests) where
  digest : Digest
  size : Nat
  /-- Whether it is a complete, decodable JPEG. -/
  readable : Bool
  fresh : ∀ path, digest ≠ h.missing path

/-- The parameters of the worker's objects. -/
structure WorkerConfig where
  digests : NameDigests
  gate : Config := {}
  collector : CollectorConfig := .ofWorker (1 / 2) 8 ⟨by decide, by decide⟩
  maxPendingBursts : Nat := 2
  retryInterval : ℚ := 1 / 4
  maxAttempts : Nat := 20
  maxAge : ℚ := 30
  maxCandidateBytes : Nat := 8388608
  maxPendingCandidates : Nat := 8
  ignores : String → Bool := fun _ => false
  /-- Whether there is an `on_first_completed`. -/
  hotFrames : Bool := false

/-- `path.suffix.lower() in {".jpg", ".jpeg"}`. -/
def isJpegName (path : String) : Bool :=
  let name := path.toList.reverse.takeWhile (· ≠ '/')
  let extension := name.takeWhile (· ≠ '.')
  let stem := name.drop (extension.length + 1)
  !stem.isEmpty && ["jpg".toList, "jpeg".toList].contains (extension.reverse.map Char.toLower)

/-! ## The handler's dictionary -/

/-- An entry of `_retry_at`. -/
structure Candidate where
  firstSeen : ℚ
  retryAt : ℚ
  attempts : Nat
  receivedAt : DateTime

/-- `_retry_at`, in the order of insertion. -/
abbrev RetryAt := List (String × Candidate)

namespace RetryAt

/-- The entry of a path goes to the end, and the first ones are given up. -/
def schedule (limit : Nat) (now : ℚ) (observedAt : DateTime) (path : String) (d : RetryAt) :
    List String × RetryAt :=
  let entry := (path, (d.lookup path).getD ⟨now, now, 0, observedAt⟩)
  let d := d.filter (fun e => e.1 ≠ path) ++ [entry]
  ((d.take (d.length - limit)).map Prod.fst, d.drop (d.length - limit))

/-- Write an entry in its place, if it is still there. -/
def put (path : String) (candidate : Candidate) (d : RetryAt) : RetryAt :=
  d.map fun e => if e.1 = path then (path, candidate) else e

/-- `pop(path, None)`. -/
def pop (path : String) (d : RetryAt) : RetryAt := d.filter fun e => e.1 ≠ path

end RetryAt

/-! ## Operations -/

/-- One operation of a thread. -/
inductive WorkerEff where
  /-- An operation of the processor. -/
  | gate (e : Eff)
  /-- A note in the log: a call of the processor begins, with this key. -/
  | enter (key : Option String)
  /-- The locked section of `schedule_candidate`. -/
  | schedule (path : String)
  | clock
  /-- The paths that are due. -/
  | due (now : ℚ)
  | candidate (path : String)
  | forget (path : String)
  | postpone (path : String) (candidate : Candidate)
  | exists_ (path : String)
  | tooLarge (path : String)
  /-- `wait_until_readable(path, timeout=0)`. -/
  | readable (path : String)
  /-- `_remove_upload`. -/
  | remove (path : String)
  /-- `BurstCollector.add`, as far as it is locked. -/
  | add (path : String) (receivedAt : DateTime)
  | remainingCapacity
  /-- `on_first_completed`. -/
  | selectHot (receivedAt : DateTime)
  /-- The locked section of `flush_due`. -/
  | take
  | rank (paths : List String)
  /-- `BoundedBurstQueue.put`. -/
  | put (b : Burst)
  /-- `BoundedBurstQueue.get`. -/
  | get

/-- What an operation answers. -/
@[reducible] def WorkerEff.Ans : WorkerEff → Type
  | .gate e => e.Ans
  | .enter _ => Unit
  | .schedule _ => List String
  | .clock => ℚ
  | .due _ => List String
  | .candidate _ => Option Candidate
  | .forget _ => Unit
  | .postpone _ _ => Unit
  | .exists_ _ => Bool
  | .tooLarge _ => Bool
  | .readable _ => Bool
  | .remove _ => Unit
  | .add _ _ => Option String × Bool
  | .remainingCapacity => Nat
  | .selectHot _ => List String
  | .take => Option (BurstCollector × ℚ × DateTime)
  | .rank _ => List String
  | .put _ => Option Burst
  | .get => Burst

abbrev WorkerProg (α : Type) := Prog WorkerEff WorkerEff.Ans Exc α

namespace Worker

/-- One operation, as a program. -/
def op (e : WorkerEff) : WorkerProg e.Ans := Prog.perform e

/-- A call of the processor, as part of a thread. -/
def lift {α : Type} : Proc α → WorkerProg α
  | .ret a => .ret a
  | .raise x => .raise x
  | .call e k => .call (.gate e) fun r => lift (k r)

/-- `_remove_uploads`. -/
def removeUploads : List String → WorkerProg Unit
  | [] => return ()
  | path :: rest => do
      op (.remove path)
      removeUploads rest

/-! ## The handler -/

/-- `_reject`, with `report_pre_ocr_skip`. -/
def reject (cfg : WorkerConfig) (path reason : String) : WorkerProg Unit :=
  (do
    op (.enter none)
    let _ ← lift (recordSkipped cfg.gate { paths := [path], reason })
    return ()).finally_ (op (.remove path))

/-- The rejections of `schedule_candidate`. -/
def rejectAll (cfg : WorkerConfig) (reason : String) : List String → WorkerProg Unit
  | [] => return ()
  | path :: rest => do
      reject cfg path reason
      rejectAll cfg reason rest

/-- `schedule_candidate`. -/
def scheduleCandidate (cfg : WorkerConfig) (path : String) (isDirectory : Bool) :
    WorkerProg Unit := do
  if isDirectory || cfg.ignores path || !isJpegName path then return ()
  else
    let dropped ← op (.schedule path)
    rejectAll cfg "candidate_coalesced" dropped

/-- `BurstCollector.add`. -/
def collect (path : String) (receivedAt : DateTime) : WorkerProg Bool := do
  match ← op (.add path receivedAt) with
  | (some dropped, first) => do
      op (.remove dropped)
      return first
  | (none, first) => return first

/-- The hot frames that fit into the burst. -/
def collectAll (receivedAt : DateTime) : List String → WorkerProg Unit
  | [] => return ()
  | path :: rest => do
      let _ ← collect path receivedAt
      collectAll receivedAt rest

/-- `_add_hot_frames`. -/
def addHotFrames (cfg : WorkerConfig) (receivedAt : DateTime) : WorkerProg Unit := do
  if !cfg.hotFrames then return ()
  else
    match ← (op (.selectHot receivedAt)).attempt with
    | .error x => if x.isException then return () else .raise x
    | .ok selected =>
        let remaining ← op .remainingCapacity
        let capacity := min 2 remaining
        collectAll receivedAt (selected.take capacity)
        removeUploads (selected.drop capacity)

/-- A candidate that is there and small enough. -/
def offer (cfg : WorkerConfig) (path : String) (candidate : Candidate) : WorkerProg Unit := do
  if ← op (.readable path) then
    let first ← collect path candidate.receivedAt
    op (.forget path)
    if first then addHotFrames cfg candidate.receivedAt else pure ()
  else op (.postpone path candidate)

/-- A candidate that is not given up for its age. -/
def inspect (cfg : WorkerConfig) (path : String) (candidate : Candidate) : WorkerProg Unit := do
  if ← op (.exists_ path) then
    if ← op (.tooLarge path) then
      op (.forget path)
      reject cfg path "image_too_large"
    else offer cfg path candidate
  else
    op (.forget path)
    reject cfg path "upload_incomplete"

/-- The loop of `retry_pending`. -/
def retryAll (cfg : WorkerConfig) (now : ℚ) : List String → WorkerProg Unit
  | [] => return ()
  | path :: rest => do
      match ← op (.candidate path) with
      | none => retryAll cfg now rest
      | some candidate => do
          if candidate.attempts ≥ cfg.maxAttempts ∨ now - candidate.firstSeen ≥ cfg.maxAge then
            op (.forget path)
            reject cfg path "upload_incomplete"
          else inspect cfg path candidate
          retryAll cfg now rest

/-- `retry_pending`. -/
def retryPending (cfg : WorkerConfig) : WorkerProg Unit := do
  let now ← op .clock
  let due ← op (.due now)
  retryAll cfg now due

/-! ## The collector and the processing thread -/

/-- `enqueue`. -/
def enqueue (cfg : WorkerConfig) (b : Burst) : WorkerProg Unit := do
  match ← op (.put b) with
  | none => return ()
  | some dropped =>
      (do
        op (.enter none)
        let _ ← lift (reportDropped cfg.gate dropped "queue_coalesced")
        return ()).finally_ (removeUploads dropped.paths)

/-- `flush_due`. -/
def flushDue (cfg : WorkerConfig) : WorkerProg Unit := do
  match ← op .take with
  | none => return ()
  | some (c, now, wall) => do
      let best ← op (.rank c.pending)
      let ranked := BurstCollector.order cfg.collector c.pending best
      removeUploads (c.pending.filter (· ∉ ranked))
      if ranked = [] then return ()
      else enqueue cfg (c.burst cfg.collector now wall ranked)

/-- One round of the main loop. -/
def poll (cfg : WorkerConfig) : WorkerProg Unit := do
  retryPending cfg
  flushDue cfg

/-- `emit` and `on_error`. -/
def emit (owner : CallId) (cfg : WorkerConfig) (b : Burst) : WorkerProg Unit := do
  op (.enter (b.identity.map Digest.text))
  match ← (lift (process owner cfg.gate (processArgs b))).attempt with
  | .ok _ => return ()
  | .error x =>
      if x.isException then do
        op (.enter none)
        lift (reportProcessingError cfg.gate b)
      else .raise x

/-- One round of `_process_bursts`. -/
def consume (owner : CallId) (cfg : WorkerConfig) : WorkerProg Unit := do
  let b ← op .get
  (emit owner cfg b).finally_ (removeUploads b.paths)

end Worker

/-! ## The machine -/

/-- A notification of the watchdog. -/
inductive Notification where
  | created (path : String) (isDirectory : Bool)
  | closed (path : String) (isDirectory : Bool)
  | moved (source path : String) (isDirectory : Bool)

/-- The path that a notification is about. -/
def Notification.path : Notification → String
  | .created path _ => path
  | .closed path _ => path
  | .moved _ path _ => path

/-- `event.is_directory`. -/
def Notification.isDirectory : Notification → Bool
  | .created _ isDirectory => isDirectory
  | .closed _ isDirectory => isDirectory
  | .moved _ _ isDirectory => isDirectory

/-- What can happen to a worker. -/
inductive WorkerCall (cfg : WorkerConfig) where
  /-- A file appears. -/
  | upload (path : String) (content : Content cfg.digests)
  | notify (n : Notification)
  | poll
  | consume

/-- What the threads share. -/
structure WorkerState (cfg : WorkerConfig) where
  gate : State
  files : String → Option (Content cfg.digests) := fun _ => none
  retryAt : RetryAt := []
  collector : BurstCollector := {}
  queue : List Burst := []

/-- What the outside decides at a step. -/
structure WorkerEnv where
  gate : Env := {}
  clock : ℚ := 0
  /-- A second reading of the clock within one operation. -/
  later : ℚ := 0
  wall : DateTime := datetimeMin
  ranking : List String → List String := id
  hotFrames : Except Exc (List String) := .ok []

namespace Worker

variable {cfg : WorkerConfig}

/-- `_content_digest`. -/
def contentDigest (s : WorkerState cfg) (path : String) : Digest :=
  match s.files path with
  | some content => content.digest
  | none => cfg.digests.missing path

/-- The call of `add` in this state. -/
def arrival (s : WorkerState cfg) (env : WorkerEnv) (path : String) (receivedAt : DateTime) :
    Arrival where
  path := path
  receivedAt := some receivedAt
  arrivedAt := env.wall
  seenAt := env.clock
  addedAt := env.later
  digest := (s.files path).map Content.digest

/-- Put a burst into the queue. -/
def putBurst (limit : Nat) (queue : List Burst) (b : Burst) : Option Burst × List Burst :=
  if limit ≤ queue.length then (queue.head?, queue.tail ++ [b]) else (none, queue ++ [b])

/-- What an operation does. -/
def exec (c : CallId) (env : WorkerEnv) (s : WorkerState cfg) :
    (e : WorkerEff) → Option (Except Exc e.Ans × WorkerState cfg)
  | .gate (.env (.contentDigest path)) => some (.ok (contentDigest s path).text, s)
  | .gate e => (e.exec c env.gate s.gate).map fun r => (r.1, { s with gate := r.2 })
  | .enter _ => some (.ok (), s)
  | .schedule path =>
      let r := s.retryAt.schedule cfg.maxPendingCandidates env.clock env.wall path
      some (.ok r.1, { s with retryAt := r.2 })
  | .clock => some (.ok env.clock, s)
  | .due now => some (.ok ((s.retryAt.filter fun e => e.2.retryAt ≤ now).map Prod.fst), s)
  | .candidate path => some (.ok (s.retryAt.lookup path), s)
  | .forget path => some (.ok (), { s with retryAt := s.retryAt.pop path })
  | .postpone path candidate =>
      some (.ok (), { s with retryAt := s.retryAt.put path { candidate with
        retryAt := env.clock + cfg.retryInterval, attempts := candidate.attempts + 1 } })
  | .exists_ path => some (.ok (s.files path).isSome, s)
  | .tooLarge path =>
      some (.ok ((s.files path).any fun content => cfg.maxCandidateBytes < content.size), s)
  | .readable path => some (.ok ((s.files path).any Content.readable), s)
  | .remove path =>
      some (.ok (), { s with files := fun q => if q = path then none else s.files q })
  | .add path receivedAt =>
      let r := s.collector.add cfg.collector (arrival s env path receivedAt)
      some (.ok (r.dropped, r.firstCandidate), { s with collector := r.collector })
  | .remainingCapacity => some (.ok (s.collector.remainingCapacity cfg.collector), s)
  | .selectHot _ => some (env.hotFrames, s)
  | .take =>
      if s.collector.due env.clock then
        some (.ok (some (s.collector, env.clock, env.wall)), { s with collector := {} })
      else some (.ok none, s)
  | .rank paths => some (.ok ((env.ranking paths).filter (· ∈ paths)), s)
  | .put b =>
      let r := putBurst cfg.maxPendingBursts s.queue b
      some (.ok r.1, { s with queue := r.2 })
  | .get =>
      match s.queue with
      | [] => none
      | b :: rest => some (.ok b, { s with queue := rest })

/-- The program of a call. -/
def program (c : CallId) : WorkerCall cfg → WorkerProg Unit
  | .upload _ _ => return ()
  | .notify n => scheduleCandidate cfg n.path n.isDirectory
  | .poll => poll cfg
  | .consume => consume c cfg

/-- A call may always begin. -/
def accept (s : WorkerState cfg) : WorkerCall cfg → Option (WorkerState cfg)
  | .upload path content =>
      some { s with files := fun q => if q = path then some content else s.files q }
  | _ => some s

/-- The process dies with what it held in memory. -/
def crash (p : Nat) (env : WorkerEnv) (s : WorkerState cfg) : WorkerState cfg :=
  { s with gate := s.gate.crash p env.gate, retryAt := [], collector := {}, queue := [] }

end Worker

/-- The worker's threads. -/
def worker (cfg : WorkerConfig) :
    Machine WorkerEff WorkerEff.Ans Exc WorkerEnv (WorkerState cfg) (WorkerCall cfg) Unit where
  program c call := Worker.program c call
  accept _ call s := Worker.accept s call
  exec c e env s := Worker.exec c env s e
  crash p env s := Worker.crash p env s

end GateController

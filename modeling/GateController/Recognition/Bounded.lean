import GateController.Effects.Expand
import GateController.Processing.Processor

/-!
# Bounded OCR

`GateProcessor._recognise` hands every request to a thread of its own and waits for it no longer
than the deadline.  A request that is given up leaves its thread behind, so a semaphore keeps a
second thread from starting meanwhile.  `close` sets a flag that is asked before a thread starts
and before a pulse.

The bursts are the programs of `GateProcessor.process` with `_recognise` carried out, one
operation at a time.  What else they do is up to the surroundings, except that
`_actuation_lock` is a lock.
-/

namespace GateController

open Data Effects

namespace OcrRequest

/-- What a thread is to read, with the connect and read timeouts if the recogniser takes them. -/
structure Job where
  path : String
  timeout : Option (ℚ × ℚ) := none
deriving DecidableEq

/-- What a thread came to. -/
abbrev Reading := Except Exc PlateObservation

/-- One operation of a burst, of a thread or of `close`. -/
inductive OcrEff where
  /-- Everything that is not about threads. -/
  | outer (e : Eff)
  /-- `_ocr_slot_lock`. -/
  | acquire
  | release
  | isClosed
  | setClosed
  /-- `self._ocr_slot.acquire(blocking=False)`. -/
  | tryAcquire
  /-- `slot.release()`. -/
  | releaseSlot
  /-- `Queue(maxsize=1)` and `Thread(target=invoke)`. -/
  | newRequest
  | startWorker (id : Nat) (job : Job)
  /-- `self._ocr_worker`. -/
  | worker
  | setWorker (id : Option Nat)
  | isAlive (id : Nat)
  /-- `worker.join(0.5)`. -/
  | join (id : Nat)
  /-- The call of the recogniser begins. -/
  | operate (id : Nat) (job : Job)
  /-- The call of the recogniser ends. -/
  | operated (id : Nat)
  | put (id : Nat) (reading : Reading)
  /-- `result.get(timeout=...)`, without a value for `Empty`. -/
  | get (id : Nat)
  | startAbandon
  /-- Whether the recogniser has said in time that it abandoned its request. -/
  | abandoned
  | startClose

/-- What an operation answers. -/
@[reducible] def OcrEff.Ans : OcrEff → Type
  | .outer e => e.Ans
  | .isClosed => Bool
  | .tryAcquire => Bool
  | .newRequest => Nat
  | .worker => Option Nat
  | .isAlive _ => Bool
  | .operated _ => PlateObservation
  | .get _ => Option Reading
  | .abandoned => Bool
  | _ => Unit

abbrev OcrProg (α : Type) := Prog OcrEff OcrEff.Ans Exc α

/-- One operation. -/
def op (e : OcrEff) : OcrProg e.Ans := Prog.perform e

/-- The recogniser of a processor. -/
structure Recognizer where
  /-- `_recognizer_accepts_timeout`. -/
  acceptsTimeout : Bool := true
  /-- Whether `abandon_in_flight` can be called. -/
  abandons : Bool := true
  /-- Whether `close` can be called. -/
  closes : Bool := true

/-! ## Programs -/

section Programs

variable {α : Type}

/-- `with self._ocr_slot_lock:`. -/
def withSlotLock (body : OcrProg α) : OcrProg α := do
  op .acquire
  let r ← body.attempt
  op .release
  Prog.ofExcept r

/-- The thread of a request, `invoke`. -/
def invoke (id : Nat) (job : Job) : OcrProg Unit := do
  op (.operate id job)
  let r ← (op (.operated id)).attempt
  op .releaseSlot
  match r with
  | .ok observation => op (.put id (.ok observation))
  | .error x => if x.isException then op (.put id (.error x)) else .raise x

/-- The section that takes the slot. -/
def takeSlot : OcrProg Bool := withSlotLock do
  if ← op .isClosed then return false
  else op .tryAcquire

/-- The section that starts the thread. -/
def launch (id : Nat) (job : Job) : OcrProg Bool := withSlotLock do
  if ← op .isClosed then
    op .releaseSlot
    return false
  else
    op (.setWorker (some id))
    match ← (op (.startWorker id job)).attempt with
    | .ok () => return true
    | .error x => do
        if (← op .worker) = some id then op (.setWorker none)
        op .releaseSlot
        .raise x

/-- The section that forgets a thread that is over. -/
def forgetWorker (id : Nat) : OcrProg Unit := withSlotLock do
  if (← op .worker) = some id then
    if !(← op (.isAlive id)) then op (.setWorker none)

/-- `_cancel_and_reap_ocr_worker`. -/
def cancelAndReap (o : Recognizer) (id : Nat) : OcrProg Unit := do
  if o.abandons then
    op .startAbandon
    if ← op .abandoned then op (.join id)
    forgetWorker id

/-- `_run_ocr_bounded`, once the thread was started. -/
def awaitReading (o : Recognizer) (id : Nat) (deadline : ℚ) : OcrProg OcrOutcome := do
  if deadline - (← op (.outer (.env .decisionClock))) ≤ 0 then
    cancelAndReap o id
    return .deadlineExceeded
  else
    match ← op (.get id) with
    | none =>
        cancelAndReap o id
        return .deadlineExceeded
    | some reading =>
        op (.join id)
        forgetWorker id
        match reading with
        | .ok observation => return .observed observation.plate observation.confidence
        | .error x => .raise x

/-- `_run_ocr_bounded`.  `_OcrBusy` and `_OcrDeadlineExceeded` are answers. -/
def runOcrBounded (o : Recognizer) (job : Job) (deadline : ℚ) : OcrProg OcrOutcome := do
  if ← takeSlot then
    let id ← op .newRequest
    if ← launch id job then awaitReading o id deadline
    else return .busy
  else return .busy

/-- `_recognise`. -/
def recognise (o : Recognizer) (deadline : ℚ) (path : String) : OcrProg OcrOutcome := do
  let remaining := deadline - (← op (.outer (.env .decisionClock)))
  if remaining ≤ 0 then return .deadlineExceeded
  else if o.acceptsTimeout then
    let connect := min 1 (max (1 / 10) (remaining / 3))
    let read := min 2 (max (1 / 10) (remaining - connect))
    runOcrBounded o { path, timeout := some (connect, read) } deadline
  else runOcrBounded o { path } deadline

/-- The section of `close` that sets the flag, with the thread of the last request.  Without a
value the processor was closed before. -/
def setFlag : OcrProg (Option (Option Nat)) := withSlotLock do
  if ← op .isClosed then return none
  else
    op .setClosed
    let worker ← op .worker
    return some worker

/-- The end of `close`. -/
def joinWorker : Option Nat → OcrProg Unit
  | none => return ()
  | some id => do
      op (.join id)
      forgetWorker id

/-- `close`. -/
def close (o : Recognizer) : OcrProg Unit := do
  match ← setFlag with
  | none => return ()
  | some worker => do
      op (.outer (.acquire .actuation))
      op (.outer (.release .actuation))
      if o.closes then op .startClose
      joinWorker worker

/-- The operations of a burst, with those about threads carried out.  What is remembered is when
the burst began, by the decision clock. -/
def bounded (o : Recognizer) (cfg : Config) : Impl Eff Eff.Ans OcrEff OcrEff.Ans Exc (Option ℚ) where
  program started
    | .env (.recognise path) => recognise o (started.getD 0 + cfg.decisionTimeout) path
    | .env .closed => withSlotLock (op .isClosed)
    | e => op (.outer e)
  remember started
    | .env .decisionClock, .ok now => some (started.getD now)
    | _, _ => started

end Programs

/-! ## The machine -/

/-- A call. -/
inductive OcrCall where
  | process (a : GateProcessor.ProcessArgs)
  | recordSkipped (a : GateProcessor.SkipArgs)
  /-- A thread that was started. -/
  | worker (id : Nat) (job : Job)
  | close

/-- What the calls of a processor share. -/
structure OcrShared where
  /-- How many processes have come before this one. -/
  life : Nat := 0
  /-- Who holds `_ocr_slot_lock`. -/
  slotLock : Option CallId := none
  /-- Who holds `_actuation_lock`. -/
  actuationLock : Option CallId := none
  closed : Bool := false
  /-- The semaphore can be taken. -/
  free : Bool := true
  worker : Option Nat := none
  /-- The number of the next request. -/
  requests : Nat := 0
  /-- The threads that were started and have not done anything yet. -/
  pending : Nat → Option Job := fun _ => none
  /-- What is in the queues of the requests. -/
  results : Nat → Option Reading := fun _ => none

/-- What the surroundings decide. -/
structure OcrEnv where
  /-- The answer of an operation that is not about threads. -/
  answer : (e : Eff) → Except Exc e.Ans := fun _ => .error .other
  /-- The operation is not over yet. -/
  wait : Bool := false
  /-- Starting a thread fails. -/
  fault : Bool := false
  /-- A thread is alive, or a wait has run out. -/
  flag : Bool := false
  reading : Reading := .error .other

/-- The arguments of a burst, the time it began and the program of the call. -/
def OcrCall.program (o : Recognizer) (cfg : Config) (c : CallId) : OcrCall → OcrProg Unit
  | .process a => do
      let _ ← (GateProcessor.process c cfg a).expand (bounded o cfg) a.decisionStartedAt
      return ()
  | .recordSkipped a => do
      let _ ← (GateProcessor.recordSkipped cfg a).expand (bounded o cfg) none
      return ()
  | .worker id job => invoke id job
  | .close => OcrRequest.close o

/-- One operation. -/
def ocrExec (c : CallId) (env : OcrEnv) (s : OcrShared) :
    (e : OcrEff) → Option (Except Exc e.Ans × OcrShared)
  | .outer (.acquire .actuation) =>
      if s.actuationLock.isSome then none
      else some (.ok (), { s with actuationLock := some c })
  | .outer (.release .actuation) => some (.ok (), { s with actuationLock := none })
  | .outer e => if env.wait then none else some (env.answer e, s)
  | .acquire => if s.slotLock.isSome then none else some (.ok (), { s with slotLock := some c })
  | .release => some (.ok (), { s with slotLock := none })
  | .isClosed => some (.ok s.closed, s)
  | .setClosed => some (.ok (), { s with closed := true })
  | .tryAcquire => some (.ok s.free, { s with free := false })
  | .releaseSlot =>
      if s.free then some (.error (.valueError "Semaphore released too many times"), s)
      else some (.ok (), { s with free := true })
  | .newRequest => some (.ok s.requests, { s with requests := s.requests + 1 })
  | .startWorker id job =>
      if env.fault then some (.error (.runtimeError "can't start new thread"), s)
      else some (.ok (), { s with pending := Function.update s.pending id (some job) })
  | .worker => some (.ok s.worker, s)
  | .setWorker id => some (.ok (), { s with worker := id })
  | .isAlive _ => some (.ok env.flag, s)
  | .join _ => if env.wait then none else some (.ok (), s)
  | .operate _ _ => some (.ok (), s)
  | .operated _ => if env.wait then none else some (env.reading, s)
  | .put id reading =>
      some (.ok (), { s with results := Function.update s.results id (some reading) })
  | .get id =>
      match s.results id with
      | some reading =>
          some (.ok (some reading), { s with results := Function.update s.results id none })
      | none => if env.flag then some (.ok none, s) else none
  | .startAbandon =>
      some (if env.fault then .error (.runtimeError "can't start new thread") else .ok (), s)
  | .abandoned => if env.wait then none else some (.ok env.flag, s)
  | .startClose =>
      some (if env.fault then .error (.runtimeError "can't start new thread") else .ok (), s)

/-- A call begins in the process that lives.  A thread runs once. -/
def ocrAccept (c : CallId) (call : OcrCall) (s : OcrShared) : Option OcrShared :=
  if c.proc ≠ s.life then none
  else
    match call with
    | .worker id job =>
        if s.pending id = some job then some { s with pending := Function.update s.pending id none }
        else none
    | _ => some s

/-- The threads of one processor after the other. -/
def ocrThreads (o : Recognizer) (cfg : Config) :
    Machine OcrEff OcrEff.Ans Exc OcrEnv OcrShared OcrCall Unit where
  program c call := call.program o cfg c
  accept := ocrAccept
  exec c e env s := ocrExec c env s e
  crash p _ s := if p = s.life then { life := s.life + 1, requests := s.requests } else s

/-- The log of a run. -/
abbrev OcrLog := List (Event OcrEff OcrEff.Ans Exc OcrCall Unit)

/-- The state of a run. -/
abbrev OcrWorld := World OcrEff OcrEff.Ans Exc OcrShared OcrCall Unit

end OcrRequest

end GateController

import GateController.Effects.System

/-!
# The burst queue

`BoundedBurstQueue` hands camera bursts from the collecting thread to the
processing thread and keeps the freshest ones.  `put` and `stop` hold its lock,
`get` does not, so the consumer can take an item between any two operations of a
`put` or a `stop`.  The model is the class as programs over single operations of
the inner queue, run by the scheduler of `Effects.System`.  A thread that is
never scheduled again (a crash) keeps its lock.

The inner queue holds Python objects of which `None` is the sentinel, so its
items are `Option α`.
-/

namespace GateController

open Effects

/-- `BoundedBurstQueue.__init__`: the inner queue's `maxsize` is positive. -/
structure BoundedBurstQueue where
  maxsize : Nat
  positive : 0 < maxsize

/-- The constructor, which raises `ValueError` on the other values. -/
def BoundedBurstQueue.ofMaxPending (maxPending : Int) : Option BoundedBurstQueue :=
  if h : maxPending ≤ 0 then none else some ⟨maxPending.toNat, by omega⟩

/-- Single operations on the inner queue, the lock and the flag. -/
inductive QueueEff (α : Type) : Type where
  | acquire
  | release
  | stopping
  | setStopping
  | full
  | getNowait
  | putNowait (item : Option α)
  | get

/-- Answers to the operations. -/
@[reducible] def QueueEff.Ans {α : Type} : QueueEff α → Type
  | .stopping => Bool
  | .full => Bool
  | .getNowait => Option α
  | .get => Option α
  | .acquire => Unit
  | .release => Unit
  | .setStopping => Unit
  | .putNowait _ => Unit

/-- `queue.Empty` and `queue.Full`.  `exhausted` marks a drain loop that was given too few
passes. -/
inductive QueueExc where
  | empty
  | full
  | exhausted
deriving DecidableEq, Repr

/-- A call of one of the three methods. -/
inductive QueueCall (α : Type) : Type where
  | put (item : α)
  | get
  | stop

/-- What the methods return. -/
inductive QueueReturn (α : Type) : Type where
  | dropped (item : Option α)
  | got (item : Option α)
  | drained (items : List (Option α))

abbrev QueueProg (α β : Type) := Prog (QueueEff α) QueueEff.Ans QueueExc β

namespace BoundedBurstQueue

variable {α β : Type}

/-- One operation, as a program. -/
def op (e : QueueEff α) : QueueProg α e.Ans := Prog.perform e

/-- `with self._lock`. -/
def withLock (body : QueueProg α β) : QueueProg α β :=
  op .acquire >>= fun _ => body.finally_ (op .release)

/-- `self._queue.get_nowait()` with `queue.Empty` as a value. -/
def takeNowait : QueueProg α (Except Unit (Option α)) :=
  (op .getNowait).attempt >>= fun
    | .ok item => return .ok item
    | .error .empty => return .error ()
    | .error x => .raise x

/-- The eviction of `put`: the oldest item if the queue is full and still has one. -/
def evict : QueueProg α (Option α) := do
  let full : Bool ← op .full
  if full then
    match ← takeNowait with
    | .ok dropped => return dropped
    | .error () => return none
  else
    return none

/-- `BoundedBurstQueue.put`. -/
def put (item : α) : QueueProg α (Option α) :=
  withLock do
    let stopping : Bool ← op .stopping
    if stopping then
      return some item
    else
      let dropped ← evict
      let _ : Unit ← op (.putNowait (some item))
      return dropped

/-- `BoundedBurstQueue.get`. -/
def get : QueueProg α (Option α) := op .get

/-- The loop of `stop`, with a number of passes. -/
def drain : Nat → List (Option α) → QueueProg α (List (Option α))
  | 0, _ => .raise .exhausted
  | passes + 1, dropped => do
      match ← takeNowait with
      | .ok item => drain passes (dropped ++ [item])
      | .error () => return dropped

/-- `BoundedBurstQueue.stop`. -/
def stop (q : BoundedBurstQueue) : QueueProg α (List (Option α)) :=
  withLock do
    let stopping : Bool ← op .stopping
    if stopping then
      return []
    else
      let _ : Unit ← op .setStopping
      let dropped ← drain (q.maxsize + 1) []
      let _ : Unit ← op (.putNowait none)
      return dropped

/-- The program of a call. -/
def program (q : BoundedBurstQueue) : QueueCall α → QueueProg α (QueueReturn α)
  | .put item => put item >>= fun dropped => return .dropped dropped
  | .get => get >>= fun item => return .got item
  | .stop => q.stop >>= fun dropped => return .drained dropped

end BoundedBurstQueue

/-- The inner queue, oldest item first, with the lock and the flag. -/
structure QueueState (α : Type) : Type where
  items : List (Option α)
  holder : Option CallId
  stopping : Bool

def QueueState.init {α : Type} : QueueState α := ⟨[], none, false⟩

namespace BoundedBurstQueue

variable {α : Type}

/-- One operation.  `acquire` waits for the lock and `get` for an item. -/
def exec (q : BoundedBurstQueue) (c : CallId) (s : QueueState α) :
    (e : QueueEff α) → Option (Except QueueExc e.Ans × QueueState α)
  | .acquire => if s.holder = none then some (.ok (), { s with holder := some c }) else none
  | .release => some (.ok (), { s with holder := none })
  | .stopping => some (.ok s.stopping, s)
  | .setStopping => some (.ok (), { s with stopping := true })
  | .full => some (.ok (decide (q.maxsize ≤ s.items.length)), s)
  | .getNowait =>
      match s.items with
      | [] => some (.error .empty, s)
      | item :: rest => some (.ok item, { s with items := rest })
  | .putNowait item =>
      if q.maxsize ≤ s.items.length then some (.error .full, s)
      else some (.ok (), { s with items := s.items ++ [item] })
  | .get =>
      match s.items with
      | [] => none
      | item :: rest => some (.ok item, { s with items := rest })

/-- Any number of threads over one queue. -/
def machine (q : BoundedBurstQueue) :
    Machine (QueueEff α) QueueEff.Ans QueueExc Unit (QueueState α) (QueueCall α) (QueueReturn α) where
  program _ call := q.program call
  accept _ _ s := some s
  exec c e _ s := q.exec c s e
  crash _ _ s := s

end BoundedBurstQueue

abbrev QueueEvent (α : Type) :=
  Event (QueueEff α) QueueEff.Ans QueueExc (QueueCall α) (QueueReturn α)

abbrev QueueWorld (α : Type) :=
  World (QueueEff α) QueueEff.Ans QueueExc (QueueState α) (QueueCall α) (QueueReturn α)

/-! ## Items in the log -/

section Log

variable {α β : Type}

/-- What the entries of a log yield, oldest first. -/
def collect (f : QueueEvent α → List β) : List (QueueEvent α) → List β
  | [] => []
  | ev :: log => collect f log ++ f ev

/-- The item an entry puts into the inner queue, with its call. -/
def inserted : QueueEvent α → List (CallId × Option α)
  | .did c (.putNowait item) (.ok _) => [(c, item)]
  | _ => []

/-- The item an entry takes out of the inner queue, with its call. -/
def taken : QueueEvent α → List (CallId × Option α)
  | .did c .getNowait (.ok item) => [(c, (item : Option α))]
  | .did c .get (.ok item) => [(c, (item : Option α))]
  | _ => []

/-- The item an entry hands to the consumer. -/
def consumed : QueueEvent α → List (Option α)
  | .did _ .get (.ok item) => [(item : Option α)]
  | _ => []

/-- All that was put into the inner queue. -/
def insertions (log : List (QueueEvent α)) : List (CallId × Option α) := collect inserted log

/-- All that was taken out of the inner queue. -/
def takings (log : List (QueueEvent α)) : List (CallId × Option α) := collect taken log

/-- All that the consumer received. -/
def received (log : List (QueueEvent α)) : List (Option α) := collect consumed log

/-- The part of one call. -/
def ofCall (c : CallId) (moves : List (CallId × Option α)) : List (Option α) :=
  (moves.filter fun move => move.1 = c).map Prod.snd

end Log

/-! ## What is watched of a call -/

/-- How far a call has come. -/
inductive QueueStage where
  | called
  | entered
  | refused
  | passed
  | crowded
  | room
  | draining
  | drained
  | done
deriving DecidableEq, Repr

/-- A call, whether it holds the lock, how far it has come and what it took out. -/
structure QueueWatch (α : Type) : Type where
  call : QueueCall α
  inside : Bool
  stage : QueueStage
  took : List (Option α)

namespace QueueWatch

variable {α : Type}

def start (call : QueueCall α) : QueueWatch α := ⟨call, false, .called, []⟩

def IsPut (w : QueueWatch α) : Prop := ∃ item, w.call = .put item

/-- The stages between the entry into the lock and the last operation. -/
def Busy (w : QueueWatch α) : Prop :=
  w.stage = .entered ∨ w.stage = .passed ∨ w.stage = .crowded ∨ w.stage = .room ∨
    w.stage = .draining ∨ w.stage = .drained

/-- The stage after the flag was read. -/
def afterFlag (flag : Bool) : QueueStage := if flag then .refused else .passed

/-- The stage after `full()`. -/
def afterFull (full : Bool) : QueueStage := if full then .crowded else .room

/-- An item comes out.  It makes room for a `put`. -/
def take (w : QueueWatch α) (item : Option α) : QueueWatch α :=
  { w with stage := if w.stage = .crowded then .room else w.stage, took := w.took ++ [item] }

/-- The consumer has its item. -/
def receive (w : QueueWatch α) (item : Option α) : QueueWatch α :=
  { w with stage := .done, took := w.took ++ [item] }

def next (w : QueueWatch α) : (e : QueueEff α) → Except QueueExc e.Ans → QueueWatch α
  | .acquire, _ => { w with inside := true, stage := .entered }
  | .release, _ => { w with inside := false }
  | .stopping, .ok flag => { w with stage := afterFlag flag }
  | .stopping, .error _ => w
  | .setStopping, _ => { w with stage := .draining }
  | .full, .ok full => { w with stage := afterFull full }
  | .full, .error _ => w
  | .getNowait, .ok item => w.take item
  | .getNowait, .error _ => { w with stage := if w.stage = .crowded then .room else .drained }
  | .putNowait _, _ => { w with stage := .done }
  | .get, .ok item => w.receive item
  | .get, .error _ => w

def allow (w : QueueWatch α) : QueueEff α → Prop
  | .acquire => w.stage = .called ∧ w.call ≠ .get
  | .release => w.inside = true ∧ ¬ w.Busy
  | .stopping => w.stage = .entered
  | .setStopping => w.stage = .passed ∧ w.call = .stop
  | .full => w.stage = .passed ∧ w.IsPut
  | .getNowait => w.stage = .crowded ∧ w.IsPut ∨ w.stage = .draining ∧ w.call = .stop
  | .putNowait item =>
      w.stage = .room ∧ (∃ x, w.call = .put x ∧ item = some x) ∨
        w.stage = .drained ∧ w.call = .stop ∧ item = none
  | .get => w.stage = .called ∧ w.call = .get

/-- The inner queue never refuses an item, has items only in what is evicted or drained, and
gives a drain at most as many as it can hold. -/
def expect (q : BoundedBurstQueue) (w : QueueWatch α) :
    (e : QueueEff α) → Except QueueExc e.Ans → Prop
  | .getNowait, .ok item => Option.isSome item ∧ (w.stage = .draining → w.took.length < q.maxsize)
  | .getNowait, .error x => x = .empty
  | _, .ok _ => True
  | _, .error _ => False

/-- What a call returns, and what it has done by then. -/
def Returns (w : QueueWatch α) (r : Except QueueExc (QueueReturn α)) : Prop :=
  w.inside = false ∧
  match w.call with
  | .put item =>
      w.stage = .refused ∧ w.took = [] ∧ r = .ok (.dropped (some item)) ∨
        w.stage = .done ∧ ∃ dropped, w.took = dropped.toList.map some ∧ r = .ok (.dropped dropped)
  | .get => w.stage = .done ∧ ∃ item, w.took = [item] ∧ r = .ok (.got item)
  | .stop =>
      w.stage = .refused ∧ w.took = [] ∧ r = .ok (.drained []) ∨
        w.stage = .done ∧ r = .ok (.drained w.took)

end QueueWatch

def queueWatch {α : Type} (q : BoundedBurstQueue) :
    Protocol (QueueEff α) QueueEff.Ans QueueExc (QueueCall α) (QueueWatch α) where
  start := QueueWatch.start
  next := QueueWatch.next
  allow := QueueWatch.allow
  expect := QueueWatch.expect q

end GateController

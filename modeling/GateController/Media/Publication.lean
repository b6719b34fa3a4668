import GateController.Data.Files
import GateController.Effects.System
import GateController.Media.Capabilities

/-!
# Publishing the media capabilities

The sidecar has one thread that publishes a snapshot again and again, through a temporary file
that is renamed to the public one.  The controller reads the public file whenever it reports.
Between the two there is only the directory.  A write may stop anywhere, the process of the
sidecar may crash, and temporary files may be left behind.

A reader never sees a part of a file: what it reports is a snapshot that was taken in full and
is recent, or that everything is unavailable.
-/

namespace GateController

open Data Effects MediaAuth

namespace MediaCapabilities

/-! ## Programs -/

/-- What publishing or reading may raise. -/
inductive PublishError where
  | os
  | media (x : MediaError)

/-- What the sidecar and the controller do. -/
inductive PublishEff where
  | stopped
  /-- The request of `_gateway_is_ready`. -/
  | gateway
  /-- `int(time.time())`. -/
  | observe
  | mkstemp
  | write (name : String) (content : List UInt8)
  | chmod (name : String)
  | replace (name : String)
  | fsyncDirectory
  | unlink (name : String)
  /-- `time.time()` of the reader. -/
  | now
  | open_

/-- What an operation answers. -/
@[reducible] def PublishEff.Ans : PublishEff → Type
  | .stopped => Bool
  | .gateway => Option Response
  | .observe => Int
  | .mkstemp => String
  | .write _ _ => Unit
  | .chmod _ => Unit
  | .replace _ => Unit
  | .fsyncDirectory => Unit
  | .unlink _ => Unit
  | .now => ℚ
  | .open_ => Opened

/-- A program of the sidecar or the controller. -/
abbrev PublishProg (α : Type) := Prog PublishEff PublishEff.Ans PublishError α

/-- What is given: the reader and the writer of JSON, and the operator's settings. -/
structure Publisher where
  given : Given
  /-- `json.dumps(capabilities, sort_keys=True, separators=(",", ":"))`. -/
  dumps : Snapshot → List UInt8
  /-- What is written is read back. -/
  loads_dumps : ∀ s, Reportable s.media → loadBytes given (dumps s) = .ok s.document
  environment : String → Option String

/-- One operation. -/
def op (e : PublishEff) : PublishProg e.Ans := Prog.perform e

/-- The `try` of `write_capabilities`. -/
def fill (temporary : String) (encoded : List UInt8) : PublishProg Unit := do
  op (.write temporary encoded)
  op (.chmod temporary)
  op (.replace temporary)
  op .fsyncDirectory

/-- `write_capabilities`. -/
def writeCapabilities (encoded : List UInt8) : PublishProg Unit := do
  let temporary ← op .mkstemp
  let r ← (fill temporary encoded).attempt
  op (.unlink temporary)
  Prog.ofExcept r

/-- `publish_once`. -/
def publishOnce (p : Publisher) : PublishProg Unit := do
  let response ← op .gateway
  let readiness ← Prog.ofExcept ((gatewayIsReady p.given response).mapError .media)
  let observedAt ← op .observe
  writeCapabilities (p.dumps (capabilitySnapshot p.environment readiness observedAt))

/-- `_run`, for a number of rounds at most. -/
def publishing (p : Publisher) : Nat → PublishProg Unit
  | 0 => return ()
  | rounds + 1 => do
      if ← op .stopped then return ()
      else
        match ← (publishOnce p).attempt with
        | .ok () => publishing p rounds
        | .error .os => publishing p rounds
        | .error (.media x) => .raise (.media x)

/-- `read_media_capabilities`, with the age it allows. -/
def readMedia (p : Publisher) (maxAge : ℚ) : PublishProg Media := do
  let now ← op .now
  let opened ← op .open_
  Prog.ofExcept ((readMediaCapabilities p.given opened now maxAge).mapError .media)

/-! ## The machine -/

/-- What can begin. -/
inductive PublishCall where
  | publish (rounds : Nat)
  | read (maxAge : ℚ)

/-- What a call returns. -/
inductive PublishResult where
  | stopped
  | media (m : Media)

/-- The public file. -/
def target : String := "capabilities.json"

/-- What the processes share. -/
structure PublishState where
  files : Files (List UInt8)
  /-- The thread that publishes. -/
  publisher : Option CallId := none

/-- What the outside decides at a step. -/
structure PublishEnv where
  stopped : Bool := false
  response : Option Response := none
  observedAt : Int := 0
  /-- The name that `mkstemp` comes to. -/
  name : String := ".capabilities.0"
  /-- The call fails. -/
  fault : Bool := false
  /-- What a failed write leaves. -/
  part : List UInt8 := []
  now : ℚ := 0

/-- A call that fails, or does something to the files. -/
def touch (env : PublishEnv) (s : PublishState) (f : Files (List UInt8) → Files (List UInt8)) :
    Except PublishError Unit × PublishState :=
  if env.fault then (.error .os, s) else (.ok (), { s with files := f s.files })

/-- What an operation does. -/
def exec (env : PublishEnv) (s : PublishState) :
    (e : PublishEff) → Except PublishError e.Ans × PublishState
  | .stopped => (.ok env.stopped, s)
  | .gateway => (.ok env.response, s)
  | .observe => (.ok env.observedAt, s)
  | .mkstemp =>
      if env.fault || (s.files env.name).isSome || env.name == target then (.error .os, s)
      else (.ok env.name, { s with files := s.files.put env.name [] })
  | .write name content =>
      if env.fault then (.error .os, { s with files := s.files.put name env.part })
      else (.ok (), { s with files := s.files.put name content })
  | .chmod _ => touch env s id
  | .replace name => touch env s (Files.rename name target)
  -- `_fsync_directory` swallows what fails, but not where it closes the directory.
  | .fsyncDirectory => touch env s id
  | .unlink name => touch env s (Files.remove name)
  | .now => (.ok env.now, s)
  | .open_ =>
      if env.fault then (.ok .failed, s)
      else
        match s.files target with
        | none => (.ok .notFound, s)
        | some content => (.ok (.file true content.length content), s)

/-- The program of a call. -/
def program (p : Publisher) : PublishCall → PublishProg PublishResult
  | .publish rounds => do
      publishing p rounds
      return .stopped
  | .read maxAge => do
      let m ← readMedia p maxAge
      return .media m

/-- A process starts its thread once. -/
def accept (c : CallId) (s : PublishState) : PublishCall → Option PublishState
  | .publish _ => if s.publisher.isSome then none else some { s with publisher := some c }
  | .read _ => some s

/-- The sidecar and the controller. -/
def publication (p : Publisher) :
    Machine PublishEff PublishEff.Ans PublishError PublishEnv PublishState PublishCall
      PublishResult where
  program _ call := program p call
  accept c call s := accept c s call
  exec _ e env s := some (exec env s e)
  crash proc _ s := { s with publisher := s.publisher.filter (·.proc ≠ proc) }

/-- The log of a run. -/
abbrev PublishLog :=
  List (Event PublishEff PublishEff.Ans PublishError PublishCall PublishResult)

/-- The state of a run. -/
abbrev PublishWorld :=
  World PublishEff PublishEff.Ans PublishError PublishState PublishCall PublishResult

/-! ## What a call has to do in order -/

/-- What is watched of a call. -/
structure PublishWatch where
  publishes : Bool := false
  /-- What the gateway answered, if that was the last operation. -/
  response : Option (Option Response) := none
  /-- The answer of the gateway and the clock that was read right after it. -/
  taken : Option (Option Response × Int) := none
  temporary : Option String := none
  /-- What was written to the temporary file in full. -/
  filled : Option (List UInt8) := none
  maxAge : ℚ := 0
  now : Option ℚ := none
  opened : Option Opened := none

namespace PublishWatch

/-- The watch of a new call. -/
def start : PublishCall → PublishWatch
  | .publish _ => { publishes := true }
  | .read maxAge => { maxAge }

def next (s : PublishWatch) : (e : PublishEff) → Except PublishError e.Ans → PublishWatch
  | .gateway, .ok response => { s with response := some response }
  | .observe, .ok observedAt =>
      { s with response := none, taken := s.response.map fun response => (response, observedAt) }
  | .mkstemp, .ok name => { s with response := none, temporary := some name, filled := none }
  | .write _ content, .ok () => { s with response := none, filled := some content }
  | .write _ _, .error _ => { s with response := none, filled := none }
  | .replace _, .ok () => { s with response := none, filled := none }
  | .unlink _, .ok () => { s with response := none, filled := none }
  | .now, .ok now => { s with response := none, now := some now }
  | .open_, .ok opened => { s with response := none, opened := some opened }
  | _, _ => { s with response := none }

/-- What the call has observed comes to these bytes. -/
def Encodes (p : Publisher) (s : PublishWatch) (content : List UInt8) : Prop :=
  ∃ response readiness observedAt, s.taken = some (response, observedAt) ∧
    gatewayIsReady p.given response = .ok readiness ∧
    content = p.dumps (capabilitySnapshot p.environment readiness observedAt)

/-- Only a thread that publishes changes files.  It writes what it has observed to its own
temporary file, and makes that file public only if it holds all of it. -/
def allow (p : Publisher) (s : PublishWatch) : PublishEff → Prop
  | .mkstemp => s.publishes = true
  | .write name content => s.publishes = true ∧ s.temporary = some name ∧ s.Encodes p content
  | .chmod name => s.publishes = true ∧ s.temporary = some name
  | .replace name => s.publishes = true ∧ s.temporary = some name ∧ s.filled ≠ none
  | .unlink name => s.publishes = true ∧ s.temporary = some name
  | _ => True

end PublishWatch

/-- The rules of publishing and reading. -/
def publishWatch (p : Publisher) :
    Protocol PublishEff PublishEff.Ans PublishError PublishCall PublishWatch where
  start := PublishWatch.start
  next s := s.next
  allow s := s.allow p
  expect _ _ _ := True

/-- A call that returns media has made them of what it has read. -/
def Reports (p : Publisher) (_ : CallId) (s : PublishWatch)
    (r : Except PublishError PublishResult) : Prop :=
  ∀ m, r = .ok (.media m) → s.publishes = false ∧ ∃ now opened, s.now = some now ∧
    s.opened = some opened ∧ readMediaCapabilities p.given opened now s.maxAge = .ok m

section Obeys

variable {p : Publisher} {s : PublishWatch} {α β : Type}

/-- The call is one that publishes. -/
def Publishes (s : PublishWatch) (_ : Except PublishError α) : Prop := s.publishes = true

theorem bind_publishes {m : PublishProg α} {f : α → PublishProg β}
    (hm : Obeys (publishWatch p) Publishes s m)
    (hf : ∀ s a, s.publishes = true → Obeys (publishWatch p) Publishes s (f a)) :
    Obeys (publishWatch p) Publishes s (m >>= f) :=
  hm.bind (fun s a hs => hf s a hs) fun _ _ hs => hs

theorem fill_publishes {temporary : String} {encoded : List UInt8} (hs : s.publishes = true)
    (htemporary : s.temporary = some temporary) (hencodes : s.Encodes p encoded) :
    Obeys (publishWatch p) (fun s' _ => s'.publishes = true ∧ s'.temporary = some temporary) s
      (fill temporary encoded) := by
  refine Obeys.bind (R := fun s' r => s'.publishes = true ∧ s'.temporary = some temporary ∧
    (r = .ok () → s'.filled ≠ none)) (Obeys.perform ⟨hs, htemporary, hencodes⟩ ?_) ?_
    fun s' x h => ⟨h.1, h.2.1⟩
  · rintro (x | ⟨⟩) -
    · exact ⟨hs, htemporary, fun h => by cases h⟩
    · exact ⟨hs, htemporary, fun _ h => by cases h⟩
  · rintro s₁ ⟨⟩ ⟨hs₁, htemporary₁, hfilled⟩
    refine Obeys.bind (R := fun s' _ => s'.publishes = true ∧ s'.temporary = some temporary ∧
      s'.filled ≠ none) (Obeys.perform ⟨hs₁, htemporary₁⟩ ?_) ?_ fun s' x h => ⟨h.1, h.2.1⟩
    · rintro (x | ⟨⟩) -
      · exact ⟨hs₁, htemporary₁, hfilled rfl⟩
      · exact ⟨hs₁, htemporary₁, hfilled rfl⟩
    · rintro s₂ ⟨⟩ ⟨hs₂, htemporary₂, hfilled₂⟩
      refine Obeys.bind (R := fun s' _ => s'.publishes = true ∧ s'.temporary = some temporary)
        (Obeys.perform ⟨hs₂, htemporary₂, hfilled₂⟩ ?_) ?_ fun s' x h => h
      · rintro (x | ⟨⟩) -
        · exact ⟨hs₂, htemporary₂⟩
        · exact ⟨hs₂, htemporary₂⟩
      · rintro s₃ ⟨⟩ ⟨hs₃, htemporary₃⟩
        refine Obeys.perform trivial ?_
        rintro (x | ⟨⟩) -
        · exact ⟨hs₃, htemporary₃⟩
        · exact ⟨hs₃, htemporary₃⟩

theorem writeCapabilities_publishes {encoded : List UInt8} (hs : s.publishes = true)
    (hencodes : s.Encodes p encoded) :
    Obeys (publishWatch p) Publishes s (writeCapabilities encoded) := by
  refine Obeys.bind (R := fun s' r => s'.publishes = true ∧
    ∀ name, r = .ok name → s'.temporary = some name ∧ s'.Encodes p encoded)
    (Obeys.perform hs ?_) ?_ fun s' x h => h.1
  · rintro (x | name) -
    · exact ⟨hs, fun _ h => by cases h⟩
    · refine ⟨hs, ?_⟩
      rintro _ ⟨⟩
      exact ⟨rfl, hencodes⟩
  · rintro s₁ name ⟨hs₁, hname⟩
    obtain ⟨htemporary, hencodes₁⟩ := hname name rfl
    refine Obeys.bind (R := fun s' _ => s'.publishes = true ∧ s'.temporary = some name)
      (Obeys.attempt_iff.2 (fill_publishes hs₁ htemporary hencodes₁)) ?_ fun s' x h => h.1
    rintro s₂ r ⟨hs₂, htemporary₂⟩
    refine bind_publishes (Obeys.perform ⟨hs₂, htemporary₂⟩ ?_) fun s₃ _ hs₃ =>
      Obeys.ofExcept_iff.2 hs₃
    rintro (x | ⟨⟩) -
    · exact hs₂
    · exact hs₂

theorem publishOnce_publishes (hs : s.publishes = true) :
    Obeys (publishWatch p) Publishes s (publishOnce p) := by
  refine Obeys.bind (R := fun s' r => s'.publishes = true ∧
    ∀ response, r = .ok response → s'.response = some response)
    (Obeys.perform trivial ?_) ?_ fun s' x h => h.1
  · rintro (x | response) -
    · exact ⟨hs, fun _ h => by cases h⟩
    · refine ⟨hs, ?_⟩
      rintro _ ⟨⟩
      rfl
  · rintro s₁ response ⟨hs₁, hresponse⟩
    cases hready : gatewayIsReady p.given response with
    | error x => exact hs₁
    | ok readiness =>
        change Obeys (publishWatch p) Publishes s₁ (op .observe >>= fun observedAt =>
          writeCapabilities (p.dumps (capabilitySnapshot p.environment readiness observedAt)))
        refine Obeys.bind (R := fun s' r => s'.publishes = true ∧
          ∀ observedAt, r = .ok observedAt → s'.taken = some (response, observedAt))
            (Obeys.perform trivial ?_) ?_ fun s' x h => h.1
        · rintro (x | observedAt) -
          · exact ⟨hs₁, fun _ h => by cases h⟩
          · refine ⟨hs₁, ?_⟩
            rintro _ ⟨⟩
            have htaken : s₁.response = some response := hresponse response rfl
            exact congrArg (Option.map fun response => (response, observedAt)) htaken
        · rintro s₂ observedAt ⟨hs₂, htaken⟩
          exact writeCapabilities_publishes hs₂
            ⟨response, readiness, observedAt, htaken observedAt rfl, hready, rfl⟩

theorem publishing_publishes (rounds : Nat) (hs : s.publishes = true) :
    Obeys (publishWatch p) Publishes s (publishing p rounds) := by
  induction rounds generalizing s with
  | zero => exact hs
  | succ rounds ih =>
      refine bind_publishes (Obeys.perform trivial ?_) fun s₁ stopped hs₁ => ?_
      · rintro (x | stopped) -
        · exact hs
        · exact hs
      · cases stopped with
        | true => exact hs₁
        | false =>
            refine bind_publishes (Obeys.attempt_iff.2 (publishOnce_publishes hs₁))
              fun s₂ r hs₂ => ?_
            rcases r with (_ | x) | ⟨⟩
            · exact ih hs₂
            · exact hs₂
            · exact ih hs₂

theorem readMedia_reports (c : CallId) (maxAge : ℚ) :
    Obeys (publishWatch p) (Reports p c) (.start (.read maxAge)) (program p (.read maxAge)) := by
  refine Obeys.bind (R := fun s' r => ∀ m, r = .ok m → s'.publishes = false ∧
    ∃ now opened, s'.now = some now ∧ s'.opened = some opened ∧
      readMediaCapabilities p.given opened now s'.maxAge = .ok m)
    ?_ ?_ fun s' x _ m h => by cases h
  · refine Obeys.bind (R := fun s' r => s'.publishes = false ∧ s'.maxAge = maxAge ∧
      ∀ now, r = .ok now → s'.now = some now) (Obeys.perform trivial ?_) ?_
      fun s' x _ m h => by cases h
    · rintro (x | now) -
      · exact ⟨rfl, rfl, fun _ h => by cases h⟩
      · refine ⟨rfl, rfl, ?_⟩
        rintro _ ⟨⟩
        rfl
    · rintro s₁ now ⟨hs, hage, hnow⟩
      refine Obeys.bind (R := fun s' r => s'.publishes = false ∧ s'.maxAge = maxAge ∧
        ∀ opened, r = .ok opened → s'.now = some now ∧ s'.opened = some opened)
        (Obeys.perform trivial ?_) ?_ fun s' x _ m h => by cases h
      · rintro (x | opened) -
        · exact ⟨hs, hage, fun _ h => by cases h⟩
        · refine ⟨hs, hage, ?_⟩
          rintro _ ⟨⟩
          exact ⟨hnow now rfl, rfl⟩
      · rintro s₂ opened ⟨hs₂, hage₂, hopened⟩
        obtain ⟨hnow₂, hopened₂⟩ := hopened opened rfl
        rw [Obeys.ofExcept_iff]
        intro m hm
        refine ⟨hs₂, now, opened, hnow₂, hopened₂, ?_⟩
        rw [hage₂]
        cases hread : readMediaCapabilities p.given opened now maxAge with
        | error x =>
            rw [hread] at hm
            cases hm
        | ok m' =>
            rw [hread] at hm
            cases hm
            rfl
  · rintro s' m h _ ⟨⟩
    exact h m rfl

/-- Every call keeps to the rules. -/
theorem program_publishes (p : Publisher) (c : CallId) (call : PublishCall) :
    Obeys (publishWatch p) (Reports p c) (.start call) (program p call) := by
  cases call with
  | publish rounds =>
      refine (publishing_publishes rounds rfl).bind (fun _ _ _ _ h => by cases h)
        fun _ _ _ _ h => by cases h
  | read maxAge => exact readMedia_reports c maxAge

end Obeys

/-! ## What is in the public file -/

/-- The last operation of the call was the gateway's answer. -/
def Answered (log : PublishLog) (c : CallId) (response : Option Response) : Prop :=
  ∃ between earlier, log = between ++ .did c .gateway (.ok response) :: earlier ∧
    ∀ e r, .did c e r ∉ between

/-- In one round the call got the answer of the gateway and read the clock right after it. -/
def Round (log : PublishLog) (c : CallId) (response : Option Response) (observedAt : Int) : Prop :=
  ∃ later earlier, log = later ++ .did c .observe (.ok observedAt) :: earlier ∧
    Answered earlier c response

/-- A thread has taken the snapshot, all of it in one round. -/
def Taken (p : Publisher) (log : PublishLog) (snapshot : Snapshot) : Prop :=
  ∃ c response readiness observedAt, Round log c response observedAt ∧
    gatewayIsReady p.given response = .ok readiness ∧
    snapshot = capabilitySnapshot p.environment readiness observedAt

/-- The bytes are all of a snapshot that a thread has taken. -/
def Published (p : Publisher) (log : PublishLog) (content : List UInt8) : Prop :=
  ∃ snapshot, Taken p log snapshot ∧ content = p.dumps snapshot

/-- What a call that publishes knows. -/
structure Filling (p : Publisher) (st : PublishState) (log : PublishLog) (c : CallId)
    (s : PublishWatch) : Prop where
  publisher : s.publishes = true → st.publisher = some c
  apart : ∀ name, s.temporary = some name → name ≠ target
  filled : ∀ content, s.filled = some content → s.publishes = true ∧ Published p log content ∧
    ∃ name, s.temporary = some name ∧ st.files name = some content

/-- What a call has observed. -/
structure Observed (p : Publisher) (log : PublishLog) (c : CallId) (s : PublishWatch) : Prop where
  response : ∀ response, s.response = some response → Answered log c response
  taken : ∀ response n, s.taken = some (response, n) → Round log c response n
  maxAge : s.publishes = true ∨ .began c (.read s.maxAge) ∈ log
  now : ∀ now, s.now = some now → .did c .now (.ok now) ∈ log
  opened : ∀ regular size content, s.opened = some (.file regular size content) →
    Published p log content

/-- What holds of the directory and the calls. -/
structure Publishing (p : Publisher) (st : PublishState) (log : PublishLog) : Prop where
  target : ∀ content, st.files target = some content → Published p log content
  filling : Each (fun _ => publishWatch p) (Filling p st log) log
  observed : Ever (fun _ => publishWatch p) (Observed p log) log

section Steps

variable {p : Publisher} {st st' : PublishState} {log : PublishLog} {c d : CallId}
  {s : PublishWatch} {env : PublishEnv}
  {ev : Event PublishEff PublishEff.Ans PublishError PublishCall PublishResult}

theorem Answered.cons {response : Option Response} (h : Answered log c response)
    (hev : ∀ e r, ev ≠ .did c e r) : Answered (ev :: log) c response := by
  obtain ⟨between, earlier, rfl, hbetween⟩ := h
  refine ⟨ev :: between, earlier, rfl, fun e r hmem => ?_⟩
  rcases List.mem_cons.1 hmem with heq | hmem
  · exact hev e r heq.symm
  · exact hbetween e r hmem

theorem Round.cons {response : Option Response} {observedAt : Int}
    (h : Round log c response observedAt) : Round (ev :: log) c response observedAt := by
  obtain ⟨later, earlier, rfl, hanswered⟩ := h
  exact ⟨ev :: later, earlier, rfl, hanswered⟩

theorem Published.cons {content : List UInt8} (h : Published p log content) :
    Published p (ev :: log) content := by
  obtain ⟨_, ⟨c, response, readiness, observedAt, hround, hready, rfl⟩, rfl⟩ := h
  exact ⟨_, ⟨c, response, readiness, observedAt, hround.cons, hready, rfl⟩, rfl⟩

/-- What another call does. -/
theorem Observed.cons (h : Observed p log c s) (hev : ∀ e r, ev ≠ .did c e r) :
    Observed p (ev :: log) c s where
  response r hr := (h.response r hr).cons hev
  taken r n hn := (h.taken r n hn).cons
  maxAge := h.maxAge.imp_right (List.mem_cons_of_mem ev)
  now n hn := List.mem_cons_of_mem ev (h.now n hn)
  opened regular size content ho := (h.opened regular size content ho).cons

/-- After another operation of the call, the answer of the gateway is not its last. -/
theorem Observed.moved (h : Observed p log c s) :
    Observed p (ev :: log) c { s with response := none } where
  response r hr := by cases hr
  taken r n hn := (h.taken r n hn).cons
  maxAge := h.maxAge.imp_right (List.mem_cons_of_mem ev)
  now n hn := List.mem_cons_of_mem ev (h.now n hn)
  opened regular size content ho := (h.opened regular size content ho).cons

/-- What the call writes does not change what it has observed. -/
theorem Observed.wrote (h : Observed p log c s) (temporary : Option String)
    (filled : Option (List UInt8)) :
    Observed p (ev :: log) c { s with response := none, temporary, filled } :=
  ⟨h.moved.response, h.moved.taken, h.moved.maxAge, h.moved.now, h.moved.opened⟩

theorem Filling.cons (h : Filling p st log c s) : Filling p st (ev :: log) c s where
  publisher := h.publisher
  apart := h.apart
  filled content hc := by
    obtain ⟨hs, hpublished, hname⟩ := h.filled content hc
    exact ⟨hs, hpublished.cons, hname⟩

/-- What the watch knows was observed. -/
theorem Observed.published {content : List UInt8} (h : Observed p log c s)
    (hencodes : s.Encodes p content) : Published p log content := by
  obtain ⟨response, readiness, observedAt, htaken, hready, rfl⟩ := hencodes
  exact ⟨_, ⟨c, response, readiness, observedAt, h.taken response observedAt htaken, hready, rfl⟩,
    rfl⟩

/-- A change of the files by the thread that publishes does not concern another call. -/
theorem Filling.other (h : Filling p st log d s) (hpublisher : st.publisher = some c)
    (hsame : st'.publisher = st.publisher) (hd : d ≠ c) : Filling p st' (ev :: log) d s where
  publisher hs := by
    rw [hsame]
    exact h.publisher hs
  apart := h.apart
  filled content hc := by
    have howner := h.publisher (h.filled content hc).1
    rw [hpublisher] at howner
    exact absurd (Option.some.inj howner).symm hd

theorem Filling.of_files (h : Filling p st log d s) (hsame : st'.publisher = st.publisher)
    (hfiles : st'.files = st.files) : Filling p st' (ev :: log) d s where
  publisher hs := by
    rw [hsame]
    exact h.publisher hs
  apart := h.apart
  filled content hc := by
    obtain ⟨hs, hpublished, hname⟩ := h.filled content hc
    rw [hfiles]
    exact ⟨hs, hpublished.cons, hname⟩

/-- An operation of a call, from what becomes of the public file and of the call itself. -/
theorem Publishing.did {e : PublishEff} {r : Except PublishError e.Ans}
    (h : Publishing p st log) (hlive : Live c log)
    (hghost : ghost (fun _ => publishWatch p) c log = some s)
    (hpublisher : st'.publisher = st.publisher)
    (hfiles : st'.files = st.files ∨ s.publishes = true)
    (htarget : ∀ content, st'.files MediaCapabilities.target = some content →
      st.files MediaCapabilities.target = some content ∨ Published p log content)
    (hself : Filling p st log c s → Filling p st' (.did c e r :: log) c (s.next e r))
    (hobserved : Observed p log c s → Observed p (.did c e r :: log) c (s.next e r)) :
    Publishing p st' (.did c e r :: log) where
  target content hc := by
    rcases htarget content hc with hold | hnew
    · exact (h.target content hold).cons
    · exact hnew.cons
  filling := by
    have hc := h.filling c s hlive hghost
    refine h.filling.did hghost (hself hc) fun d s' hd _ hs' => ?_
    rcases hfiles with hsame | hs
    · exact hs'.of_files hpublisher hsame
    · exact hs'.other (hc.publisher hs) hpublisher hd
  observed := h.observed.did hghost (hobserved (h.observed c s hghost)) fun d s' hd _ hs' =>
    hs'.cons fun _ _ heq => hd (by cases heq; rfl)

/-- An operation that leaves the files alone and does not concern what the call writes. -/
theorem Publishing.aside {e : PublishEff} {r : Except PublishError e.Ans}
    (h : Publishing p st log) (hlive : Live c log)
    (hghost : ghost (fun _ => publishWatch p) c log = some s)
    (hsame : (s.next e r).publishes = s.publishes ∧ (s.next e r).temporary = s.temporary ∧
      ((s.next e r).filled = s.filled ∨ (s.next e r).filled = none))
    (hobserved : Observed p log c s → Observed p (.did c e r :: log) c (s.next e r)) :
    Publishing p st (.did c e r :: log) := by
  refine h.did hlive hghost rfl (.inl rfl) (fun _ hc => .inl hc) (fun hs => ⟨?_, ?_, ?_⟩)
    hobserved
  · rw [hsame.1]
    exact hs.publisher
  · rw [hsame.2.1]
    exact hs.apart
  · intro content hc
    have hcons : Filling p st (.did c e r :: log) c s := hs.cons
    rw [hsame.1, hsame.2.1]
    rcases hsame.2.2 with hfilled | hfilled
    · exact hcons.filled content (hfilled ▸ hc)
    · rw [hfilled] at hc
      cases hc

end Steps

section Exec

variable {p : Publisher} {st : PublishState} {log : PublishLog} {c : CallId}
  {s : PublishWatch} {env : PublishEnv}

/-- One operation. -/
theorem Publishing.exec {e : PublishEff} (h : Publishing p st log) (hlive : Live c log)
    (hghost : ghost (fun _ => publishWatch p) c log = some s) (hallow : s.allow p e) :
    Publishing p (exec env st e).2 (.did c e (exec env st e).1 :: log) := by
  have hself := h.filling c s hlive hghost
  cases e with
  | stopped => exact h.aside hlive hghost ⟨rfl, rfl, .inl rfl⟩ fun ho => ho.moved
  | gateway =>
      refine h.aside hlive hghost ⟨rfl, rfl, .inl rfl⟩ fun ho => ⟨?_, ho.moved.taken,
        ho.moved.maxAge, ho.moved.now, ho.moved.opened⟩
      rintro response ⟨⟩
      exact ⟨[], log, rfl, fun _ _ h => by cases h⟩
  | observe =>
      refine h.aside hlive hghost ⟨rfl, rfl, .inl rfl⟩ fun ho => ⟨ho.moved.response, ?_,
        ho.moved.maxAge, ho.moved.now, ho.moved.opened⟩
      intro response n hn
      obtain ⟨answer, hanswer, heq⟩ := Option.map_eq_some_iff.1 hn
      cases heq
      exact ⟨[], log, rfl, ho.response response hanswer⟩
  | fsyncDirectory =>
      simp only [MediaCapabilities.exec, touch]
      split
      next => exact h.aside hlive hghost ⟨rfl, rfl, .inl rfl⟩ fun ho => ho.moved
      next => exact h.aside hlive hghost ⟨rfl, rfl, .inl rfl⟩ fun ho => ho.moved
  | now =>
      refine h.aside hlive hghost ⟨rfl, rfl, .inl rfl⟩ fun ho => ⟨ho.moved.response,
        ho.moved.taken, ho.moved.maxAge, ?_, ho.moved.opened⟩
      rintro now ⟨⟩
      exact List.mem_cons_self
  | open_ =>
      have haside : ∀ {opened : Opened}, (∀ regular size content,
          opened = .file regular size content → st.files MediaCapabilities.target = some content) →
          Publishing p st (.did c .open_ (.ok opened) :: log) := by
        intro opened hopened
        refine h.aside hlive hghost ⟨rfl, rfl, .inl rfl⟩ fun ho => ⟨ho.moved.response,
          ho.moved.taken, ho.moved.maxAge, ho.moved.now, ?_⟩
        rintro regular size content ⟨⟩
        exact (h.target content (hopened regular size content rfl)).cons
      simp only [MediaCapabilities.exec]
      split
      next => exact haside fun _ _ _ h => by cases h
      next =>
        split
        next => exact haside fun _ _ _ h => by cases h
        next content hcontent =>
          refine haside ?_
          rintro _ _ _ ⟨⟩
          exact hcontent
  | mkstemp =>
      simp only [MediaCapabilities.exec]
      split
      next => exact h.aside hlive hghost ⟨rfl, rfl, .inl rfl⟩ fun ho => ho.moved
      next hfree =>
        simp only [Bool.or_eq_true, beq_iff_eq, not_or] at hfree
        refine h.did hlive hghost rfl (.inr hallow) (fun content hc => .inl ?_)
          (fun hs => ⟨hs.publisher, ?_, fun _ hc => by cases hc⟩) fun ho => ho.wrote _ _
        · exact (Files.put_of_ne (Ne.symm hfree.2) _).symm.trans hc
        · rintro name ⟨⟩
          exact hfree.2
  | write name content =>
      obtain ⟨hs, htemporary, hencodes⟩ := hallow
      have hne : MediaCapabilities.target ≠ name := (hself.apart name htemporary).symm
      simp only [MediaCapabilities.exec]
      split
      next =>
        refine h.did hlive hghost rfl (.inr hs) (fun content hc => .inl ?_)
          (fun hf => ⟨hf.publisher, hf.apart, fun _ hc => by cases hc⟩) fun ho => ho.wrote _ _
        exact (Files.put_of_ne hne _).symm.trans hc
      next =>
        refine h.did hlive hghost rfl (.inr hs) (fun content hc => .inl ?_)
          (fun hf => ⟨hf.publisher, hf.apart, ?_⟩) fun ho => ho.wrote _ _
        · exact (Files.put_of_ne hne _).symm.trans hc
        · rintro _ ⟨⟩
          exact ⟨hs, ((h.observed c s hghost).published hencodes).cons, name, htemporary,
            Files.put_self content⟩
  | chmod name =>
      simp only [MediaCapabilities.exec, touch]
      split
      next => exact h.aside hlive hghost ⟨rfl, rfl, .inl rfl⟩ fun ho => ho.moved
      next => exact h.aside hlive hghost ⟨rfl, rfl, .inl rfl⟩ fun ho => ho.moved
  | replace name =>
      obtain ⟨hs, htemporary, hfilled⟩ := hallow
      simp only [MediaCapabilities.exec, touch]
      split
      next => exact h.aside hlive hghost ⟨rfl, rfl, .inl rfl⟩ fun ho => ho.moved
      next =>
        obtain ⟨content, hcontent⟩ := Option.ne_none_iff_exists'.1 hfilled
        obtain ⟨-, hpublished, name', hname', hfile⟩ := hself.filled content hcontent
        cases htemporary.symm.trans hname'
        refine h.did hlive hghost rfl (.inr hs) (fun bytes hbytes => .inr ?_)
          (fun hf => ⟨hf.publisher, hf.apart, fun _ hc => by cases hc⟩) fun ho => ho.wrote _ _
        have htarget : Files.rename name MediaCapabilities.target st.files
            MediaCapabilities.target = some content := by
          simp only [Files.rename, hfile]
          rw [Files.remove_of_ne (hself.apart name htemporary).symm, Files.put_self]
        cases htarget.symm.trans hbytes
        exact hpublished
  | unlink name =>
      obtain ⟨hs, htemporary⟩ := hallow
      simp only [MediaCapabilities.exec, touch]
      split
      next => exact h.aside hlive hghost ⟨rfl, rfl, .inl rfl⟩ fun ho => ho.moved
      next =>
        refine h.did hlive hghost rfl (.inr hs) (fun content hc => .inl ?_)
          (fun hf => ⟨hf.publisher, hf.apart, fun _ hc => by cases hc⟩) fun ho => ho.wrote _ _
        exact (Files.remove_of_ne (hself.apart name htemporary).symm).symm.trans hc

end Exec

/-! ## Runs -/

/-- The processes keep to the rules, and what is in the public file was published. -/
theorem publication_sound (p : Publisher) :
    Invariant (publication p) (fun _ => publishWatch p) (Reports p) (fun _ _ => True)
      (Publishing p) where
  obeys w c call s' _ _ _ := program_publishes p c call
  began w c call s' _ h _ _ haccept := by
    cases call with
    | publish rounds =>
        change (if w.state.publisher.isSome then none
          else some { w.state with publisher := some c }) = some s' at haccept
        split at haccept
        next => cases haccept
        next hnone =>
          cases haccept
          refine ⟨fun content hc => (h.target content hc).cons, h.filling.began
            ⟨fun _ => rfl, fun _ hn => (by cases hn), fun _ hc => by cases hc⟩
              fun d s' _ _ hs' => ?_,
            h.observed.began ⟨fun _ hr => (by cases hr), fun _ _ hn => (by cases hn), .inl rfl,
              fun _ hn => (by cases hn), fun _ _ _ ho => by cases ho⟩
              fun d s' _ _ hs' => hs'.cons fun _ _ heq => by cases heq⟩
          -- Nobody else publishes, as nobody did before.
          have hidle : s'.publishes ≠ true := by
            intro hs
            rw [hs'.publisher hs] at hnone
            exact hnone rfl
          exact ⟨fun hs => absurd hs hidle, hs'.apart,
            fun content hc => absurd (hs'.filled content hc).1 hidle⟩
    | read maxAge =>
        cases haccept
        exact ⟨fun content hc => (h.target content hc).cons,
          h.filling.began ⟨fun hs => (by cases hs), fun _ hn => (by cases hn),
            fun _ hc => by cases hc⟩ fun d s' _ _ hs' => hs'.cons,
          h.observed.began ⟨fun _ hr => (by cases hr), fun _ _ hn => (by cases hn),
            .inr List.mem_cons_self, fun _ hn => (by cases hn), fun _ _ _ ho => by cases ho⟩
            fun d s' _ _ hs' => hs'.cons fun _ _ heq => by cases heq⟩
  did w c env e k s r s' _ h _ _ hlive hghost hallow hexec := by
    obtain ⟨rfl, rfl⟩ : r = (exec env w.state e).1 ∧ s' = (exec env w.state e).2 := by
      rw [Option.some.inj hexec]
      exact ⟨rfl, rfl⟩
    exact ⟨trivial, h.exec hlive hghost hallow⟩
  ended w c s r _ h _ _ _ :=
    ⟨fun content hc => (h.target content hc).cons,
      fun d s' hlive hghost => (h.filling d s' hlive.2 hghost).cons,
      fun d s' hghost => (h.observed d s' hghost).cons fun _ _ heq => by cases heq⟩
  crashed w proc env _ h _ := by
    refine ⟨fun content hc => (h.target content hc).cons,
      h.filling.crashed fun d s' hd _ hs' => ⟨fun hs => ?_, hs'.apart, hs'.cons.filled⟩,
      fun d s' hghost => (h.observed d s' hghost).cons fun _ _ heq => by cases heq⟩
    change w.state.publisher.filter (·.proc ≠ proc) = some d
    rw [hs'.publisher hs, Option.filter_some, if_pos (decide_eq_true hd)]

/-- What a reader makes of bytes that were published. -/
theorem read_published {p : Publisher} {log : PublishLog} {regular : Bool} {size : Nat}
    {content : List UInt8} {now maxAge : ℚ} {m : Media} (h : Published p log content)
    (hread : readMediaCapabilities p.given (.file regular size content) now maxAge = .ok m) :
    m = unavailable "gateway_unhealthy" ∨
      ∃ snapshot, Taken p log snapshot ∧ Recent snapshot.observedAt now maxAge ∧
        m = snapshot.media := by
  obtain ⟨snapshot, htaken, rfl⟩ := h
  have hreportable : Reportable snapshot.media := by
    obtain ⟨_, _, _, _, _, _, rfl⟩ := htaken
    exact reportable_snapshot _ _ _
  unfold readMediaCapabilities at hread
  dsimp only at hread
  split at hread
  next =>
    cases hread
    exact .inl rfl
  next =>
    rw [p.loads_dumps snapshot hreportable] at hread
    cases hread
    rcases acceptedSnapshot_document_cases snapshot now maxAge hreportable with
      hout | ⟨hrecent, hin⟩
    · exact .inl hout
    · exact .inr ⟨snapshot, htaken, hrecent, hin⟩

/-- Whatever crashes and fails, what the controller reports is a snapshot that the sidecar has
taken in full and that is recent by the reader's clock, or that everything is unavailable. -/
theorem reported_as_taken (p : Publisher) (st : PublishState)
    (htarget : st.files target = none) (l : List (Choice PublishEnv PublishCall)) (c : CallId)
    (m : Media)
    (hended : .ended c (.ok (.media m)) ∈ ((publication p).run (World.init st) l).log) :
    m = unavailable "not_configured" ∨ m = unavailable "gateway_unhealthy" ∨
    ∃ snapshot maxAge now, Taken p ((publication p).run (World.init st) l).log snapshot ∧
      .began c (.read maxAge) ∈ ((publication p).run (World.init st) l).log ∧
      .did c .now (.ok now) ∈ ((publication p).run (World.init st) l).log ∧
      Recent snapshot.observedAt now maxAge ∧ m = snapshot.media := by
  have hstart : Publishing p (World.init st : PublishWorld).state
      (World.init st : PublishWorld).log := by
    refine ⟨fun content hc => ?_, fun _ _ hlive => (by cases hlive), fun _ _ hghost => by
      cases hghost⟩
    rw [World.init, htarget] at hc
    cases hc
  obtain ⟨hsound, hpublishing⟩ :=
    (publication_sound p).run (Sound.init _ _ st) hstart (Machine.admits_true _ l)
  generalize (publication p).run (World.init st) l = w at hended hsound hpublishing ⊢
  obtain ⟨later, earlier, hlog⟩ := List.append_of_mem hended
  have hsuffix : .ended c (.ok (.media m)) :: earlier <:+ w.log := ⟨later, hlog.symm⟩
  obtain ⟨-, s, hghost, hreports⟩ := hsound.lawful.ended hsuffix
  have hobserved := hpublishing.observed c s ((hsound.lawful.settled hsuffix).1.trans hghost)
  obtain ⟨hs, now, opened, hnow, hopened, hread⟩ := hreports m rfl
  cases opened with
  | notFound =>
      cases hread
      exact .inl rfl
  | failed =>
      cases hread
      exact .inr (.inl rfl)
  | file regular size content =>
      rcases read_published (hobserved.opened _ _ _ hopened) hread with
        hout | ⟨snapshot, htaken, hrecent, hm⟩
      · exact .inr (.inl hout)
      · have hbegan := hobserved.maxAge.resolve_left (by simp [hs])
        exact .inr (.inr ⟨snapshot, s.maxAge, now, htaken, hbegan, hobserved.now now hnow,
          hrecent, hm⟩)

/-! ### One report -/

namespace Compact

/-- The text of a flag. -/
def flagText (b : Bool) : List Char := if b then "true".toList else "false".toList

/-- The text of a capability. -/
def capabilityText (c : Capability) : List Char :=
  "\x7b\"configured\":".toList ++ flagText c.configured ++ ",\"ready\":".toList ++
    flagText c.ready ++ ",\"reason\":\"".toList ++ c.reason.toList ++ "\",\"verified\":".toList ++
    flagText c.verified ++ "\x7d".toList

/-- The text of a number. -/
def intText : Int → List Char
  | .ofNat n => Nat.toDigits 10 n
  | .negSucc n => '-' :: Nat.toDigits 10 (n + 1)

theorem toDigits_injective {m n : Nat} (h : Nat.toDigits 10 m = Nat.toDigits 10 n) : m = n := by
  rw [← Nat.ofDigitChars_ten_toDigits (n := m), h, Nat.ofDigitChars_ten_toDigits]

theorem toDigits_ne_sign {m : Nat} {rest : List Char} : Nat.toDigits 10 m ≠ '-' :: rest := by
  intro h
  have hmem : '-' ∈ Nat.toDigits 10 m := h ▸ List.mem_cons_self
  cases Nat.isDigit_of_mem_toDigits (by decide) (by decide) hmem

theorem intText_injective : ∀ {m n : Int}, intText m = intText n → m = n
  | .ofNat _, .ofNat _, h => congrArg Int.ofNat (toDigits_injective h)
  | .ofNat _, .negSucc _, h => absurd h toDigits_ne_sign
  | .negSucc _, .ofNat _, h => absurd h.symm toDigits_ne_sign
  | .negSucc _, .negSucc _, h =>
      congrArg Int.negSucc (Nat.succ.inj (toDigits_injective (List.cons.inj h).2))

/-- The keys in order, and nothing between them. -/
def text (s : Snapshot) : List Char :=
  "\x7b\"media\":\x7b\"listen\":".toList ++ (capabilityText s.media.listen ++
    (",\"talkback\":".toList ++ (capabilityText s.media.talkback ++
      (",\"video\":".toList ++ (capabilityText s.media.video ++
        ("\x7d,\"observed_at\":".toList ++ (intText s.observedAt ++ "\x7d".toList)))))))

/-- What a capability may be that is reported. -/
def candidates : List Capability :=
  [⟨false, false, false, "not_configured"⟩, ⟨true, false, false, "gateway_unhealthy"⟩,
    ⟨true, true, false, "hardware_unverified"⟩, ⟨true, true, true, "ready"⟩,
    ⟨false, false, false, "hardware_unverified"⟩, ⟨true, false, false, "hardware_unverified"⟩]

theorem Coherent.mem {c : Capability} (h : Coherent c) : c ∈ candidates := by
  obtain ⟨configured, ready, verified, reason⟩ := c
  obtain ⟨hready, hverified, hreason⟩ := h
  dsimp only at hready hverified hreason
  subst hreason
  revert hready hverified
  revert configured ready verified
  decide

theorem Reportable.mem {m : Media} (h : Reportable m) :
    m.listen ∈ candidates ∧ m.talkback ∈ candidates ∧ m.video ∈ candidates := by
  refine ⟨Coherent.mem h.listen, ?_, Coherent.mem h.video⟩
  rw [h.talkback]
  cases m.talkback.configured <;> decide

theorem eq_of_begins : ∀ c ∈ candidates, ∀ d ∈ candidates,
    capabilityText c <+: capabilityText d → c = d := by
  decide +kernel

/-- No text of a capability is a part of that of another. -/
theorem capabilityText_append_inj {c d : Capability} {x y : List Char} (hc : c ∈ candidates)
    (hd : d ∈ candidates) (h : capabilityText c ++ x = capabilityText d ++ y) :
    c = d ∧ x = y := by
  have hcd : c = d := by
    rcases List.prefix_or_prefix_of_prefix ⟨x, h⟩ ⟨y, rfl⟩ with hpre | hpre
    · exact eq_of_begins c hc d hd hpre
    · exact (eq_of_begins d hd c hc hpre).symm
  subst hcd
  exact ⟨rfl, List.append_cancel_left h⟩

theorem text_injective {s t : Snapshot} (hs : Reportable s.media) (ht : Reportable t.media)
    (h : text s = text t) : s = t := by
  obtain ⟨hlisten, htalkback, hvideo⟩ := Reportable.mem hs
  obtain ⟨hlisten', htalkback', hvideo'⟩ := Reportable.mem ht
  obtain ⟨h₁, h⟩ := capabilityText_append_inj hlisten hlisten' (List.append_cancel_left h)
  obtain ⟨h₂, h⟩ := capabilityText_append_inj htalkback htalkback' (List.append_cancel_left h)
  obtain ⟨h₃, h⟩ := capabilityText_append_inj hvideo hvideo' (List.append_cancel_left h)
  have hn := intText_injective (List.append_cancel_right (List.append_cancel_left h))
  obtain ⟨n, video, listen, talkback⟩ := s
  obtain ⟨n', video', listen', talkback'⟩ := t
  dsimp only at h₁ h₂ h₃ hn
  rw [h₁, h₂, h₃, hn]

open Classical in
/-- A reader of what is written so. -/
noncomputable def reader : Given where
  hmacSha256 _ _ := []
  scan read :=
    if h : ∃ s : Snapshot, Reportable s.media ∧ String.ofList (text s) = read then
      .document h.choose.document
    else .malformed

theorem document_unique (s : Snapshot) : s.document.readWith uniqueObject = some s.document := rfl

theorem loads_text (s : Snapshot) (h : Reportable s.media) :
    loadBytes reader (Utf8.encode (String.ofList (text s))) = .ok s.document := by
  have hex : ∃ t : Snapshot, Reportable t.media ∧ String.ofList (text t) = String.ofList (text s) :=
    ⟨s, h, rfl⟩
  have hscan : reader.scan (String.ofList (text s)) = .document s.document := by
    have hchosen : hex.choose = s := text_injective hex.choose_spec.1 h
      (String.ofList_injective hex.choose_spec.2)
    dsimp only [reader]
    rw [dif_pos hex, hchosen]
  rw [loadBytes, Utf8.decode_encode]
  dsimp only
  rw [loads, hscan]
  dsimp only
  rw [document_unique]

/-- The operator's settings. -/
def environment (key : String) : Option String :=
  if key = "GATE_MEDIA_VIDEO_CONFIGURED" then some "true" else none

/-- The video is configured, and the gateway does not answer. -/
noncomputable def publisher : Publisher where
  given := reader
  dumps s := Utf8.encode (String.ofList (text s))
  loads_dumps := loads_text
  environment := environment

/-- The snapshot that is taken. -/
def snapshot : Snapshot := capabilitySnapshot environment unreadyGateway 100

/-- Nothing fails. -/
def env : PublishEnv where
  observedAt := 100
  now := 103

/-- The thread of the sidecar. -/
def sidecar : CallId := ⟨0, 0⟩

/-- A report of the controller. -/
def controller : CallId := ⟨1, 0⟩

/-- The sidecar publishes once, and the controller reads. -/
def once : List (Choice PublishEnv PublishCall) :=
  .begin sidecar (.publish 1) :: List.replicate 9 (.step sidecar env) ++
    .begin controller (.read 30) :: List.replicate 2 (.step controller env)

/-- No file yet. -/
def start : PublishState where
  files _ := none

/-- The text of the snapshot. -/
noncomputable def content : List UInt8 := Utf8.encode (String.ofList (text snapshot))

theorem content_length : 0 < content.length ∧ content.length ≤ maxCapabilitiesBytes := by
  rw [content, Utf8.encode_ofList]
  decide +kernel

theorem content_read :
    readMediaCapabilities reader (.file true content.length content) 103 30 =
      .ok snapshot.media := by
  have hreportable : Reportable snapshot.media := reportable_snapshot _ _ _
  have hrecent : Recent snapshot.observedAt 103 30 := by
    constructor <;> decide +kernel
  have hsize : (!true || content.length == 0 || decide (maxCapabilitiesBytes < content.length) ||
      content.length != content.length) = false := by
    obtain ⟨hpos, hle⟩ := content_length
    simp [Nat.not_lt.2 hle, Nat.pos_iff_ne_zero.1 hpos]
  have hloads : loadBytes reader content = .ok snapshot.document := by
    rw [content, loads_text snapshot hreportable]
  unfold readMediaCapabilities
  dsimp only
  rw [hsize, hloads]
  exact congrArg Except.ok (acceptedSnapshot_document hreportable hrecent)

theorem dumps_snapshot : publisher.dumps (capabilitySnapshot publisher.environment
    unreadyGateway 100) = content := by
  rw [content, snapshot, publisher]

/-- The reader has what the sidecar published before it. -/
theorem running_once (p : Publisher) (published : List UInt8)
    (hpublished : p.dumps (capabilitySnapshot p.environment unreadyGateway 100) = published) :
    ((publication p).run (World.init start) once).running controller =
      some (Prog.ofExcept ((readMediaCapabilities p.given (.file true published.length published)
        103 30).mapError .media) >>= fun m => return .media m) := by
  subst hpublished
  rfl

/-- A reader that has media in its hands returns them. -/
theorem ended_of_running {p : Publisher} {w : PublishWorld} {c : CallId}
    {read : Except MediaError Media} {m : Media} (hread : read = .ok m)
    (hrunning : w.running c =
      some (Prog.ofExcept (read.mapError .media) >>= fun m => return .media m)) :
    .ended c (.ok (.media m)) ∈ ((publication p).run w [.step c env]).log := by
  subst hread
  rw [Machine.run, Machine.run, Machine.step, hrunning]
  exact List.mem_cons_self

theorem ended_once : .ended controller (.ok (.media snapshot.media)) ∈
    ((publication publisher).run (World.init start) (once ++ [.step controller env])).log := by
  rw [Machine.run_append]
  exact ended_of_running content_read (running_once publisher content dumps_snapshot)

/-- The controller reports that the video is configured. -/
theorem reported_as_taken_once : ∃ taken maxAge now,
    Taken publisher ((publication publisher).run (World.init start)
      (once ++ [.step controller env])).log taken ∧
    .began controller (.read maxAge) ∈ ((publication publisher).run (World.init start)
      (once ++ [.step controller env])).log ∧
    .did controller .now (.ok now) ∈ ((publication publisher).run (World.init start)
      (once ++ [.step controller env])).log ∧
    Recent taken.observedAt now maxAge ∧ snapshot.media = taken.media := by
  have hconfigured : snapshot.media ≠ unavailable "not_configured" ∧
      snapshot.media ≠ unavailable "gateway_unhealthy" := by
    decide +kernel
  exact ((reported_as_taken publisher start rfl _ controller snapshot.media
    ended_once).resolve_left hconfigured.1).resolve_left hconfigured.2

end Compact

end MediaCapabilities

end GateController

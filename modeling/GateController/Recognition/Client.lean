import GateController.Data.Json
import GateController.Effects.System
import GateController.Processing.Matching

/-!
# The plate reader's client

`PlateRecognizerClient` keeps one session for the requests of all threads.  The session is
created by the first `recognise` that finds none, outside the lock, so what the lock says may
have changed when the session is there.  `abandon_in_flight` and `close` take the session away
and close it after they have left the lock.

A section under the lock is one operation, and so is everything that happens outside: creating
a session, posting with it, closing it.
-/

namespace GateController

open Data Effects

/-- A session, by the order in which they come into being. -/
abbrev Session := Nat

/-- What the service answers.  The document is there if the body is JSON, and a number in it
that is not finite is not a number here. -/
structure Response where
  statusCode : Int
  json : Option Json

/-- What the client raises. -/
inductive ClientExc : Type where
  | runtime (message : String)
  | response (message : String)
  | other (message : String)
deriving DecidableEq, Repr

/-- What the second section of `recognise` does with the session that was created. -/
inductive Settled : Type where
  | closed
  | abandoned
  | installed
  | joined (session : Session)
deriving DecidableEq, Repr

/-- The sections under the lock and what happens between them. -/
inductive ClientEff : Type where
  /-- The first section of `recognise`. -/
  | look
  /-- `_create_session`. -/
  | create
  /-- The second section of `recognise`. -/
  | settle (generation : Nat) (created : Session)
  /-- The third section of `recognise`. -/
  | check (generation : Nat)
  | post (session : Session) (path : String)
  /-- The section of `abandon_in_flight`. -/
  | detach
  /-- The section of `close`. -/
  | shut
  /-- `_close_session`. -/
  | closeSession (session : Option Session)

/-- What they answer.  The section of `close` has nothing to hand on if the client was closed
before. -/
@[reducible] def ClientEff.Ans : ClientEff → Type
  | .look => Nat × Option Session
  | .create => Session
  | .settle _ _ => Settled
  | .check _ => Unit
  | .post _ _ => Response
  | .detach => Option Session
  | .shut => Option (Option Session)
  | .closeSession _ => Unit

/-- A call of one of the three methods. -/
inductive ClientCall : Type where
  | recognise (path : String)
  | abandonInFlight
  | close

/-- What the methods return. -/
inductive ClientReturn : Type where
  | observed (observation : PlateObservation)
  | abandoned (cancelled : Bool)
  | closed

abbrev ClientProg (α : Type) := Prog ClientEff ClientEff.Ans ClientExc α

namespace PlateRecognizerClient

/-- One operation, as a program. -/
def op (e : ClientEff) : ClientProg e.Ans := Prog.perform e

/-! ## Reading a response -/

/-- The reading of the first result. -/
def observationOfResult (result : Fields) : Except ClientExc PlateObservation :=
  match Fields.get? result "plate" with
  | some (.str plate) =>
      if normalisePlate plate = "" then
        .error (.response "OCR service response has no usable plate")
      else
        match Fields.get? result "score" with
        | some (.num score) =>
            if 0 ≤ score ∧ score ≤ 1 then .ok ⟨some (normalisePlate plate), score⟩
            else .error (.response "OCR service response has invalid confidence")
        | _ => .error (.response "OCR service response has invalid confidence")
  | _ => .error (.response "OCR service response has no usable plate")

/-- What `recognise` makes of a response. -/
def observationOf (response : Response) : Except ClientExc PlateObservation :=
  if ¬ (200 ≤ response.statusCode ∧ response.statusCode < 300) then
    .error (.response ("OCR service returned HTTP " ++ toString response.statusCode))
  else
    match response.json with
    | none => .error (.response "OCR service returned invalid JSON")
    | some (.obj payload) =>
        match Fields.get? payload "results" with
        | some (.arr []) => .ok ⟨none, 0⟩
        | some (.arr (.obj result :: _)) => observationOfResult result
        | some (.arr _) => .error (.response "OCR service response has invalid result")
        | _ => .error (.response "OCR service response has invalid results")
    | some _ => .error (.response "OCR service returned a non-object payload")

/-! ## The methods -/

/-- The part of `recognise` that creates a session. -/
def obtainSession (generation : Nat) : ClientProg Session := do
  let created ← op .create
  let settled ← op (.settle generation created)
  if settled ≠ .installed then
    op (.closeSession (some created))
  match settled with
  | .closed => .raise (.runtime "OCR client is closed")
  | .abandoned => .raise (.response "OCR request was abandoned")
  | .installed => return created
  | .joined session => return session

/-- `recognise`. -/
def recognise (path : String) : ClientProg PlateObservation := do
  let (generation, session) ← op .look
  let session ←
    match session with
    | some session => pure session
    | none => obtainSession generation
  op (.check generation)
  let response ← op (.post session path)
  Prog.ofExcept (observationOf response)

/-- `abandon_in_flight`. -/
def abandonInFlight : ClientProg Bool := do
  let session ← op .detach
  op (.closeSession session)
  return false

/-- `close`. -/
def close : ClientProg Unit := do
  match ← op .shut with
  | none => return ()
  | some session => op (.closeSession session)

/-- The program of a call. -/
def program : ClientCall → ClientProg ClientReturn
  | .recognise path => recognise path >>= fun observation => return .observed observation
  | .abandonInFlight => abandonInFlight >>= fun cancelled => return .abandoned cancelled
  | .close => close >>= fun _ => return .closed

end PlateRecognizerClient

/-- The client, with the number of sessions that have come into being and those that
`_close_session` was called with. -/
structure PlateRecognizerClient where
  session : Option Session
  sessionGeneration : Nat := 0
  closed : Bool := false
  made : Nat
  disposed : List Session := []

/-- What the outside decides: whether a session can be created, and how a request ends. -/
structure ClientEnv where
  importable : Bool := true
  answer : Except ClientExc Response := .error (.other "no answer")

namespace PlateRecognizerClient

/-- The constructor, with or without a session of the caller. -/
def init (supplied : Bool) : PlateRecognizerClient :=
  if supplied then { session := some 0, made := 1 } else { session := none, made := 0 }

/-- One operation. -/
def exec (env : ClientEnv) (s : PlateRecognizerClient) :
    (e : ClientEff) → Except ClientExc e.Ans × PlateRecognizerClient
  | .look =>
      if s.closed then (.error (.runtime "OCR client is closed"), s)
      else (.ok (s.sessionGeneration, s.session), s)
  | .create =>
      if env.importable then (.ok s.made, { s with made := s.made + 1 })
      else (.error (.runtime "requests is required for the default OCR client"), s)
  | .settle generation created =>
      if s.closed then (.ok .closed, s)
      else if generation ≠ s.sessionGeneration then (.ok .abandoned, s)
      else
        match s.session with
        | none => (.ok .installed, { s with session := some created })
        | some session => (.ok (.joined session), s)
  | .check generation =>
      if s.closed then (.error (.runtime "OCR client is closed"), s)
      else if generation ≠ s.sessionGeneration then
        (.error (.response "OCR request was abandoned"), s)
      else (.ok (), s)
  | .post _ _ => (env.answer, s)
  | .detach =>
      (.ok s.session, { s with session := none, sessionGeneration := s.sessionGeneration + 1 })
  | .shut =>
      if s.closed then (.ok none, s)
      else (.ok (some s.session),
        { s with session := none, sessionGeneration := s.sessionGeneration + 1, closed := true })
  | .closeSession session => (.ok (), { s with disposed := session.toList ++ s.disposed })

/-- Any number of threads over one client. -/
def machine : Machine ClientEff ClientEff.Ans ClientExc ClientEnv PlateRecognizerClient ClientCall
    ClientReturn where
  program _ call := program call
  accept _ _ s := some s
  exec _ e env s := some (exec env s e)
  crash _ _ s := s

end PlateRecognizerClient

abbrev ClientEvent := Event ClientEff ClientEff.Ans ClientExc ClientCall ClientReturn

abbrev ClientWorld :=
  World ClientEff ClientEff.Ans ClientExc PlateRecognizerClient ClientCall ClientReturn

end GateController

import GateController.Data.IsoTime
import GateController.Data.Json

/-!
# Data classes

The frozen data classes that the parts of the controller pass around, and the
exceptions that they raise at each other.

An exception keeps its class as far as some handler tells classes apart.
`other` stands for every exception raised outside this code that the handlers
only see as an `Exception`: a storage fault, a GPIO failure, a clock that cannot
be read.  `baseException` is what `except Exception` lets through, such as
`SystemExit`.
-/

namespace GateController

open Data

/-- What a call may raise. -/
inductive Exc where
  | valueError (message : String)
  | typeError (message : String)
  | keyError (key : String)
  | runtimeError (message : String)
  | overflowError (message : String)
  | integrityError
  | other
  | baseException
deriving DecidableEq

/-- Whether `except Exception` catches it. -/
def Exc.isException : Exc → Bool
  | .baseException => false
  | _ => true

/-- One row of the audit log, as the callers describe it. -/
structure GateEvent where
  source : String
  reason : String
  opened : Bool
  idempotencyKey : Option String
  receivedAt : DateTime
  decisionAt : Option DateTime := none
  relayActivatedAt : Option DateTime := none
  authorisedPlate : Option String := none
  observedPlate : Option String := none
  ocrConfidence : ℚ := 0

/-- What `RelayController.trigger` returns. -/
structure RelayResult where
  activated : Bool
  reason : String
  idempotencyKey : Option String := none
  activatedAt : Option DateTime := none
  latched : Bool := false

/-- How an attempt to claim a key came out. -/
inductive ClaimStatus where
  | claimed
  | cooldown
  | indeterminateClaim
  | duplicateEvent
deriving DecidableEq

/-- The status as the source spells it. -/
def ClaimStatus.text : ClaimStatus → String
  | .claimed => "claimed"
  | .cooldown => "cooldown"
  | .indeterminateClaim => "indeterminate_claim"
  | .duplicateEvent => "duplicate_event"

/-- What `LocalStore.claim_actuation` returns. -/
structure ActuationClaim where
  idempotencyKey : String
  status : ClaimStatus
  claimedAt : Option DateTime := none
  claimId : Option Nat := none
deriving DecidableEq

/-- The outcome stored for a key. -/
structure TerminalOutcome where
  status : String
  detail : Option String
  eventId : Option Nat := none
deriving DecidableEq

/-- What `ActuationCoordinator.actuate` returns. -/
structure ActuationExecution where
  opened : Bool
  reason : String
  eventId : Option Nat := none
  terminalStatus : String := "failed"
  terminalDetail : Option String := none
deriving DecidableEq

/-- Why an activation is refused: a terminal status and its detail. -/
structure Inhibition where
  status : String
  detail : String
deriving DecidableEq

/-- A command id with the time the command was created. -/
abbrev CommandAck := String × DateTime

/-! ## Times as the store keeps them -/

/-- `_timestamp`: the text of a datetime in UTC. -/
def timestamp (value : DateTime) : String := value.utc.isoformat

/-- `_optional_timestamp`. -/
def optionalTimestamp (value : Option DateTime) : Option String := value.map timestamp

/-- `datetime.min` in UTC. -/
def datetimeMin : DateTime := ⟨0, some 0⟩

/-- `value.replace("Z", "+00:00")`. -/
def replaceZ (text : String) : String :=
  String.ofList (text.toList.flatMap fun c =>
    if c = 'Z' then ['+', '0', '0', ':', '0', '0'] else [c])

/-- `_parse_timestamp` of a text: the datetime in UTC, or the earliest one if the
text cannot be read. -/
def parseTimestamp (text : String) : DateTime :=
  match fromisoformat (replaceZ text) with
  | some value => ⟨value.utc, some 0⟩
  | none => datetimeMin

/-- A datetime less a duration in microseconds.  It may fall before the year 1. -/
def DateTime.minus (value : DateTime) (delta : Int) : Except Exc DateTime :=
  match instantOf? (value.utc.val - delta) with
  | some utc => .ok ⟨utc, value.offset⟩
  | none => .error (.overflowError "date value out of range")

theorem digitChar_ne_Z : ∀ n < 10, digitChar n ≠ 'Z' := by decide

theorem padded_ne_Z (k n : Nat) : ∀ c ∈ padded k n, c ≠ 'Z' := by
  induction k generalizing n with
  | zero => simp [padded]
  | succ k ih =>
      intro c hc
      rw [padded, List.mem_append, List.mem_singleton] at hc
      rcases hc with hc | rfl
      · exact ih _ c hc
      · exact digitChar_ne_Z _ (by omega)

theorem chars_ne_Z (t : Instant) : ∀ c ∈ t.chars, c ≠ 'Z' := by
  intro c hc
  simp only [Instant.chars, fractionText, List.mem_append, List.mem_cons, List.not_mem_nil,
    or_false] at hc
  have hfrac : ∀ us : Nat, c ∈ (if us = 0 then [] else '.' :: padded 6 us) → c ≠ 'Z' := by
    intro us h
    split at h
    · simp at h
    · rcases List.mem_cons.1 h with rfl | h
      · decide
      · exact padded_ne_Z _ _ c h
  rintro rfl
  rcases hc with ((((((h | h | h) | h | h) | h | h) | h | h) | h | h) | h) | h
  all_goals first
    | exact padded_ne_Z _ _ _ h rfl
    | exact hfrac _ h rfl
    | revert h; decide

theorem replaceZ_of_forall {l : List Char} (h : ∀ c ∈ l, c ≠ 'Z') :
    replaceZ (String.ofList l) = String.ofList l := by
  have hmap : ∀ l : List Char, (∀ c ∈ l, c ≠ 'Z') →
      (l.flatMap fun c => if c = 'Z' then ['+', '0', '0', ':', '0', '0'] else [c]) = l := by
    intro l
    induction l with
    | nil => simp
    | cons c cs ih =>
        intro hcs
        rw [List.flatMap_cons, if_neg (hcs c (by simp)), ih fun d hd => hcs d (by simp [hd])]
        rfl
  rw [replaceZ, String.toList_ofList, hmap l h]

/-- What the store has written, it reads back as the same instant. -/
@[simp] theorem parseTimestamp_timestamp (value : DateTime) :
    parseTimestamp (timestamp value) = ⟨value.utc, some 0⟩ := by
  have h : replaceZ value.utc.isoformat = value.utc.isoformat :=
    replaceZ_of_forall (chars_ne_Z value.utc)
  rw [parseTimestamp, timestamp, h, parse_format]

end GateController

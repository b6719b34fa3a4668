import GateController.Models
import Mathlib.Algebra.Order.Ring.Rat
import Mathlib.Data.List.Dedup

/-!
# Matching plates

`decide_access`: an exact match first, else one known OCR confusion seen in two
frames.
-/

namespace GateController

/-- One OCR reading. -/
structure PlateObservation where
  plate : Option String
  confidence : ℚ

/-- What the readings decide. -/
structure MatchDecision where
  allowed : Bool
  reason : String
  authorisedPlate : Option String := none
  observedPlate : Option String := none
  confidence : ℚ := 0

/-- The ASCII letters and digits in the upper case of a character.  Most
characters outside ASCII have none; the others are listed. -/
def upperAlnum (c : Char) : List Char :=
  if c.isAlphanum then [c.toUpper]
  else match c.toNat with
    | 0xDF => ['S', 'S']
    | 0x131 => ['I']
    | 0x149 => ['N']
    | 0x17F => ['S']
    | 0x1F0 => ['J']
    | 0x1E96 => ['H']
    | 0x1E97 => ['T']
    | 0x1E98 => ['W']
    | 0x1E99 => ['Y']
    | 0x1E9A => ['A']
    | 0xFB00 => ['F', 'F']
    | 0xFB01 => ['F', 'I']
    | 0xFB02 => ['F', 'L']
    | 0xFB03 => ['F', 'F', 'I']
    | 0xFB04 => ['F', 'F', 'L']
    | 0xFB05 => ['S', 'T']
    | 0xFB06 => ['S', 'T']
    | _ => []

/-- `normalise_plate`. -/
def normalisePlate (value : String) : String := String.ofList (value.toList.flatMap upperAlnum)

/-- `MIN_EXACT_CONFIDENCE`. -/
def minExactConfidence : ℚ := 9 / 10

/-- `MIN_FUZZY_CONFIDENCE`. -/
def minFuzzyConfidence : ℚ := 9 / 10

/-- `_CONFUSION_GROUPS`. -/
def confusionGroups : List (List Char) :=
  [['0', 'O'], ['1', 'I', 'L'], ['2', 'Z'], ['5', 'S'], ['8', 'B']]

/-- `_is_one_known_confusion`. -/
def isOneKnownConfusion (observed authorised : String) : Bool :=
  observed.length == authorised.length &&
    match (observed.toList.zip authorised.toList).filter fun p => p.1 != p.2 with
    | [p] => confusionGroups.any fun group => group.contains p.1 && group.contains p.2
    | _ => false

/-- The readings that have a plate, with its normal form. -/
def normalisedObservations (observations : List PlateObservation) :
    List (String × PlateObservation) :=
  observations.filterMap fun o =>
    match o.plate with
    | some plate => if plate = "" then none else some (normalisePlate plate, o)
    | none => none

/-- The distinct plates that count for a fuzzy match, in the order of their first
reading. -/
def candidatePlates (readings : List (String × PlateObservation)) : List String :=
  ((readings.filter fun r => r.1 != "" && decide (minFuzzyConfidence ≤ r.2.confidence)).map
    Prod.fst).foldl (fun seen plate => if plate ∈ seen then seen else seen ++ [plate]) []

/-- The readings of one plate that count for a fuzzy match. -/
def readingsOf (readings : List (String × PlateObservation)) (plate : String) :
    List (String × PlateObservation) :=
  readings.filter fun r => r.1 == plate && decide (minFuzzyConfidence ≤ r.2.confidence)

/-- The decision for one candidate, if it decides. -/
def decideCandidate (readings : List (String × PlateObservation)) (authorised : List String)
    (plate : String) : Option MatchDecision :=
  let frames := readingsOf readings plate
  if frames.length < 2 then none
  else
    let confidence := frames.foldl (fun best r => max best r.2.confidence) 0
    match (authorised.filter (isOneKnownConfusion plate)).dedup with
    | [] => none
    | [matched] => some ⟨true, "two_frame_ocr_confusion", some matched, some plate, confidence⟩
    | _ => some ⟨false, "ambiguous_fuzzy_match", none, some plate, confidence⟩

/-- `decide_access`. -/
def decideAccess (observations : List PlateObservation) (authorised : List String) :
    MatchDecision :=
  let authorised := (authorised.map normalisePlate).filter (· != "")
  let readings := normalisedObservations observations
  match readings.find? fun r => r.1 != "" && decide (r.1 ∈ authorised)
      && decide (minExactConfidence ≤ r.2.confidence) with
  | some r => ⟨true, "exact_match", some r.1, some r.1, r.2.confidence⟩
  | none =>
      ((candidatePlates readings).findSome? (decideCandidate readings authorised)).getD
        { allowed := false, reason := "no_match" }

end GateController

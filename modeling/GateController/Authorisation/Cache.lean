import GateController.Data.Utf8
import GateController.Effects.Fallible
import GateController.Models
import GateController.Processing.Matching
import Mathlib.Data.List.Sort

/-!
# The cache of authorised plates

`AuthorisedPlateCache.replace` writes a new file, renames it over the old one, and only
then takes the plates into memory.  `AuthorisationRefreshWorker.run_once` swallows every
exception.  The calls of the operating system are the named calls of `Effects.Fallible`.
-/

namespace GateController

open Data Effects

namespace AuthorisedPlateCache

/-- The calls of the operating system in `replace`, in their order.  The `i`-th write takes
a part of the text. -/
inductive Call where
  | mkdir
  | mkstemp
  | write (i : Nat)
  | fsync
  | close
  | replace
  | openDirectory
  | fsyncDirectory
  | closeDirectory
  | unlink
  | stat
deriving DecidableEq

/-- What `_file_version` returns. -/
structure FileVersion where
  ino : Nat
  size : Nat
  mtimeNs : Nat
deriving DecidableEq

/-- The cache and its file, with the temporary file that `mkstemp` has made. -/
structure State where
  csv : Option (List UInt8)
  temporary : Option (List UInt8) := none
  plates : Option (List String)
  version : Option FileVersion
  refreshedAt : Option DateTime
  lastError : Option String

/-- What the surroundings answer. -/
structure Surroundings where
  /-- The text of the exception that a failing call raises. -/
  message : Call → String
  /-- How much one write takes. -/
  chunk : Nat → Nat
  /-- The new file as `stat` describes it. -/
  stat : FileVersion
  /-- The clock. -/
  now : DateTime

/-! ## The file -/

/-- A field as `csv.writer` writes it. -/
def csvField (text : String) : List Char :=
  if text.toList.any fun c => c == ',' || c == '"' || c == '\r' || c == '\n' then
    '"' :: text.toList.flatMap (fun c => if c = '"' then ['"', '"'] else [c]) ++ ['"']
  else text.toList

/-- The text of the file, a row for the heading and one for each plate. -/
def csvText (plates : List String) : String :=
  String.ofList (("plate" :: plates).flatMap fun field => csvField field ++ ['\r', '\n'])

/-- `tuple(sorted(filter(None, (normalise_plate(value) for value in plates))))`. -/
def normalized (plates : List String) : List String :=
  ((plates.map normalisePlate).filter (· != "")).insertionSort (· ≤ ·)

/-- The bytes of the file. -/
def csvBytes (plates : List String) : List UInt8 := Utf8.encode (csvText (normalized plates))

/-! ## Reading -/

/-- `_snapshot_is_stale`, of two times in UTC. -/
def snapshotIsStale (now refreshedAt : DateTime) (maxStaleness : Int) : Bool :=
  if now.offset.isNone != refreshedAt.offset.isNone then true
  else
    let age : Int := now.utc.val - refreshedAt.utc.val
    age < 0 || age > maxStaleness

/-- `get`. -/
def getPlates (maxStaleness : Option Int) (now : DateTime) (s : State) :
    Except String (List String) :=
  match s.plates with
  | none => .error "no valid authorised-plates snapshot"
  | some plates =>
      match maxStaleness, s.refreshedAt with
      | some maxStaleness, some refreshedAt =>
          if snapshotIsStale now refreshedAt maxStaleness then
            .error "authorised-plates snapshot is stale"
          else .ok plates
      | _, _ => .ok plates

/-! ## Replacing -/

variable (env : Surroundings)

/-- One call of the operating system. -/
def os (l : Call) (f : State → State) : Fallible Call State String Unit :=
  .call l (env.message l) f

/-- Write the text, flush it and sync it. -/
def writeText (bytes : List UInt8) : Fallible Call State String Unit := do
  Fallible.writeAll Call.write (env.message (.write 0)) env.chunk
    (fun part s => { s with temporary := s.temporary.map (· ++ part) }) 0 bytes
  os env .fsync id

/-- The `with` block, which closes the file in the end. -/
def writeFile (bytes : List UInt8) : Fallible Call State String Unit :=
  (writeText env bytes).finally_ (os env .close id)

/-- `_fsync_directory`. -/
def fsyncDirectory : Fallible Call State String Unit := do
  os env .openDirectory id
  (os env .fsyncDirectory id).finally_ (os env .closeDirectory id)

/-- The `try` of `replace`: write the file and rename it. -/
def install (bytes : List UInt8) : Fallible Call State String Unit := do
  writeFile env bytes
  os env .replace fun s => { s with csv := s.temporary, temporary := none }
  fsyncDirectory env

/-- The plates are taken into memory. -/
def take (plates : List String) : Fallible Call State String Unit := do
  .modify fun s => { s with plates := some (normalized plates) }
  os env .stat fun s => { s with version := some env.stat }
  .modify fun s => { s with refreshedAt := some env.now, lastError := none }

/-- `replace`. -/
def replace (plates : List String) : Fallible Call State String Unit := do
  os env .mkdir id
  os env .mkstemp fun s => { s with temporary := some [] }
  (install env (csvBytes plates)).finally_ (os env .unlink fun s => { s with temporary := none })
  take env plates

/-- `mark_refresh_error`. -/
def markRefreshError (message : String) : Fallible Call State String Unit :=
  .modify fun s => { s with lastError := some message }

/-- The plates of a row that was fetched. -/
def rowPlate : Json → Option String
  | .obj fields =>
      match Fields.get? fields "plate" with
      | some (.str plate) => some plate
      | _ => none
  | _ => none

/-- The plates that were fetched, if every row is as it should be. -/
def fetchedPlates : Json → Option (List String)
  | .arr rows => rows.mapM rowPlate
  | _ => none

/-- `run_once`, with what the fetch returned or raised. -/
def runOnce (fetched : Except String Json) : Fallible Call State String Bool := do
  let refresh : Fallible Call State String Unit :=
    match fetched with
    | .error message => .raise message
    | .ok rows =>
        match fetchedPlates rows with
        | none => .raise "authorised plate refresh was malformed"
        | some plates => replace env plates
  match ← refresh.attempt with
  | .ok () => return true
  | .error message => do
      markRefreshError message
      return false

end AuthorisedPlateCache

end GateController

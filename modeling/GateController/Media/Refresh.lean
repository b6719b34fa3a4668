import GateController.Data.Json
import GateController.Effects.Fallible
import GateController.Media.Environment
import GateController.Models

/-!
# Rotating the TURN credentials

`refresh_turn_credentials`: check what is there, fetch and select new values, validate
them in a staged file, write them, restart the gateway, and write the old ones back if it
does not come up.  The three writes are made by one function, whose calls have the names
of their phase.
-/

namespace GateController

open Data Effects MediaConfig

namespace TurnRefresh

/-- What is raised. -/
inductive RefreshError where
  | turnRefresh (message : String)
  | os
  | other (x : Exc)
deriving DecidableEq

/-! ## Selecting -/

/-- `_valid_credential_value`. -/
def validCredentialValue (value : String) : Bool :=
  decide (1 ≤ byteLength value ∧ byteLength value ≤ 256) && !value.toList.any Text.isSpace

/-- `_parse_turn_url`. -/
def parseTurnUrl (lib : Library) (url : String) :
    Except RefreshError (Option (String × Int × String)) :=
  match matchTurnUrl lib.isDecimal url.toList with
  | none => .ok none
  | some (scheme, _, portText, rest) =>
      if rest ≠ "?transport=udp".toList ∧ rest ≠ "?transport=tcp".toList then .ok none
      else
        let transport := String.ofList (rest.drop "?transport=".length)
        match lib.int (String.ofList portText) with
        | none => .error (.other (.valueError "invalid literal for int()"))
        | some port =>
            if port < 1 ∨ port > 65535 ∨ port = 53 ∨
                scheme = "turns".toList ∧ transport ≠ "tcp" then .ok none
            else .ok (some (String.ofList scheme, port, transport))

/-- The number of `_turn_preference`. -/
def turnPreference (scheme : String) (port : Int) (transport : String) : Nat :=
  if scheme = "turns" ∧ port = 5349 ∧ transport = "tcp" then 0
  else if scheme = "turn" ∧ port = 3478 ∧ transport = "udp" then 1
  else if scheme = "turn" ∧ port = 3478 ∧ transport = "tcp" then 2
  else 3

/-- An authenticated relay. -/
structure Candidate where
  preference : Nat
  url : String
  username : String
  credential : String
deriving DecidableEq

/-- Candidates are compared as tuples. -/
def Candidate.lt (a b : Candidate) : Bool :=
  a.preference < b.preference || a.preference == b.preference &&
    (decide (a.url < b.url) || a.url == b.url &&
      (decide (a.username < b.username) || a.username == b.username &&
        decide (a.credential < b.credential)))

/-- `min(candidates)`. -/
def best : List Candidate → Option Candidate
  | [] => none
  | c :: rest => some (rest.foldl (fun found d => if d.lt found then d else found) c)

/-- A text of a JSON list. -/
def asText : Json → Option String
  | .str text => some text
  | _ => none

/-- A field that is missing or `null`. -/
def isNone : Option Json → Bool
  | none | some .null => true
  | _ => false

/-- The relays among the URLs of a server. -/
def urlCandidates (lib : Library) (username credential : String) :
    List String → Except RefreshError (List Candidate)
  | [] => .ok []
  | url :: rest => do
      let parsed ← parseTurnUrl lib url
      let more ← urlCandidates lib username credential rest
      return match parsed with
        | none => more
        | some (scheme, port, transport) =>
            ⟨turnPreference scheme port transport, url, username, credential⟩ :: more

/-- The relays of a server. -/
def serverCandidates (lib : Library) (server : Json) : Except RefreshError (List Candidate) :=
  match server with
  | .obj fields =>
      match Fields.get? fields "urls" with
      | some (.arr (item :: items)) =>
          match (item :: items).mapM asText with
          | none => .error (.turnRefresh "TURN credential response has invalid ICE URLs")
          | some urls =>
              let username := Fields.get? fields "username"
              let credential := Fields.get? fields "credential"
              if isNone username && isNone credential then .ok []
              else
                match username, credential with
                | some (.str username), some (.str credential) =>
                    if !validCredentialValue username || !validCredentialValue credential then
                      .error (.turnRefresh
                        "TURN credential response has invalid authentication")
                    else urlCandidates lib username credential urls
                | _, _ =>
                    .error (.turnRefresh "TURN credential response has invalid authentication")
      | _ => .error (.turnRefresh "TURN credential response has invalid ICE URLs")
  | _ => .error (.turnRefresh "TURN credential response has an invalid ICE server")

/-- The relays of all servers. -/
def allCandidates (lib : Library) : List Json → Except RefreshError (List Candidate)
  | [] => .ok []
  | server :: rest => do
      let found ← serverCandidates lib server
      let more ← allCandidates lib rest
      return found ++ more

/-- `select_turn_credentials`. -/
def selectTurnCredentials (lib : Library) (payload : Json) : Except RefreshError Candidate :=
  match payload with
  | .obj fields =>
      if !decide (fields.map Prod.fst ⊆ ["iceServers"] ∧ ["iceServers"] ⊆ fields.map Prod.fst) then
        .error (.turnRefresh "TURN credential response has an invalid top-level shape")
      else
        match Fields.get? fields "iceServers" with
        | some (.arr (server :: servers)) => do
            let candidates ← allCandidates lib (server :: servers)
            match best candidates with
            | none =>
                throw (.turnRefresh
                  "TURN credential response has no usable authenticated relay")
            | some c => return c
        | _ => .error (.turnRefresh "TURN credential response has no ICE servers")
  | _ => .error (.turnRefresh "TURN credential response has an invalid top-level shape")

/-! ## The new file -/

/-- The three values of a relay. -/
def turnValue (c : Candidate) (key : String) : String :=
  if key = "MTX_WEBRTCICESERVERS2_0_URL" then c.url
  else if key = "MTX_WEBRTCICESERVERS2_0_USERNAME" then c.username
  else c.credential

/-- The line of an assignment. -/
def assignment (key value : String) : List Char := key.toList ++ '=' :: (value.toList ++ ['\n'])

/-- `_initial_turn_values`. -/
def initialTurnValues (c : Candidate) : List UInt8 :=
  Utf8.encode (String.ofList (runtimeTurnKeyOrder.flatMap fun key =>
    assignment key (turnValue c key)))

/-- A line of the old file, and the key that is replaced on it. -/
def replaceLine (c : Candidate) (line : List Char × List Char) : List Char × Option String :=
  match Lines.partition '=' line.1 with
  | (key, some _) =>
      let key := String.ofList key
      if key ∈ runtimeTurnKeyOrder then (assignment key (turnValue c key), some key)
      else (line.1 ++ line.2, none)
  | (_, none) => (line.1 ++ line.2, none)

/-- `_replace_turn_values`. -/
def replaceTurnValues (previous : List UInt8) (c : Candidate) :
    Except RefreshError (List UInt8) :=
  match Utf8.decode previous with
  | none => .error (.turnRefresh "runtime TURN environment is not UTF-8")
  | some text =>
      let output := (Lines.splitLines text.toList).map (replaceLine c)
      let replaced := output.filterMap Prod.snd
      if replaced ⊆ runtimeTurnKeyOrder ∧ runtimeTurnKeyOrder ⊆ replaced then
        .ok (Utf8.encode (String.ofList (output.flatMap Prod.fst)))
      else .error (.turnRefresh "runtime TURN environment has incomplete values")

/-! ## Writing a file -/

/-- The calls of `_atomic_write_environment`, in their order. -/
inductive WriteCall where
  | openDirectory
  | create
  | fchmod
  | write (i : Nat)
  | fsync
  | close
  | replace
  | fsyncDirectory
  | closeDirectory
deriving DecidableEq

/-- The directory as far as a write is concerned, and what the write has open.  The
descriptor is `none` where the variable is `None`, and says otherwise whether it can
still be closed. -/
structure Scratch where
  target : Option File
  temporary : Option File
  directory : Bool := false
  descriptor : Option Bool := none

/-- The surroundings of a refresh.  The calls of the service are answered one by one. -/
structure Surroundings where
  /-- How much one write takes. -/
  chunk : Nat → Nat
  /-- Whether a close that fails gives the descriptor up. -/
  closeReleases : Bool
  /-- Whether the directory is controlled by its owner. -/
  ownerControlled : Bool
  /-- `is_active`, which raises where there is no value. -/
  isActive : Nat → Option Bool
  restart : Nat → Bool

variable (env : Surroundings)

/-- One call of the operating system. -/
def os (l : WriteCall) (f : Scratch → Scratch) : Fallible WriteCall Scratch RefreshError Unit :=
  .call l .os f

/-- Put more bytes into the temporary file. -/
def appendTemporary (part : List UInt8) (s : Scratch) : Scratch :=
  { s with temporary := s.temporary.map fun file => { file with body := file.body ++ part } }

/-- `_write_all`. -/
def writeAll (body : List UInt8) : Fallible WriteCall Scratch RefreshError Unit :=
  .writeAll WriteCall.write .os env.chunk appendTemporary 0 body

/-- The `try` of `_atomic_write_environment`. -/
def writeTemporary (body : List UInt8) : Fallible WriteCall Scratch RefreshError Unit := do
  os .openDirectory fun s => { s with directory := true }
  os .create fun s =>
    { s with temporary := some ⟨[], true, env.ownerControlled⟩, descriptor := some true }
  os .fchmod id
  writeAll env body
  os .fsync id
  .callOr .close .os (fun s => { s with descriptor := some (!env.closeReleases) })
    fun s => { s with descriptor := none }
  os .replace fun s => { s with target := s.temporary, temporary := none }
  os .fsyncDirectory id

/-- Close the descriptor if it was not.  One that was given up cannot be closed. -/
def closeDescriptor : Fallible WriteCall Scratch RefreshError Unit := do
  match (← .get).descriptor with
  | none => return ()
  | some true => .modify fun s => { s with descriptor := none }
  | some false => .raise .os

/-- The `finally` of `_atomic_write_environment`. -/
def cleanUp : Fallible WriteCall Scratch RefreshError Unit := do
  closeDescriptor
  if (← .get).directory then
    .modify fun s => { s with temporary := none }
    os .closeDirectory id
  else return ()

/-- `_atomic_write_environment`. -/
def atomicWriteEnvironment (body : List UInt8) :
    Fallible WriteCall Scratch RefreshError Unit :=
  ((writeTemporary env body).mapError fun _ =>
    .turnRefresh "runtime TURN environment could not be atomically updated").finally_ cleanUp

/-! ## Refreshing -/

/-- Which of the three writes. -/
inductive Phase where
  | staged
  | installed
  | restored
deriving DecidableEq

/-- The steps that may fail. -/
inductive Call where
  | loadTurn
  | lstat
  | openEmpty
  | validateCurrent
  | readCurrent
  | write (phase : Phase) (l : WriteCall)
  | validateStaged
deriving DecidableEq

/-- The directory of the runtime file, and how often the service was called.  The names of
the staged and of the temporary files are random, and nobody else has them. -/
structure State where
  runtime : Option File
  staged : Option File := none
  temporary : Option File := none
  asked : Nat := 0
  restarted : Nat := 0

/-- The other files, and what is fetched. -/
structure Inputs where
  turn : Option File
  auth : Option File
  gateway : Option File
  fetchIceServers : String → String → Except RefreshError Json

/-- A computation of the refresh. -/
abbrev Refresh := Fallible Call State RefreshError

/-- Write the runtime file. -/
def writeRuntime (phase : Phase) (body : List UInt8) : Refresh Unit :=
  ((atomicWriteEnvironment env body).zoom (fun s => ⟨s.runtime, s.temporary, false, none⟩)
    fun w s => { s with runtime := w.target, temporary := w.temporary }).named (Call.write phase)

/-- Write the staged file. -/
def writeStaged (body : List UInt8) : Refresh Unit :=
  ((atomicWriteEnvironment env body).zoom (fun s => ⟨s.staged, s.temporary, false, none⟩)
    fun w s => { s with staged := w.target, temporary := w.temporary }).named (Call.write .staged)

/-- A step that checks something, and raises a `TurnRefreshError` if it fails in any way. -/
def checked {α : Type} (l : Call) (message : String) (r : Except String α) : Refresh α := do
  .call l (.turnRefresh message) id
  .ofExcept (r.mapError fun _ => .turnRefresh message)

variable (lib : Library) (inputs : Inputs)

/-- The values of the TURN service's file. -/
def turnValues : Except String Values :=
  parseTrustedEnvironment inputs.turn >>= validateTurnEnvironment

/-- `_load_turn_environment`. -/
def loadTurnEnvironment : Refresh Values :=
  checked .loadTurn "TURN secret environment is invalid" (turnValues inputs)

/-- The checks of `_validate_complete_media_environment`. -/
def completeEnvironment (runtime : Option File) : Except String Values := do
  let auth ← parseTrustedEnvironment inputs.auth
  let _ ← validateAuthEnvironment auth
  let gateway ← parseTrustedEnvironment inputs.gateway
  let runtime ← parseTrustedEnvironment runtime
  validateSplitGatewayEnvironment lib gateway runtime

/-- The checks of `_validate_bootstrap_media_environment`. -/
def bootstrapEnvironment : Except String Values := do
  let auth ← parseTrustedEnvironment inputs.auth
  let _ ← validateAuthEnvironment auth
  let gateway ← parseTrustedEnvironment inputs.gateway
  validateGatewayStaticEnvironment lib gateway

/-- `_empty_runtime_environment_is_trusted`. -/
def emptyRuntimeEnvironmentIsTrusted : Refresh Bool := do
  match ← (Fallible.call Call.lstat RefreshError.os id).attempt with
  | .error _ => return false
  | .ok () =>
      match (← .get).runtime with
      | none => return false
      | some file =>
          if !file.regular || !file.body.isEmpty then return false
          else do
            .call .openEmpty (.turnRefresh "empty runtime TURN environment is not trusted") id
            if file.trusted then return true
            else .raise (.turnRefresh "empty runtime TURN environment is not trusted")

/-- The text of the file, if it is UTF-8. -/
def environmentBytes (file : Option File) : Except String (List UInt8) :=
  match file with
  | none => .error "no such file"
  | some file =>
      match Utf8.decode file.body with
      | none => .error "not UTF-8"
      | some _ => .ok file.body

/-- The old bytes, after the checks on what is there. -/
def previousRuntimeTurn (bootstrap : Bool) : Refresh (List UInt8) := do
  if bootstrap then do
    let _ ← checked .validateCurrent "current media environments are invalid"
      (bootstrapEnvironment lib inputs)
    return []
  else do
    let _ ← checked .validateCurrent "current media environments are invalid"
      (completeEnvironment lib inputs (← .get).runtime)
    checked .readCurrent "runtime TURN environment cannot be read"
      (environmentBytes (← .get).runtime)

/-- The new bytes. -/
def stagedRuntimeTurn (bootstrap : Bool) (previous : List UInt8) (c : Candidate) :
    Except RefreshError (List UInt8) :=
  if bootstrap then .ok (initialTurnValues c) else replaceTurnValues previous c

/-- The `try` of `_validate_staged_media_environment`. -/
def checkStaged (staged : List UInt8) : Refresh Unit := do
  writeStaged env staged
  let _ ← checked .validateStaged "current media environments are invalid"
    (completeEnvironment lib inputs (← .get).staged)
  return ()

/-- `_validate_staged_media_environment`. -/
def validateStagedMediaEnvironment (staged : List UInt8) : Refresh Unit :=
  ((checkStaged env lib inputs staged).mapError fun x =>
    match x with
    | .other y => .other y
    | _ => .turnRefresh "staged media environments are invalid").finally_
    (.modify fun s => { s with staged := none })

/-- `service.is_active()`. -/
def isActive : Refresh Bool := do
  let s ← .get
  .modify fun s => { s with asked := s.asked + 1 }
  match env.isActive s.asked with
  | none => .raise (.turnRefresh "gateway service state could not be determined")
  | some active => return active

/-- `service.restart()`. -/
def restart : Refresh Bool := do
  let s ← .get
  .modify fun s => { s with restarted := s.restarted + 1 }
  return env.restart s.restarted

/-- `_gateway_is_healthy`, with the attempts that are left. -/
def gatewayIsHealthy : Nat → Refresh Bool
  | 0 => return true
  | attempts + 1 => do
      match ← (isActive env).attempt with
      | .error (.turnRefresh _) => return false
      | .error x => .raise x
      | .ok active => if active then gatewayIsHealthy attempts else return false

/-- `service.restart() and _gateway_is_healthy(service, sleep)`. -/
def comesUp : Refresh Bool := do
  if ← restart env then gatewayIsHealthy env 3 else return false

/-- What `refresh_turn_credentials` does before it asks for the service: the old and the
new bytes. -/
def prepare : Refresh (List UInt8 × List UInt8) := do
  let values ← loadTurnEnvironment inputs
  let bootstrap ← emptyRuntimeEnvironmentIsTrusted
  let previous ← previousRuntimeTurn lib inputs bootstrap
  let payload ← .ofExcept
    (inputs.fetchIceServers (get values "TURN_KEY_ID") (get values "TURN_KEY_API_TOKEN"))
  let selected ← .ofExcept (selectTurnCredentials lib payload)
  let staged ← .ofExcept (stagedRuntimeTurn bootstrap previous selected)
  return (previous, staged)

/-- `refresh_turn_credentials`. -/
def refreshTurnCredentials : Refresh Unit := do
  let (previous, staged) ← prepare lib inputs
  validateStagedMediaEnvironment env lib inputs staged
  let wasActive ← isActive env
  writeRuntime env .installed staged
  if !wasActive then return ()
  else if ← comesUp env then return ()
  else do
    writeRuntime env .restored previous
    if ← comesUp env then
      .raise (.turnRefresh "new TURN configuration failed; previous configuration was restored")
    else
      .raise (.turnRefresh
        "new TURN configuration failed and gateway rollback did not restart")

end TurnRefresh

end GateController

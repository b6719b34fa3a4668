import GateController.Actuation.Coordinator

/-!
# Direct commands

`DirectCommandExecutor`: parse a command, then open the gate through the
coordinator or play a prompt under a claim of its own.
-/

namespace GateController

open Data Effects Proc LocalStore ActuationCoordinator

namespace DirectCommandExecutor

/-- What a command asks for. -/
inductive Kind where
  | openGate
  | playPrompt
deriving DecidableEq

/-- A command that was parsed. -/
structure Command where
  controllerId : String
  kind : Kind
  idempotencyKey : String
  expiresAt : DateTime
  promptKey : Option String

/-- The answer to a command. -/
structure Response where
  status : String
  detail : Option String := none
deriving DecidableEq

/-! ## Parsing -/

/-- `_parse_timestamp` of the command server: a text with a time zone.  A time that is
outside the calendar in UTC overflows. -/
def parseExpiry (cfg : Config) : Option Json → Except Exc (Option DateTime)
  | some (.str text) =>
      match cfg.fromisoformat (replaceZ text) with
      | none => .ok none
      | some value =>
          if value.offset.isNone then .ok none
          else
            match value.instant with
            | some utc => .ok (some ⟨utc, some 0⟩)
            | none => .error (.overflowError "date value out of range")
  | _ => .ok none

/-- `command not in {"open_gate", "play_prompt"}`.  A list or an object cannot be
looked up in a set. -/
def parseKind : Option Json → Except Exc (Option Kind)
  | some (.str "open_gate") => .ok (some .openGate)
  | some (.str "play_prompt") => .ok (some .playPrompt)
  | some (.arr _) => .error (.typeError "unhashable type: 'list'")
  | some (.obj _) => .error (.typeError "unhashable type: 'dict'")
  | _ => .ok none

/-- A text that is there and not empty. -/
def requiredText : Option Json → Option String
  | some (.str text) => if text = "" then none else some text
  | _ => none

/-- A text that may be missing or `null`. -/
def optionalText : Option Json → Option (Option String)
  | none => some none
  | some .null => some none
  | some (.str text) => some (some text)
  | some _ => none

/-- `_parse`. -/
def parse (cfg : Config) (payload : Json) : Except Exc (Option Command) :=
  match payload with
  | .obj fields =>
      match requiredText (Fields.get? fields "controller_id") with
      | none => .ok none
      | some controllerId => do
          match ← parseKind (Fields.get? fields "command") with
          | none => return none
          | some kind =>
              match requiredText (Fields.get? fields "idempotency_key"),
                optionalText (Fields.get? fields "prompt_key") with
              | some idempotencyKey, some promptKey => do
                  let expiresAt ← parseExpiry cfg (Fields.get? fields "expires_at")
                  return expiresAt.map fun expiresAt =>
                    { controllerId, kind, idempotencyKey, expiresAt, promptKey }
              | _, _ => return none
  | _ => .ok none

/-! ## Executing -/

/-- The key under which a command is claimed. -/
def claimKey (idempotencyKey : String) : String := "command:" ++ idempotencyKey

/-- The decision of `_expiry_inhibition` at a given time. -/
def expiryAt (cfg : Config) (expiresAt now : DateTime) : Option Inhibition :=
  if now.offset.isNone then some ⟨"expired", "invalid_expiry_window"⟩
  else
    let remaining : Int := expiresAt.utc.val - now.utc.val
    if remaining ≤ 0 then some ⟨"expired", "expired_before_activation"⟩
    else if remaining > cfg.maxCommandLifetime then some ⟨"expired", "invalid_expiry_window"⟩
    else none

/-- `_expiry_inhibition`. -/
def expiryInhibition (cfg : Config) (expiresAt : DateTime) (now : Option DateTime) :
    Asking (Option Inhibition) :=
  match now with
  | some now => return expiryAt cfg expiresAt now
  | none => do
      match ← (Prog.perform EnvOp.clock).attempt with
      | .ok now => return expiryAt cfg expiresAt now
      | .error (.typeError _) => return some ⟨"expired", "invalid_expiry_window"⟩
      | .error (.valueError _) => return some ⟨"expired", "invalid_expiry_window"⟩
      | .error x => .raise x

/-- The event that `execute` hands to the coordinator. -/
def openEvent (command : Command) (receivedAt : DateTime) : GateEvent where
  source := "remote_command"
  reason := "remote_command"
  opened := false
  idempotencyKey := some (claimKey command.idempotencyKey)
  receivedAt := receivedAt
  decisionAt := some receivedAt

/-- The answer that an execution is reported as. -/
def responseOf (execution : ActuationExecution) : Response :=
  ⟨execution.terminalStatus, execution.terminalDetail⟩

/-- `execute` of a command to open the gate. -/
def openGate (owner : CallId) (cfg : Config) (command : Command) (now : Option DateTime) :
    Proc Response := do
  let receivedAt ←
    (match now with
      | some now => pure now
      | none => env .clock : Proc DateTime)
  let execution ← actuate owner cfg {
    event := openEvent command receivedAt
    preActivationInhibit := some (expiryInhibition cfg command.expiresAt now) }
  return responseOf execution

/-- What a prompt comes to: a status and a detail. -/
def promptOutcome (cfg : Config) (command : Command) : Proc Response := do
  match ← asking (expiryInhibition cfg command.expiresAt none) with
  | some inhibition => return ⟨inhibition.status, some inhibition.detail⟩
  | none =>
      if !cfg.promptPlayer then return ⟨"failed", some "invalid_prompt"⟩
      else if ← device (.play command.promptKey) then return ⟨"completed", none⟩
      else return ⟨"failed", some "invalid_prompt"⟩

/-- The event of a prompt. -/
def promptEvent (key : String) (outcome : Response) (receivedAt decisionAt : DateTime) :
    GateEvent where
  source := "remote_command"
  reason := if outcome.status = "completed" then "remote_command" else outcome.detail.getD ""
  opened := false
  idempotencyKey := some key
  receivedAt := receivedAt
  decisionAt := some decisionAt

/-- A prompt that holds the claim of its key. -/
def playClaimed (cfg : Config) (command : Command) (claim : ActuationClaim) : Proc Response := do
  let outcome ← promptOutcome cfg command
  let receivedAt ← env .clock
  let decisionAt ← env .clock
  exceptException (do
    let _ ← store (.finalizeActuation {
      claim
      event := promptEvent (claimKey command.idempotencyKey) outcome receivedAt decisionAt
      terminalStatus := some outcome.status
      terminalDetail := outcome.detail
      retainActivationAttempt := false })
    return outcome)
    (return ⟨"failed", some "indeterminate_claim"⟩)

/-- `_play_prompt`. -/
def playPrompt (cfg : Config) (command : Command) : Proc Response :=
  let key := claimKey command.idempotencyKey
  withLock .prompt do
    match ← store (.terminalOutcome key) with
    | some terminal => return ⟨terminal.status, terminal.detail⟩
    | none =>
        let claimed ← (do
          let claimedAt ← env .clock
          store (.claimActuation { idempotencyKey := key, claimedAt }) : Proc ActuationClaim).attempt
        match claimed with
        | .error x =>
            if x.isException then return ⟨"failed", some "actuation_inhibit_error"⟩ else .raise x
        | .ok claim =>
            if claim.status ≠ .claimed then return ⟨"failed", some claim.status.text⟩
            else playClaimed cfg command claim

/-- `execute`. -/
def execute (owner : CallId) (cfg : Config) (payload : Json) (now : Option DateTime) :
    Proc Response := do
  match ← Prog.ofExcept (parse cfg payload) with
  | none => return ⟨"failed", some "invalid_command"⟩
  | some command =>
      if command.controllerId ≠ cfg.controllerId then
        return ⟨"failed", some "wrong_controller"⟩
      else
        match command.kind with
        | .playPrompt => playPrompt cfg command
        | .openGate => openGate owner cfg command now

end DirectCommandExecutor

end GateController

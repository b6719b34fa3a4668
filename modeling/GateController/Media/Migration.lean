import GateController.Data.Files
import GateController.Effects.System
import GateController.Media.Splitting

/-!
# Migrating the gateway's environment

`migrate_gateway_environments` runs when the controller is installed or updated.  It reads two
files and may replace both, the file of the relay first.  Each replacement goes through a
temporary file that is renamed.  A run may fail at any call, or be cut short between any two,
and another may begin before it is over.

The two files are always at one of three stages: as they were, with the relay's file replaced,
and with both replaced.  A run that comes to its end leaves the last stage, whatever runs came
before it and however they ended.
-/

namespace GateController

open Data Effects

namespace MediaConfig

open TurnRefresh (require_ok keys_of_hasKeys)

/-! ## Programs -/

/-- The two files. -/
inductive Target where
  | gateway
  | runtimeTurn
deriving DecidableEq

/-- What a migration does. -/
inductive MigrateEff where
  /-- Open and read a file, `_open_trusted_file` and `_read_regular_file`. -/
  | read (target : Target)
  | stat (target : Target)
  /-- The name of a temporary file, from `os.getpid` and `secrets.token_hex`. -/
  | token
  | openDirectory (target : Target)
  | create (name : String)
  | fchmod (name : String)
  | write (name : String) (body : List UInt8)
  | fsync (name : String)
  | close (name : String)
  | replace (name : String) (target : Target)
  | fsyncDirectory (target : Target)
  | unlink (name : String)
  | closeDirectory (target : Target)

/-- What an operation answers. -/
@[reducible] def MigrateEff.Ans : MigrateEff → Type
  | .read _ => Option File
  | .stat _ => Option File
  | .token => String
  | .openDirectory _ => Unit
  | .create _ => Unit
  | .fchmod _ => Unit
  | .write _ _ => Nat
  | .fsync _ => Unit
  | .close _ => Unit
  | .replace _ _ => Unit
  | .fsyncDirectory _ => Unit
  | .unlink _ => Unit
  | .closeDirectory _ => Unit

/-- A program of the migration. -/
abbrev MigrateProg (α : Type) := Prog MigrateEff MigrateEff.Ans MigrateError α

/-- One operation. -/
def migrateOp (e : MigrateEff) : MigrateProg e.Ans := Prog.perform e

/-- `except OSError`. -/
def updateError : MigrateError → MigrateError
  | .os => .config "environment could not be atomically updated"
  | x => x

/-- The loop over `os.write`, for a number of rounds at most. -/
def writeAll (name : String) : Nat → List UInt8 → MigrateProg Unit
  | 0, _ => return ()
  | rounds + 1, body =>
      if body.isEmpty then return ()
      else do
        let written ← migrateOp (.write name body)
        if written = 0 then .raise .os else writeAll name rounds (body.drop written)

/-- Fill the temporary file.  Each round writes a byte at least. -/
def fillTemporary (name : String) (body : List UInt8) : MigrateProg Unit := do
  migrateOp (.fchmod name)
  writeAll name body.length body
  migrateOp (.fsync name)
  migrateOp (.close name)

/-- Put the temporary file in the place of the other. -/
def installTemporary (target : Target) (name : String) : MigrateProg Unit := do
  migrateOp (.replace name target)
  migrateOp (.fsyncDirectory target)

/-- The `try` of `_atomic_write_environment`, and whether it leaves the descriptor open. -/
def writeTemporary (target : Target) (name : String) (body : List UInt8) :
    MigrateProg (Except MigrateError Unit × Bool) := do
  match ← (migrateOp (.create name)).attempt with
  | .error x => return (.error x, false)
  | .ok () =>
      match ← (fillTemporary name body).attempt with
      | .error x => return (.error x, true)
      | .ok () => do
          let r ← (installTemporary target name).attempt
          return (r, false)

/-- `os.close` in `finally`. -/
def closeLeft (name : String) : Bool → MigrateProg Unit
  | true => migrateOp (.close name)
  | false => return ()

/-- `_atomic_write_environment`. -/
def atomicWriteEnvironment (target : Target) (body : List UInt8) : MigrateProg Unit :=
  if body.isEmpty || decide (maxConfigBytes < body.length) then
    .raise (.config "environment update is invalid")
  else do
    let name ← migrateOp .token
    match ← (migrateOp (.openDirectory target)).attempt with
    | .error x => .raise (updateError x)
    | .ok () => do
        let (r, left) ← writeTemporary target name body
        closeLeft name left
        migrateOp (.unlink name)
        migrateOp (.closeDirectory target)
        Prog.ofExcept (r.mapError updateError)

/-- The values of the relay, of a gateway's file that still has them. -/
def splitRuntime (p : Splitter) (values : Values) : MigrateProg Values := do
  let found ← migrateOp (.stat .runtimeTurn)
  if ← Prog.ofExcept (checked (trustedFileHasContent found)) then
    let file ← migrateOp (.read .runtimeTurn)
    let turn ← Prog.ofExcept (checked (parseTrustedEnvironment file))
    Prog.ofExcept (checked (validateRuntimeTurnEnvironment p.lib turn))
  else
    let turn := select values runtimeTurnKeyOrder
    let body ← Prog.ofExcept (serialized turn runtimeTurnKeyOrder)
    atomicWriteEnvironment .runtimeTurn body
    return turn

/-- The branch for a gateway's file that still has the values of the relay. -/
def splitCombined (p : Splitter) (values : Values) : MigrateProg Unit := do
  let _ ← Prog.ofExcept (checked (validateGatewayEnvironment p.lib values))
  let static := select values gatewayStaticKeyOrder
  let turn ← splitRuntime p values
  let _ ← Prog.ofExcept (checked (validateSplitGatewayEnvironment p.lib static turn))
  let body ← Prog.ofExcept (serialized static gatewayStaticKeyOrder)
  atomicWriteEnvironment .gateway body

/-- The check of the two files together. -/
def checkRuntime (p : Splitter) (static : Values) : MigrateProg Unit := do
  let found ← migrateOp (.stat .runtimeTurn)
  if ← Prog.ofExcept (checked (trustedFileHasContent found)) then
    let file ← migrateOp (.read .runtimeTurn)
    let turn ← Prog.ofExcept (checked (parseTrustedEnvironment file))
    let _ ← Prog.ofExcept (checked (validateSplitGatewayEnvironment p.lib static turn))
    return ()
  else return ()

/-- The branch for a gateway's file without the values of the relay. -/
def keepStatic (p : Splitter) (values : Values) (changed : Bool) : MigrateProg Unit := do
  let _ ← Prog.ofExcept (checked (require (hasKeys values gatewayStaticKeyOrder)
    "gateway environment has missing or forbidden keys"))
  let static ← Prog.ofExcept (checked (validateGatewayStaticEnvironment p.lib values))
  checkRuntime p static
  if changed then
    let body ← Prog.ofExcept (serialized static gatewayStaticKeyOrder)
    atomicWriteEnvironment .gateway body
  else return ()

/-- `migrate_gateway_environments`. -/
def migrateGatewayEnvironments (p : Splitter) : MigrateProg Unit := do
  let file ← migrateOp (.read .gateway)
  let (values, changed) ← Prog.ofExcept (migratedValues p file)
  if hasKeys values gatewayKeys then splitCombined p values
  else keepStatic p values changed

/-! ## The machine -/

/-- What the runs share. -/
structure MigrateState where
  gateway : Option File
  runtime : Option File
  /-- The temporary files, and those that were left behind. -/
  temporaries : Files (List UInt8)
  /-- Who has named a temporary file. -/
  owner : String → Option CallId

/-- What the outside decides at a step. -/
structure MigrateEnv where
  /-- The call fails. -/
  fault : Bool := false
  /-- The name of a temporary file. -/
  name : String := ""
  /-- How many bytes a write takes. -/
  count : Nat := 0

def MigrateState.file (s : MigrateState) : Target → Option File
  | .gateway => s.gateway
  | .runtimeTurn => s.runtime

def MigrateState.setFile (s : MigrateState) (file : File) : Target → MigrateState
  | .gateway => { s with gateway := some file }
  | .runtimeTurn => { s with runtime := some file }

/-- A file as it is read.  For the gateway's file, the directory is part of the file's trust. -/
def Splitter.opened (p : Splitter) (s : MigrateState) : Target → Option File
  | .gateway => s.gateway
  | .runtimeTurn => p.seen s.runtime

/-- A call that fails, or does nothing that is seen. -/
def unseen (env : MigrateEnv) (s : MigrateState) : Except MigrateError Unit × MigrateState :=
  if env.fault then (.error .os, s) else (.ok (), s)

/-- What an operation does.  A name that somebody has is not drawn again. -/
def migrateExec (p : Splitter) (c : CallId) (env : MigrateEnv) (s : MigrateState) :
    (e : MigrateEff) → Option (Except MigrateError e.Ans × MigrateState)
  | .read target => some (if env.fault then .error .os else .ok (p.opened s target), s)
  | .stat target => some (if env.fault then .error .os else .ok (s.file target), s)
  | .token =>
      if (s.owner env.name).isSome then none
      else some (.ok env.name, { s with owner := Function.update s.owner env.name (some c) })
  | .openDirectory target =>
      if env.fault then some (.error .os, s)
      else
        match target with
        | .gateway => some (.ok (), s)
        | .runtimeTurn =>
            some (if p.ownerControlled then .ok ()
              else .error (.config "trusted file directory is not owner-controlled"), s)
  | .create name =>
      if env.fault then some (.error .os, s)
      else some (.ok (), { s with temporaries := s.temporaries.put name [] })
  | .fchmod _ => some (unseen env s)
  | .write name body =>
      if env.fault then some (.error .os, s)
      else some (.ok (min env.count body.length), { s with
        temporaries := s.temporaries.modify name (· ++ body.take (min env.count body.length)) })
  | .fsync _ => some (unseen env s)
  | .close _ => some (unseen env s)
  | .replace name target =>
      if env.fault then some (.error .os, s)
      else
        match s.temporaries name with
        | none => some (.error .os, s)
        | some body => some (.ok (), { s.setFile (writtenFile body) target with
            temporaries := s.temporaries.remove name })
  | .fsyncDirectory _ => some (unseen env s)
  | .unlink name =>
      if env.fault then some (.error .os, s)
      else some (.ok (), { s with temporaries := s.temporaries.remove name })
  | .closeDirectory _ => some (unseen env s)

/-- Any number of migrations, one after the other or at once. -/
def migrations (p : Splitter) :
    Machine MigrateEff MigrateEff.Ans MigrateError MigrateEnv MigrateState Unit Unit where
  program _ _ := migrateGatewayEnvironments p
  accept _ _ s := some s
  exec c e env s := migrateExec p c env s e
  crash _ _ s := s

/-- The log of a run. -/
abbrev MigrateLog := List (Event MigrateEff MigrateEff.Ans MigrateError Unit Unit)

/-- The state of a run. -/
abbrev MigrateWorld := World MigrateEff MigrateEff.Ans MigrateError MigrateState Unit Unit

/-! ## What a run has to do in order -/

/-- What is watched of a run. -/
structure MigrateWatch where
  gateway : Option (Option File) := none
  /-- What was found of the relay's file, after the gateway's file was read. -/
  runtime : Option (Option File) := none
  temporary : Option String := none
  /-- What is in the temporary file. -/
  filled : Option (List UInt8) := none
  /-- The run has replaced the file of the relay. -/
  replaced : Bool := false
  /-- The run has replaced the file of the gateway. -/
  installed : Bool := false

namespace MigrateWatch

def next (s : MigrateWatch) : (e : MigrateEff) → Except MigrateError e.Ans → MigrateWatch
  | .read .gateway, .ok file => { s with gateway := some file, runtime := none }
  | .stat .runtimeTurn, .ok file => { s with runtime := some file }
  | .token, .ok name => { s with temporary := some name, filled := none }
  | .create _, .ok () => { s with filled := some [] }
  | .write _ body, .ok written => { s with filled := s.filled.map (· ++ body.take written) }
  | .replace _ .runtimeTurn, .ok () => { s with filled := none, replaced := true }
  | .replace _ .gateway, .ok () => { s with filled := none, installed := true }
  | .unlink _, .ok () => { s with filled := none }
  | _, _ => s

/-- From what it has found, the run is to write these bytes to the file.  The gateway's file
comes after the relay's. -/
def Writes (p : Splitter) (s : MigrateWatch) (target : Target) (body : List UInt8) : Prop :=
  ∃ gateway runtime t, s.gateway = some gateway ∧ s.runtime = some runtime ∧
    plan p gateway runtime = .ok t ∧
    match target with
    | .runtimeTurn => t.runtime = some body
    | .gateway => t.gateway = some body ∧ (t.runtime = none ∨ s.replaced = true)

/-- A run uses the temporary file that it has named, and puts it in the place of another only if
all of what is to be written is in it. -/
def allow (p : Splitter) (s : MigrateWatch) : MigrateEff → Prop
  | .create name => s.temporary = some name
  | .write name _ => s.temporary = some name
  | .replace name target => s.temporary = some name ∧ ∃ body, s.filled = some body ∧
      s.Writes p target body ∧ body.length ≤ maxConfigBytes
  | .unlink name => s.temporary = some name
  | _ => True

/-- A file with content that was found is the one that is read, and only a directory that is
owner-controlled is written to. -/
def expect (p : Splitter) (s : MigrateWatch) : (e : MigrateEff) → Except MigrateError e.Ans → Prop
  | .read .runtimeTurn, .ok file => ∀ found, s.runtime = some found →
      trustedFileHasContent found = .ok true → file = p.seen found
  | .openDirectory .runtimeTurn, .ok () => p.ownerControlled = true
  | _, _ => True

end MigrateWatch

/-- The rules of a migration. -/
def migrateWatch (p : Splitter) :
    Protocol MigrateEff MigrateEff.Ans MigrateError Unit MigrateWatch where
  start _ := {}
  next s := s.next
  allow s := s.allow p
  expect s := s.expect p

/-- A run that ends without an exception has done all that it was to do. -/
def Completes (p : Splitter) (_ : CallId) (s : MigrateWatch) (r : Except MigrateError Unit) :
    Prop :=
  r = .ok () → ∃ gateway runtime t, s.gateway = some gateway ∧ s.runtime = some runtime ∧
    plan p gateway runtime = .ok t ∧ (t.runtime = none ∨ s.replaced = true) ∧
    (t.gateway = none ∨ s.installed = true)

/-- What does not change while a temporary file is made. -/
structure SameFound (s s' : MigrateWatch) : Prop where
  gateway : s'.gateway = s.gateway
  runtime : s'.runtime = s.runtime
  replaced : s'.replaced = s.replaced
  installed : s'.installed = s.installed

section Obeys

variable {p : Splitter} {s s' : MigrateWatch} {α β : Type} {name : String} {target : Target}
  {body : List UInt8}

theorem SameFound.refl (s : MigrateWatch) : SameFound s s := ⟨rfl, rfl, rfl, rfl⟩

theorem SameFound.trans {s'' : MigrateWatch} (h : SameFound s s') (h' : SameFound s' s'') :
    SameFound s s'' :=
  ⟨h'.gateway.trans h.gateway, h'.runtime.trans h.runtime, h'.replaced.trans h.replaced,
    h'.installed.trans h.installed⟩

theorem SameFound.writes (h : SameFound s s') (hwrites : s.Writes p target body) :
    s'.Writes p target body := by
  obtain ⟨gateway, runtime, t, hgateway, hruntime, hplan, hbody⟩ := hwrites
  refine ⟨gateway, runtime, t, h.gateway.trans hgateway, h.runtime.trans hruntime, hplan, ?_⟩
  cases target with
  | runtimeTurn => exact hbody
  | gateway => exact ⟨hbody.1, hbody.2.imp_right h.replaced.trans⟩

/-- A check in the middle of a program. -/
theorem ofExcept_bind {r : Except MigrateError α} {f : α → MigrateProg β}
    {Q : MigrateWatch → Except MigrateError β → Prop}
    (ok : ∀ a, r = .ok a → Obeys (migrateWatch p) Q s (f a)) (error : ∀ x, Q s (.error x)) :
    Obeys (migrateWatch p) Q s (Prog.ofExcept r >>= f) := by
  cases r with
  | error x => exact error x
  | ok a => exact ok a rfl

/-- An operation that is not watched. -/
theorem unwatched {e : MigrateEff} (hallow : s.allow p e) (hnext : ∀ r, s.next e r = s) :
    Obeys (migrateWatch p) (fun s' _ => s' = s) s (migrateOp e) :=
  Obeys.perform hallow fun r _ => hnext r

/-- A round that writes a byte leaves less to be written. -/
theorem length_drop_le {written rounds : Nat} (hsome : written ≠ 0)
    (hrounds : body.length ≤ rounds + 1) : (body.drop written).length ≤ rounds := by
  rw [List.length_drop]
  omega

/-- The temporary file takes all of the bytes in the end. -/
theorem writeAll_fills (hname : s.temporary = some name) (rounds : Nat) (prior : List UInt8)
    (hprior : s.filled = some prior) (hrounds : body.length ≤ rounds) :
    Obeys (migrateWatch p) (fun s' r => SameFound s s' ∧ s'.temporary = some name ∧
      (r = .ok () → s'.filled = some (prior ++ body))) s (writeAll name rounds body) := by
  induction rounds generalizing s prior body with
  | zero =>
      rw [List.length_eq_zero_iff.1 (Nat.le_zero.1 hrounds), List.append_nil]
      exact ⟨.refl s, hname, fun _ => hprior⟩
  | succ rounds ih =>
      rw [writeAll]
      split
      next hempty =>
        rw [List.isEmpty_iff.1 hempty, List.append_nil]
        exact ⟨.refl s, hname, fun _ => hprior⟩
      next =>
        refine Obeys.bind (R := fun s' r => SameFound s s' ∧ s'.temporary = some name ∧
          ∀ written, r = .ok written → s'.filled = some (prior ++ body.take written))
          (Obeys.perform hname ?_) ?_ fun _ _ h => ⟨h.1, h.2.1, fun h => by cases h⟩
        · rintro (x | written) -
          · exact ⟨.refl s, hname, fun _ h => by cases h⟩
          · refine ⟨⟨rfl, rfl, rfl, rfl⟩, hname, ?_⟩
            rintro _ ⟨⟩
            change s.filled.map (· ++ body.take written) = _
            rw [hprior]
            rfl
        · rintro s₁ written ⟨hsame, hname₁, hfilled⟩
          have hfilled := hfilled written rfl
          split
          next => exact ⟨hsame, hname₁, fun h => by cases h⟩
          next hsome =>
            refine (ih hname₁ _ hfilled (length_drop_le hsome hrounds)).mono fun s₂ r h => ⟨hsame.trans h.1, h.2.1, ?_⟩
            intro hr
            rw [h.2.2 hr, List.append_assoc, List.take_append_drop]

/-- A temporary file that is made without an exception has all of the bytes. -/
theorem fillTemporary_fills (hname : s.temporary = some name) (hfilled : s.filled = some []) :
    Obeys (migrateWatch p) (fun s' r => SameFound s s' ∧ s'.temporary = some name ∧
      (r = .ok () → s'.filled = some body)) s (fillTemporary name body) := by
  refine Obeys.bind (unwatched trivial fun _ => rfl) ?_ ?_
  · rintro _ ⟨⟩ rfl
    refine Obeys.bind (writeAll_fills hname _ [] hfilled (Nat.le_refl _)) ?_
      fun _ _ h => ⟨h.1, h.2.1, fun h => by cases h⟩
    rintro s₁ ⟨⟩ ⟨hsame, hname₁, hfilled₁⟩
    refine Obeys.bind (unwatched trivial fun _ => rfl) ?_ ?_
    · rintro _ ⟨⟩ rfl
      refine (unwatched (p := p) (e := .close name) trivial fun _ => rfl).mono ?_
      rintro _ _ rfl
      exact ⟨hsame, hname₁, fun _ => hfilled₁ rfl⟩
    · rintro _ _ rfl
      exact ⟨hsame, hname₁, fun h => by cases h⟩
  · rintro _ _ rfl
    exact ⟨.refl _, hname, fun h => by cases h⟩

/-- The file has been replaced, and nothing else has changed of what was found. -/
structure Replaces (target : Target) (s s' : MigrateWatch) : Prop where
  gateway : s'.gateway = s.gateway
  runtime : s'.runtime = s.runtime
  replaced : s'.replaced = (s.replaced || target == .runtimeTurn)
  installed : s'.installed = (s.installed || target == .gateway)

theorem Replaces.of_same {s'' : MigrateWatch} (h : SameFound s s') (h' : Replaces target s' s'') :
    Replaces target s s'' :=
  ⟨h'.gateway.trans h.gateway, h'.runtime.trans h.runtime, by rw [h'.replaced, h.replaced],
    by rw [h'.installed, h.installed]⟩

theorem Replaces.same {s'' : MigrateWatch} (h : Replaces target s s') (h' : SameFound s' s'') :
    Replaces target s s'' :=
  ⟨h'.gateway.trans h.gateway, h'.runtime.trans h.runtime, h'.replaced.trans h.replaced,
    h'.installed.trans h.installed⟩

theorem installTemporary_replaces (hname : s.temporary = some name)
    (hfilled : s.filled = some body) (hwrites : s.Writes p target body)
    (hfits : body.length ≤ maxConfigBytes) :
    Obeys (migrateWatch p) (fun s' r => s'.temporary = some name ∧
      (r = .ok () → Replaces target s s')) s (installTemporary target name) := by
  refine Obeys.bind (R := fun s' r => s'.temporary = some name ∧
    (r = .ok () → Replaces target s s'))
    (Obeys.perform ⟨hname, body, hfilled, hwrites, hfits⟩ ?_) ?_ fun _ _ h => ⟨h.1, fun h => by
      cases h⟩
  · rintro (x | ⟨⟩) -
    · cases target <;> exact ⟨hname, fun h => by cases h⟩
    · cases target with
      | gateway => exact ⟨hname, fun _ => ⟨rfl, rfl, (Bool.or_false _).symm,
          (Bool.or_true _).symm⟩⟩
      | runtimeTurn => exact ⟨hname, fun _ => ⟨rfl, rfl, (Bool.or_true _).symm,
          (Bool.or_false _).symm⟩⟩
  · rintro s₁ ⟨⟩ ⟨hname₁, hreplaces⟩
    refine (unwatched (p := p) (e := .fsyncDirectory target) trivial fun _ => rfl).mono ?_
    rintro _ _ rfl
    exact ⟨hname₁, fun _ => hreplaces rfl⟩

theorem writeTemporary_replaces (hname : s.temporary = some name)
    (hwrites : s.Writes p target body) (hfits : body.length ≤ maxConfigBytes) :
    Obeys (migrateWatch p) (fun s' out => s'.temporary = some name ∧
      ∀ left, out = .ok (.ok (), left) → Replaces target s s') s
      (writeTemporary target name body) := by
  refine Obeys.bind (R := fun s' r => s'.temporary = some name ∧ SameFound s s' ∧
    (r = .ok (.ok ()) → s'.filled = some []))
    (Obeys.attempt_iff.2 (Obeys.perform hname ?_)) ?_ fun _ _ h => ⟨h.1, fun _ h => by cases h⟩
  · rintro (x | ⟨⟩) -
    · exact ⟨hname, .refl s, fun h => by cases h⟩
    · exact ⟨hname, ⟨rfl, rfl, rfl, rfl⟩, fun _ => rfl⟩
  · rintro s₁ r ⟨hname₁, hsame₁, hcreated⟩
    cases r with
    | error x => exact ⟨hname₁, fun _ h => by cases h⟩
    | ok u =>
        cases u
        have hfills : Obeys (migrateWatch p) (fun s' r => SameFound s₁ s' ∧
            s'.temporary = some name ∧ (r = .ok () → s'.filled = some body)) s₁
            (fillTemporary name body) := fillTemporary_fills hname₁ (hcreated rfl)
        refine Obeys.bind (Obeys.attempt_iff.2 (hfills.mono fun s' r h => ?_)) ?_ ?_
          (R := fun s' r => SameFound s s' ∧ s'.temporary = some name ∧
            (r = .ok (.ok ()) → s'.filled = some body))
        · exact ⟨hsame₁.trans h.1, h.2.1, fun hr => h.2.2 (Except.ok.inj hr)⟩
        · rintro s₂ r ⟨hsame₂, hname₂, hfilled₂⟩
          cases r with
          | error x => exact ⟨hname₂, fun _ h => by cases h⟩
          | ok u =>
              cases u
              refine Obeys.bind (R := fun s' r => s'.temporary = some name ∧
                (r = .ok (.ok ()) → Replaces target s s')) (Obeys.attempt_iff.2
                ((installTemporary_replaces hname₂ (hfilled₂ rfl) (hsame₂.writes hwrites)
                  hfits).mono fun s' r h => ⟨h.1, fun hr => .of_same hsame₂
                    (h.2 (Except.ok.inj hr))⟩)) ?_ fun _ _ h => ⟨h.1, fun _ h => by cases h⟩
              rintro s₃ r ⟨hname₃, hreplaces⟩
              refine ⟨hname₃, fun left hleft => hreplaces ?_⟩
              cases hleft
              rfl
        · exact fun _ _ h => ⟨h.2.1, fun _ h => by cases h⟩

theorem closeLeft_same (left : Bool) :
    Obeys (migrateWatch p) (fun s' _ => s' = s) s (closeLeft name left) := by
  cases left with
  | true => exact unwatched trivial fun _ => rfl
  | false => rfl

/-- The directory of the file may be written to. -/
def MayWrite (p : Splitter) (target : Target) : Prop :=
  target = .runtimeTurn → p.ownerControlled = true

/-- A write that ends without an exception has replaced the file. -/
theorem atomicWriteEnvironment_replaces
    (hwrites : MayWrite p target → s.Writes p target body) :
    Obeys (migrateWatch p) (fun s' r => r = .ok () → Replaces target s s' ∧ MayWrite p target) s
      (atomicWriteEnvironment target body) := by
  unfold atomicWriteEnvironment
  split
  next => exact fun h => by cases h
  next hsize =>
    have hfits : body.length ≤ maxConfigBytes := by
      rw [Bool.or_eq_true, not_or, decide_eq_true_eq, Nat.not_lt] at hsize
      exact hsize.2
    refine Obeys.bind (R := fun s' r => SameFound s s' ∧
      ∀ name, r = .ok name → s'.temporary = some name) (Obeys.perform trivial ?_) ?_
      fun _ _ _ h => by cases h
    · rintro (x | name) -
      · exact ⟨.refl s, fun _ h => by cases h⟩
      · refine ⟨⟨rfl, rfl, rfl, rfl⟩, ?_⟩
        rintro _ ⟨⟩
        rfl
    · rintro s₁ name ⟨hsame₁, hname₁⟩
      refine Obeys.bind (R := fun s' r => s' = s₁ ∧ (r = .ok (.ok ()) → MayWrite p target))
        (Obeys.attempt_iff.2 (Obeys.perform trivial ?_)) ?_ ?_
      · rintro r hr
        refine ⟨rfl, fun hok htarget => ?_⟩
        subst htarget
        cases Except.ok.inj hok
        exact hr
      · rintro _ r ⟨rfl, hmay⟩
        cases r with
        | error x => exact fun h => by cases h
        | ok u =>
            cases u
            have hmay := hmay rfl
            refine Obeys.bind (writeTemporary_replaces (hname₁ name rfl)
              (hsame₁.writes (hwrites hmay)) hfits) ?_ fun _ _ _ h => by cases h
            rintro s₂ ⟨r, left⟩ ⟨hname₂, hreplaces⟩
            refine Obeys.bind (closeLeft_same left) ?_ fun _ _ _ h => by cases h
            rintro s₂ ⟨⟩ rfl
            refine Obeys.bind (R := fun s' _ => SameFound s₂ s') (Obeys.perform hname₂ ?_) ?_
              fun _ _ _ h => by cases h
            · rintro (x | ⟨⟩) -
              · exact .refl _
              · exact ⟨rfl, rfl, rfl, rfl⟩
            · rintro s₃ ⟨⟩ hsame₃
              refine Obeys.bind (unwatched trivial fun _ => rfl) ?_ fun _ _ _ h => by cases h
              rintro _ ⟨⟩ rfl
              rw [Obeys.ofExcept_iff]
              intro hr
              cases r with
              | error x => cases hr
              | ok u =>
                  cases u
                  exact ⟨(Replaces.of_same hsame₁ (hreplaces left rfl)).same hsame₃, hmay⟩
      · exact fun _ _ _ h => by cases h

/-- The run is at the point where only the gateway's file may have to be written. -/
def Ready (p : Splitter) (gateway : Option File) (body : Option (List UInt8))
    (s : MigrateWatch) : Prop :=
  ∃ runtime t, s.gateway = some gateway ∧ s.runtime = some runtime ∧
    plan p gateway runtime = .ok t ∧ t.gateway = body ∧ (t.runtime = none ∨ s.replaced = true)

/-- The last write of a run. -/
theorem installs_completes {gateway : Option File} {c : CallId}
    (hready : Ready p gateway (some body) s) :
    Obeys (migrateWatch p) (Completes p c) s (atomicWriteEnvironment .gateway body) := by
  obtain ⟨runtime, t, hgateway, hruntime, hplan, hbody, hdone⟩ := hready
  have hwrites : s.Writes p .gateway body :=
    ⟨gateway, runtime, t, hgateway, hruntime, hplan, hbody, hdone⟩
  refine (atomicWriteEnvironment_replaces fun _ => hwrites).mono fun s' r h hr => ?_
  obtain ⟨hreplaces, -⟩ := h hr
  refine ⟨gateway, runtime, t, hreplaces.gateway.trans hgateway, hreplaces.runtime.trans hruntime,
    hplan, hdone.imp_right fun hreplaced => ?_, .inr ?_⟩
  · rw [hreplaces.replaced, hreplaced]
    rfl
  · rw [hreplaces.installed]
    exact Bool.or_true _

section Branches

variable {gateway : Option File} {values : Values} {changed : Bool}

/-- What is found of the relay's file. -/
theorem stat_finds (hgateway : s.gateway = some gateway) :
    Obeys (migrateWatch p) (fun s' r => s'.gateway = some gateway ∧
      ∀ found, r = .ok found → s'.runtime = some found) s (migrateOp (.stat .runtimeTurn)) := by
  refine Obeys.perform trivial ?_
  rintro (x | found) -
  · exact ⟨hgateway, fun _ h => by cases h⟩
  · refine ⟨hgateway, ?_⟩
    rintro _ ⟨⟩
    rfl

/-- A file that has content is read as it was found. -/
theorem read_finds {found : Option File} (hruntime : s.runtime = some found)
    (hcontent : trustedFileHasContent found = .ok true) :
    Obeys (migrateWatch p) (fun s' r => s' = s ∧ ∀ file, r = .ok file → file = p.seen found) s
      (migrateOp (.read .runtimeTurn)) := by
  refine Obeys.perform trivial ?_
  rintro (x | file) hexpect
  · exact ⟨rfl, fun _ h => by cases h⟩
  · refine ⟨rfl, ?_⟩
    rintro _ ⟨⟩
    exact hexpect found hruntime hcontent

theorem splitRuntime_ready (hgateway : s.gateway = some gateway)
    (hread : migratedValues p gateway = .ok (values, changed))
    (hvalid : validateGatewayEnvironment p.lib values = .ok values) :
    Obeys (migrateWatch p) (fun s' r => ∀ turn, r = .ok turn →
      Ready p gateway (some (bodyOf (select values gatewayStaticKeyOrder))) s') s
      (splitRuntime p values) := by
  refine Obeys.bind (stat_finds hgateway) ?_ fun _ _ _ _ h => by cases h
  rintro s₁ found ⟨hgateway₁, hruntime₁⟩
  have hruntime₁ := hruntime₁ found rfl
  refine ofExcept_bind (fun content hcontent => ?_) fun _ _ h => by cases h
  have hcontent := of_checked hcontent
  cases content with
  | true =>
      refine Obeys.bind (read_finds hruntime₁ hcontent) ?_ fun _ _ _ _ h => by cases h
      rintro _ file ⟨rfl, hfile⟩
      obtain rfl := hfile file rfl
      refine ofExcept_bind (fun turn hparse => ?_) fun _ _ h => by cases h
      rw [Obeys.ofExcept_iff]
      intro turn' hturn
      have hturn := of_checked hturn
      cases validateRuntimeTurnEnvironment_self hturn
      exact ⟨found, _, hgateway₁, hruntime₁,
        Planned.plan (.kept hread hvalid hcontent (of_checked hparse) hturn), rfl, .inl rfl⟩
  | false =>
      have hplanned := fun howner : p.ownerControlled = true =>
        Planned.plan (.combined hread hvalid hcontent howner)
      refine ofExcept_bind (fun body hbody => ?_) fun _ _ h => by cases h
      cases serialized_select.symm.trans hbody
      refine Obeys.bind (atomicWriteEnvironment_replaces fun hmay =>
        ⟨gateway, found, _, hgateway₁, hruntime₁, hplanned (hmay rfl), rfl⟩) ?_
        fun _ _ _ _ h => by cases h
      rintro s₂ ⟨⟩ hreplaces _ -
      obtain ⟨hreplaces, hmay⟩ := hreplaces rfl
      refine ⟨found, _, hreplaces.gateway.trans hgateway₁, hreplaces.runtime.trans hruntime₁,
        hplanned (hmay rfl), rfl, .inr ?_⟩
      rw [hreplaces.replaced]
      exact Bool.or_true _

theorem splitCombined_completes {c : CallId} (hgateway : s.gateway = some gateway)
    (hread : migratedValues p gateway = .ok (values, changed)) :
    Obeys (migrateWatch p) (Completes p c) s (splitCombined p values) := by
  refine ofExcept_bind (fun values' hvalid => ?_) fun _ h => by cases h
  have hvalid := of_checked hvalid
  rw [validateGatewayEnvironment_self hvalid] at hvalid
  refine Obeys.bind (splitRuntime_ready hgateway hread hvalid) ?_ fun _ _ _ h => by cases h
  rintro s₁ turn hready
  refine ofExcept_bind (fun _ _ => ?_) fun _ h => by cases h
  refine ofExcept_bind (fun body hbody => ?_) fun _ h => by cases h
  cases serialized_select.symm.trans hbody
  exact installs_completes (hready turn rfl)

theorem checkRuntime_agrees (hgateway : s.gateway = some gateway) :
    Obeys (migrateWatch p) (fun s' r => r = .ok () → s'.gateway = some gateway ∧
      ∃ found, s'.runtime = some found ∧ RuntimeAgrees p found) s (checkRuntime p values) := by
  refine Obeys.bind (stat_finds hgateway) ?_ fun _ _ _ h => by cases h
  rintro s₁ found ⟨hgateway₁, hruntime₁⟩
  have hruntime₁ := hruntime₁ found rfl
  refine ofExcept_bind (fun content hcontent => ?_) fun _ h => by cases h
  have hcontent := of_checked hcontent
  cases content with
  | true =>
      refine Obeys.bind (read_finds hruntime₁ hcontent) ?_ fun _ _ _ h => by cases h
      rintro _ file ⟨rfl, hfile⟩
      obtain rfl := hfile file rfl
      refine ofExcept_bind (fun turn hparse => ?_) fun _ h => by cases h
      refine ofExcept_bind (fun out hsplit _ => ?_) fun _ h => by cases h
      exact ⟨hgateway₁, found, hruntime₁, .inr ⟨hcontent, turn, of_checked hparse,
        (validateSplitGatewayEnvironment_parts (of_checked hsplit)).2⟩⟩
  | false => exact fun _ => ⟨hgateway₁, found, hruntime₁, .inl hcontent⟩

theorem keepStatic_completes {c : CallId} (hgateway : s.gateway = some gateway)
    (hread : migratedValues p gateway = .ok (values, changed)) :
    Obeys (migrateWatch p) (Completes p c) s (keepStatic p values changed) := by
  refine ofExcept_bind (fun _ hkeys => ?_) fun _ h => by cases h
  refine ofExcept_bind (fun static hvalid => ?_) fun _ h => by cases h
  have hvalid := of_checked hvalid
  cases validateGatewayStaticEnvironment_self hvalid
  refine Obeys.bind (checkRuntime_agrees hgateway) ?_ fun _ _ _ h => by cases h
  rintro s₁ ⟨⟩ hfound
  obtain ⟨hgateway₁, found, hruntime₁, hagrees⟩ := hfound rfl
  have hplan := Planned.plan (.static hread hvalid hagrees)
  cases changed with
  | false =>
      exact fun _ => ⟨gateway, found, _, hgateway₁, hruntime₁, hplan, .inl rfl, .inl rfl⟩
  | true =>
      refine ofExcept_bind (fun body hbody => ?_) fun _ h => by cases h
      have hsub := (keys_of_hasKeys (require_ok (of_checked hkeys))).2
      cases (serialized_eq hsub).symm.trans hbody
      exact installs_completes ⟨found, _, hgateway₁, hruntime₁, hplan, rfl, .inl rfl⟩

end Branches

/-- Every run keeps to the rules. -/
theorem migrateGatewayEnvironments_completes (c : CallId) :
    Obeys (migrateWatch p) (Completes p c) {} (migrateGatewayEnvironments p) := by
  refine Obeys.bind (R := fun s' r => ∀ file, r = .ok file → s'.gateway = some file)
    (Obeys.perform trivial ?_) ?_ fun _ _ _ h => by cases h
  · rintro (x | file) -
    · exact fun _ h => by cases h
    · rintro _ ⟨⟩
      rfl
  · rintro s₁ file hgateway
    have hgateway := hgateway file rfl
    refine ofExcept_bind (fun migrated hread => ?_) fun _ h => by cases h
    obtain ⟨values, changed⟩ := migrated
    dsimp only
    split
    next => exact splitCombined_completes hgateway hread
    next => exact keepStatic_completes hgateway hread

end Obeys

/-! ## Stages -/

/-- What a run comes to from the two files, if it comes to something. -/
def goal (p : Splitter) (gateway runtime : Option File) : Plan :=
  match plan p gateway runtime with
  | .ok t => t
  | .error _ => ⟨none, none⟩

/-- The two files before, between and after the replacements. -/
def stage (p : Splitter) (gateway runtime : Option File) : Nat → Option File × Option File
  | 0 => (gateway, runtime)
  | 1 => (gateway, afterWrite runtime (goal p gateway runtime).runtime)
  | _ + 2 => (afterWrite gateway (goal p gateway runtime).gateway,
      afterWrite runtime (goal p gateway runtime).runtime)

/-- What has been written by a stage is short enough. -/
def FitsAt (p : Splitter) (gateway runtime : Option File) (n : Nat) : Prop :=
  (1 ≤ n → ∀ body, (goal p gateway runtime).runtime = some body → body.length ≤ maxConfigBytes) ∧
    (2 ≤ n → ∀ body, (goal p gateway runtime).gateway = some body → body.length ≤ maxConfigBytes)

section Stages

variable {p : Splitter} {gateway runtime : Option File} {t t' : Plan} {i j n n' : Nat}

theorem goal_eq (h : plan p gateway runtime = .ok t) : goal p gateway runtime = t := by
  rw [goal, h]

theorem stage_last (h : 2 ≤ n) : stage p gateway runtime n = stage p gateway runtime 2 := by
  obtain ⟨k, rfl⟩ := Nat.exists_eq_add_of_le' h
  rfl

theorem stage_runtime (h : 1 ≤ n) : (stage p gateway runtime n).2 =
    afterWrite runtime (goal p gateway runtime).runtime := by
  match n with
  | 1 => rfl
  | _ + 2 => rfl

theorem stage_gateway (h : n ≤ 1) : (stage p gateway runtime n).1 = gateway := by
  match n with
  | 0 => rfl
  | 1 => rfl

/-- Without a plan nothing changes. -/
theorem stage_of_error {x : MigrateError} (h : plan p gateway runtime = .error x) (n : Nat) :
    stage p gateway runtime n = (gateway, runtime) := by
  have hgoal : goal p gateway runtime = ⟨none, none⟩ := by rw [goal, h]
  match n with
  | 0 => rfl
  | 1 => rw [stage, hgoal]; rfl
  | _ + 2 => rw [stage, hgoal]; rfl

/-- What a run has found at any stages says what is still to be written, and no more. -/
theorem plan_at (hij : i ≤ j) (hfits : FitsAt p gateway runtime j)
    (hplan : plan p (stage p gateway runtime i).1 (stage p gateway runtime j).2 = .ok t') :
    ∃ t, plan p gateway runtime = .ok t ∧
      ((i ≤ 1 ∧ j = 0 ∧ t' = t) ∨ (i ≤ 1 ∧ 1 ≤ j ∧ t' = ⟨t.gateway, none⟩) ∨
        (2 ≤ i ∧ t' = ⟨none, none⟩)) := by
  cases hgoal : plan p gateway runtime with
  | error x =>
      rw [stage_of_error hgoal, stage_of_error hgoal, hgoal] at hplan
      cases hplan
  | ok t =>
      have hplanned := planned_of_plan hgoal
      have hsmall : ∀ body, 1 ≤ j → t.runtime = some body → body.length ≤ maxConfigBytes :=
        fun body hj hbody => hfits.1 hj body (goal_eq hgoal ▸ hbody)
      refine ⟨t, rfl, ?_⟩
      by_cases hi : i ≤ 1
      · rw [stage_gateway hi] at hplan
        rcases Nat.eq_zero_or_pos j with rfl | hj
        · exact .inl ⟨hi, rfl, Except.ok.inj (hplan.symm.trans hgoal)⟩
        · rw [stage_runtime hj, goal_eq hgoal] at hplan
          have hafter := (hplanned.afterRuntime fun body => hsmall body hj).plan
          exact .inr (.inl ⟨hi, hj, Except.ok.inj (hplan.symm.trans hafter)⟩)
      · have hi : 2 ≤ i := Nat.lt_of_not_le hi
        have hj : 2 ≤ j := Nat.le_trans hi hij
        have hall : t.Fits := ⟨fun body hbody => hfits.2 hj body (goal_eq hgoal ▸ hbody),
          fun body hbody => hsmall body (by omega) hbody⟩
        rw [stage_last hi, stage_runtime (by omega), ← stage_runtime (n := 2) (by omega)] at hplan
        have hsettled : plan p (stage p gateway runtime 2).1 (stage p gateway runtime 2).2 =
            .ok ⟨none, none⟩ := by
          rw [stage, goal_eq hgoal]
          exact (hplanned.settled hall).plan
        exact .inr (.inr ⟨hi, Except.ok.inj (hplan.symm.trans hsettled)⟩)

/-- A file of the relay that has content stays. -/
theorem stage_of_content (hj : j ≤ n)
    (hcontent : trustedFileHasContent (stage p gateway runtime j).2 = .ok true) :
    (stage p gateway runtime n).2 = (stage p gateway runtime j).2 := by
  rcases Nat.eq_zero_or_pos j with rfl | hpos
  · cases hgoal : plan p gateway runtime with
    | error x => rw [stage_of_error hgoal, stage_of_error hgoal]
    | ok t =>
        have hnone : t.runtime = none := by
          cases planned_of_plan hgoal with
          | combined hread hvalid hempty howner => cases hempty.symm.trans hcontent
          | kept hread hvalid hcontent hparse hturn => rfl
          | static hread hvalid hruntime => rfl
        rcases Nat.eq_zero_or_pos n with rfl | hn
        · rfl
        · rw [stage_runtime hn, goal_eq hgoal, hnone]
          rfl
  · rw [stage_runtime hpos, stage_runtime (Nat.le_trans hpos hj)]

/-- The last stage is reached, and it is what a plan comes to. -/
def Done (p : Splitter) (gateway runtime : Option File) (n : Nat) : Prop :=
  stage p gateway runtime n = stage p gateway runtime 2 ∧
    ∃ t, plan p gateway runtime = .ok t ∧ t.Fits

theorem Done.mono (h : Done p gateway runtime n) (hn : n ≤ n') : Done p gateway runtime n' := by
  refine ⟨?_, h.2⟩
  match n', hn with
  | 0, hn =>
      cases Nat.le_zero.1 hn
      exact h.1
  | 1, hn =>
      rcases Nat.le_one_iff_eq_zero_or_eq_one.1 hn with rfl | rfl
      · have hgateway := congrArg Prod.fst h.1
        exact Prod.ext hgateway rfl
      · exact h.1
  | k + 2, _ => rfl

end Stages

/-! ## What holds of the files and the runs -/

/-- What a run has found and made. -/
structure Running (p : Splitter) (gateway runtime : Option File) (n : Nat) (st : MigrateState)
    (c : CallId) (s : MigrateWatch) : Prop where
  gatewayFound : ∀ file, s.gateway = some file →
    ∃ i, i ≤ n ∧ file = (stage p gateway runtime i).1
  runtimeFound : ∀ found, s.runtime = some found →
    ∃ j, j ≤ n ∧ found = (stage p gateway runtime j).2 ∧
      ∀ file, s.gateway = some file → ∃ i, i ≤ j ∧ file = (stage p gateway runtime i).1
  replaced : s.replaced = true → 1 ≤ n
  installed : s.installed = true → 2 ≤ n
  named : ∀ name, s.temporary = some name → st.owner name = some c
  filled : ∀ content, s.filled = some content →
    ∃ name, s.temporary = some name ∧ st.temporaries name = some content

/-- The files are at a stage, and every run has found them there or at an earlier one. -/
structure MigratingAt (p : Splitter) (gateway runtime : Option File) (n : Nat)
    (st : MigrateState) (log : MigrateLog) : Prop where
  files : (st.gateway, st.runtime) = stage p gateway runtime n
  fits : FitsAt p gateway runtime n
  running : Each (fun _ => migrateWatch p) (Running p gateway runtime n st) log
  ended : ∀ c, .ended c (.ok ()) ∈ log → Done p gateway runtime n

/-- The files are at some stage. -/
def Migrating (p : Splitter) (gateway runtime : Option File) (st : MigrateState)
    (log : MigrateLog) : Prop :=
  ∃ n, MigratingAt p gateway runtime n st log

section Steps

variable {p : Splitter} {gateway runtime : Option File} {n n' : Nat} {st st' : MigrateState}
  {log : MigrateLog} {c d : CallId} {s : MigrateWatch} {env : MigrateEnv}

/-- What was found stays found. -/
theorem Running.later (h : Running p gateway runtime n st d s) (hn : n ≤ n') :
    Running p gateway runtime n' st d s where
  gatewayFound file hfile := by
    obtain ⟨i, hi, hstage⟩ := h.gatewayFound file hfile
    exact ⟨i, Nat.le_trans hi hn, hstage⟩
  runtimeFound found hfound := by
    obtain ⟨j, hj, hstage⟩ := h.runtimeFound found hfound
    exact ⟨j, Nat.le_trans hj hn, hstage⟩
  replaced hr := Nat.le_trans (h.replaced hr) hn
  installed hi := Nat.le_trans (h.installed hi) hn
  named := h.named
  filled := h.filled

/-- Another run has the same in its hands as before. -/
theorem Running.other (h : Running p gateway runtime n st d s)
    (howner : ∀ name, st.owner name = some d → st'.owner name = some d)
    (htemporaries : ∀ name, st.owner name = some d → st'.temporaries name = st.temporaries name) :
    Running p gateway runtime n st' d s where
  gatewayFound := h.gatewayFound
  runtimeFound := h.runtimeFound
  replaced := h.replaced
  installed := h.installed
  named name hname := howner name (h.named name hname)
  filled content hcontent := by
    obtain ⟨name, hname, hfile⟩ := h.filled content hcontent
    exact ⟨name, hname, (htemporaries name (h.named name hname)).trans hfile⟩

theorem MigratingAt.gateway_eq (h : MigratingAt p gateway runtime n st log) :
    st.gateway = (stage p gateway runtime n).1 := congrArg Prod.fst h.files

theorem MigratingAt.runtime_eq (h : MigratingAt p gateway runtime n st log) :
    st.runtime = (stage p gateway runtime n).2 := congrArg Prod.snd h.files

/-- An operation, from what becomes of the files and of the run itself. -/
theorem MigratingAt.did {e : MigrateEff} {r : Except MigrateError e.Ans}
    (h : MigratingAt p gateway runtime n st log)
    (hghost : ghost (fun _ => migrateWatch p) c log = some s) (hn : n ≤ n')
    (hfiles : (st'.gateway, st'.runtime) = stage p gateway runtime n')
    (hfits : FitsAt p gateway runtime n')
    (howner : ∀ d name, d ≠ c → st.owner name = some d → st'.owner name = some d)
    (htemporaries : ∀ d name, d ≠ c → st.owner name = some d →
      st'.temporaries name = st.temporaries name)
    (hself : Running p gateway runtime n' st' c (s.next e r)) :
    Migrating p gateway runtime st' (.did c e r :: log) := by
  refine ⟨n', hfiles, hfits, h.running.did hghost hself fun d s' hd _ hs' =>
    (hs'.later hn).other (howner d · hd) (htemporaries d · hd), fun d hd => ?_⟩
  exact (h.ended d ((List.mem_cons.1 hd).resolve_left (by simp))).mono hn

/-- An operation that leaves the state as it is. -/
theorem MigratingAt.aside {e : MigrateEff} {r : Except MigrateError e.Ans}
    (h : MigratingAt p gateway runtime n st log)
    (hghost : ghost (fun _ => migrateWatch p) c log = some s)
    (hself : Running p gateway runtime n st c (s.next e r)) :
    Migrating p gateway runtime st (.did c e r :: log) :=
  h.did hghost (Nat.le_refl n) h.files h.fits (fun _ _ _ ho => ho) (fun _ _ _ _ => rfl) hself

theorem FitsAt.mono (h : FitsAt p gateway runtime n') (hn : n ≤ n') :
    FitsAt p gateway runtime n :=
  ⟨fun h1 => h.1 (Nat.le_trans h1 hn), fun h2 => h.2 (Nat.le_trans h2 hn)⟩

/-- What a run has found is enough to say what it is to do. -/
theorem Running.plan (h : Running p gateway runtime n st c s) (hfits : FitsAt p gateway runtime n)
    {file found : Option File} {t' : Plan} (hfile : s.gateway = some file)
    (hfound : s.runtime = some found) (hplan : MediaConfig.plan p file found = .ok t') :
    ∃ t i j, MediaConfig.plan p gateway runtime = .ok t ∧ i ≤ j ∧ j ≤ n ∧
      ((i ≤ 1 ∧ j = 0 ∧ t' = t) ∨ (i ≤ 1 ∧ 1 ≤ j ∧ t' = ⟨t.gateway, none⟩) ∨
        (2 ≤ i ∧ t' = ⟨none, none⟩)) := by
  obtain ⟨j, hj, rfl, hbefore⟩ := h.runtimeFound found hfound
  obtain ⟨i, hi, rfl⟩ := hbefore file hfile
  obtain ⟨t, ht, hcases⟩ := plan_at hi (hfits.mono hj) hplan
  exact ⟨t, i, j, ht, hi, hj, hcases⟩

/-- The file of the relay is replaced. -/
theorem MigratingAt.replaceRuntime {name : String} (h : MigratingAt p gateway runtime n st log)
    (hlive : Live c log) (hghost : ghost (fun _ => migrateWatch p) c log = some s)
    {body : List UInt8} (hwrites : s.Writes p .runtimeTurn body)
    (hbody : body.length ≤ maxConfigBytes) (hname : s.temporary = some name) :
    Migrating p gateway runtime { st with
      runtime := some (writtenFile body), temporaries := st.temporaries.remove name }
      (.did c (.replace name .runtimeTurn) (.ok ()) :: log) := by
  have hself := h.running c s hlive hghost
  obtain ⟨file, found, t', hfile, hfound, hplan, hruntime⟩ := hwrites
  obtain ⟨t, i, j, ht, hij, hj, hcases⟩ := hself.plan h.fits hfile hfound hplan
  have hgoal : (goal p gateway runtime).runtime = some body := by
    rw [goal_eq ht]
    rcases hcases with ⟨-, -, rfl⟩ | ⟨-, -, rfl⟩ | ⟨-, rfl⟩
    · exact hruntime
    · cases hruntime
    · cases hruntime
  have hn : n ≤ max n 1 := Nat.le_max_left n 1
  refine h.did hghost hn ?_ ?_ (fun _ _ _ ho => ho) (fun d other hd ho => ?_) ?_
  · refine Prod.ext ?_ ?_
    · rw [h.gateway_eq]
      rcases Nat.eq_zero_or_pos n with rfl | hpos
      · rfl
      · rw [Nat.max_eq_left hpos]
    · rw [stage_runtime (Nat.le_max_right n 1), hgoal]
      rfl
  · refine ⟨fun _ other hother => ?_, fun h2 other hother => ?_⟩
    · rw [hgoal] at hother
      cases hother
      exact hbody
    · exact h.fits.2 (by omega) other hother
  · refine Files.remove_of_ne ?_
    rintro rfl
    exact hd (Option.some.inj (ho.symm.trans (hself.named other hname)))
  · have hsame := hself.later hn
    exact ⟨hsame.gatewayFound, hsame.runtimeFound, fun _ => Nat.le_max_right n 1,
      hsame.installed, hsame.named, fun _ hc => by cases hc⟩

/-- The file of the gateway is replaced. -/
theorem MigratingAt.replaceGateway {name : String} (h : MigratingAt p gateway runtime n st log)
    (hlive : Live c log) (hghost : ghost (fun _ => migrateWatch p) c log = some s)
    {body : List UInt8} (hwrites : s.Writes p .gateway body)
    (hbody : body.length ≤ maxConfigBytes) (hname : s.temporary = some name) :
    Migrating p gateway runtime { st with
      gateway := some (writtenFile body), temporaries := st.temporaries.remove name }
      (.did c (.replace name .gateway) (.ok ()) :: log) := by
  have hself := h.running c s hlive hghost
  obtain ⟨file, found, t', hfile, hfound, hplan, hgateway, hdone⟩ := hwrites
  obtain ⟨t, i, j, ht, hij, hj, hcases⟩ := hself.plan h.fits hfile hfound hplan
  -- The relay's file is at its last stage already, or has no other.
  have hgoal : (goal p gateway runtime).gateway = some body ∧
      (1 ≤ n ∨ (goal p gateway runtime).runtime = none) := by
    rw [goal_eq ht]
    rcases hcases with ⟨-, -, rfl⟩ | ⟨-, hpos, rfl⟩ | ⟨-, rfl⟩
    · exact ⟨hgateway, hdone.symm.imp_left hself.replaced⟩
    · exact ⟨hgateway, .inl (Nat.le_trans hpos hj)⟩
    · cases hgateway
  have hn : n ≤ max n 2 := Nat.le_max_left n 2
  refine h.did hghost hn ?_ ?_ (fun _ _ _ ho => ho) (fun d other hd ho => ?_) ?_
  · rw [stage_last (Nat.le_max_right n 2)]
    refine Prod.ext ?_ ?_
    · rw [stage, hgoal.1]
      rfl
    · rw [h.runtime_eq, stage_runtime (n := 2) (by omega)]
      rcases Nat.eq_zero_or_pos n with rfl | hpos
      · rw [hgoal.2.resolve_left (by omega)]
        rfl
      · rw [stage_runtime hpos]
  · refine ⟨fun _ other hother => ?_, fun _ other hother => ?_⟩
    · rcases hgoal.2 with hpos | hnone
      · exact h.fits.1 hpos other hother
      · rw [hnone] at hother
        cases hother
    · rw [hgoal.1] at hother
      cases hother
      exact hbody
  · refine Files.remove_of_ne ?_
    rintro rfl
    exact hd (Option.some.inj (ho.symm.trans (hself.named other hname)))
  · have hsame := hself.later hn
    exact ⟨hsame.gatewayFound, hsame.runtimeFound, hsame.replaced,
      fun _ => Nat.le_max_right n 2, hsame.named, fun _ hc => by cases hc⟩

/-- A change of the temporary files that concerns no other run. -/
theorem MigratingAt.temporary {e : MigrateEff} {r : Except MigrateError e.Ans}
    (h : MigratingAt p gateway runtime n st log) (hlive : Live c log)
    (hghost : ghost (fun _ => migrateWatch p) c log = some s) {name : String}
    (hname : s.temporary = some name) {temporaries : Files (List UInt8)}
    (hothers : ∀ other, other ≠ name → temporaries other = st.temporaries other)
    (hself : Running p gateway runtime n { st with temporaries } c (s.next e r)) :
    Migrating p gateway runtime { st with temporaries } (.did c e r :: log) := by
  have howner := (h.running c s hlive hghost).named name hname
  refine h.did hghost (Nat.le_refl n) h.files h.fits (fun _ _ _ ho => ho) (fun d other hd ho => ?_)
    hself
  refine hothers other ?_
  rintro rfl
  exact hd (Option.some.inj (ho.symm.trans howner))

/-- A call that is not watched. -/
theorem MigratingAt.unseen {e : MigrateEff} {r : Except MigrateError e.Ans}
    (h : MigratingAt p gateway runtime n st log) (hlive : Live c log)
    (hghost : ghost (fun _ => migrateWatch p) c log = some s) (hnext : s.next e r = s) :
    Migrating p gateway runtime st (.did c e r :: log) := by
  refine h.aside hghost ?_
  rw [hnext]
  exact h.running c s hlive hghost

theorem unseen_state {r : Except MigrateError Unit}
    (h : some (MediaConfig.unseen env st) = some (r, st')) : st' = st := by
  unfold MediaConfig.unseen at h
  split at h
  next =>
    cases h
    rfl
  next =>
    cases h
    rfl

/-- One operation. -/
theorem MigratingAt.exec {e : MigrateEff} {r : Except MigrateError e.Ans}
    (h : MigratingAt p gateway runtime n st log) (hlive : Live c log)
    (hghost : ghost (fun _ => migrateWatch p) c log = some s) (hallow : s.allow p e)
    (hexec : migrateExec p c env st e = some (r, st')) :
    s.expect p e r ∧ Migrating p gateway runtime st' (.did c e r :: log) := by
  have hself := h.running c s hlive hghost
  cases e with
  | read target =>
      cases hexec
      cases target with
      | gateway =>
          split
          next => exact ⟨trivial, h.unseen hlive hghost rfl⟩
          next =>
            refine ⟨trivial, h.aside hghost ⟨?_, fun _ hf => (by cases hf), hself.replaced,
              hself.installed, hself.named, hself.filled⟩⟩
            rintro _ ⟨⟩
            exact ⟨n, Nat.le_refl n, h.gateway_eq⟩
      | runtimeTurn =>
          split
          next => exact ⟨trivial, h.unseen hlive hghost rfl⟩
          next =>
            refine ⟨fun found hfound hcontent => ?_, h.unseen hlive hghost rfl⟩
            obtain ⟨j, hj, rfl, -⟩ := hself.runtimeFound found hfound
            rw [Splitter.opened, h.runtime_eq, stage_of_content hj hcontent]
  | stat target =>
      cases hexec
      cases target with
      | gateway =>
          split
          next => exact ⟨trivial, h.unseen hlive hghost rfl⟩
          next => exact ⟨trivial, h.unseen hlive hghost rfl⟩
      | runtimeTurn =>
          split
          next => exact ⟨trivial, h.unseen hlive hghost rfl⟩
          next =>
            refine ⟨trivial, h.aside hghost ⟨hself.gatewayFound, ?_, hself.replaced,
              hself.installed, hself.named, hself.filled⟩⟩
            rintro _ ⟨⟩
            exact ⟨n, Nat.le_refl n, h.runtime_eq, hself.gatewayFound⟩
  | token =>
      simp only [migrateExec] at hexec
      split at hexec
      next => cases hexec
      next hfree =>
        cases hexec
        have hother : ∀ d name, st.owner name = some d →
            Function.update st.owner env.name (some c) name = some d := by
          intro d name ho
          have hne : name ≠ env.name := by
            rintro rfl
            rw [ho] at hfree
            exact hfree rfl
          rw [Function.update_of_ne hne, ho]
        refine ⟨trivial, h.did hghost (Nat.le_refl n) h.files h.fits (fun d name _ => hother d name)
          (fun _ _ _ _ => rfl) ⟨hself.gatewayFound, hself.runtimeFound, hself.replaced,
            hself.installed, ?_, fun _ hc => by cases hc⟩⟩
        rintro _ ⟨⟩
        exact Function.update_self env.name (some c) st.owner
  | openDirectory target =>
      simp only [migrateExec] at hexec
      split at hexec
      next =>
        cases hexec
        exact ⟨by cases target <;> exact trivial, h.unseen hlive hghost rfl⟩
      next =>
        cases target with
        | gateway =>
            cases hexec
            exact ⟨trivial, h.unseen hlive hghost rfl⟩
        | runtimeTurn =>
            cases hexec
            split
            next howner => exact ⟨howner, h.unseen hlive hghost rfl⟩
            next => exact ⟨trivial, h.unseen hlive hghost rfl⟩
  | create name =>
      simp only [migrateExec] at hexec
      split at hexec
      next =>
        cases hexec
        exact ⟨trivial, h.unseen hlive hghost rfl⟩
      next =>
        cases hexec
        refine ⟨trivial, h.temporary hlive hghost hallow (fun _ hne => Files.put_of_ne hne [])
          ⟨hself.gatewayFound, hself.runtimeFound, hself.replaced, hself.installed, hself.named,
            ?_⟩⟩
        rintro _ ⟨⟩
        exact ⟨name, hallow, Files.put_self []⟩
  | fchmod name =>
      obtain rfl := unseen_state hexec
      exact ⟨by cases r <;> exact trivial, h.unseen hlive hghost (by cases r <;> rfl)⟩
  | write name body =>
      simp only [migrateExec] at hexec
      split at hexec
      next =>
        cases hexec
        exact ⟨trivial, h.unseen hlive hghost rfl⟩
      next =>
        cases hexec
        refine ⟨trivial, h.temporary hlive hghost hallow
          (fun _ hne => Function.update_of_ne hne _ _)
          ⟨hself.gatewayFound, hself.runtimeFound, hself.replaced, hself.installed, hself.named,
            ?_⟩⟩
        intro content hcontent
        obtain ⟨prior, hprior, rfl⟩ := Option.map_eq_some_iff.1 hcontent
        obtain ⟨other, hother, hfile⟩ := hself.filled prior hprior
        cases hallow.symm.trans hother
        refine ⟨name, hallow, ?_⟩
        change Files.modify name (· ++ body.take (min env.count body.length)) st.temporaries name = _
        rw [Files.modify, Function.update_self, hfile]
        rfl
  | fsync name =>
      obtain rfl := unseen_state hexec
      exact ⟨by cases r <;> exact trivial, h.unseen hlive hghost (by cases r <;> rfl)⟩
  | close name =>
      obtain rfl := unseen_state hexec
      exact ⟨by cases r <;> exact trivial, h.unseen hlive hghost (by cases r <;> rfl)⟩
  | replace name target =>
      obtain ⟨hname, body, hfilled, hwrites, hbody⟩ := hallow
      obtain ⟨other, hother, hfile⟩ := hself.filled body hfilled
      cases hname.symm.trans hother
      simp only [migrateExec, hfile] at hexec
      split at hexec
      next =>
        cases hexec
        exact ⟨by cases target <;> exact trivial, h.unseen hlive hghost (by cases target <;> rfl)⟩
      next =>
        cases target with
        | gateway =>
            cases hexec
            exact ⟨trivial, h.replaceGateway hlive hghost hwrites hbody hname⟩
        | runtimeTurn =>
            cases hexec
            exact ⟨trivial, h.replaceRuntime hlive hghost hwrites hbody hname⟩
  | fsyncDirectory target =>
      obtain rfl := unseen_state hexec
      exact ⟨by cases r <;> exact trivial, h.unseen hlive hghost (by cases r <;> rfl)⟩
  | unlink name =>
      simp only [migrateExec] at hexec
      split at hexec
      next =>
        cases hexec
        exact ⟨trivial, h.unseen hlive hghost rfl⟩
      next =>
        cases hexec
        exact ⟨trivial, h.temporary hlive hghost hallow (fun _ hne => Files.remove_of_ne hne)
          ⟨hself.gatewayFound, hself.runtimeFound, hself.replaced, hself.installed, hself.named,
            fun _ hc => by cases hc⟩⟩
  | closeDirectory target =>
      obtain rfl := unseen_state hexec
      exact ⟨by cases r <;> exact trivial, h.unseen hlive hghost (by cases r <;> rfl)⟩

/-- A run that ends without an exception has left the last stage. -/
theorem MigratingAt.completed (h : MigratingAt p gateway runtime n st log) (hlive : Live c log)
    (hghost : ghost (fun _ => migrateWatch p) c log = some s)
    (hcompletes : Completes p c s (.ok ())) : Done p gateway runtime n := by
  have hself := h.running c s hlive hghost
  obtain ⟨file, found, t', hfile, hfound, hplan, hruntime, hgateway⟩ := hcompletes rfl
  obtain ⟨t, i, j, ht, hij, hj, hcases⟩ := hself.plan h.fits hfile hfound hplan
  have hgoal := goal_eq ht
  -- Either a file has been replaced, or there is nothing to replace it by.
  have hreached : (2 ≤ n ∨ t.gateway = none) ∧ (1 ≤ n ∨ t.runtime = none) := by
    rcases hcases with ⟨-, -, rfl⟩ | ⟨-, hpos, rfl⟩ | ⟨hi, -⟩
    · exact ⟨hgateway.symm.imp_left hself.installed, hruntime.symm.imp_left hself.replaced⟩
    · exact ⟨hgateway.symm.imp_left hself.installed, .inl (Nat.le_trans hpos hj)⟩
    · have hn : 2 ≤ n := Nat.le_trans hi (Nat.le_trans hij hj)
      exact ⟨.inl hn, .inl (by omega)⟩
  refine ⟨?_, t, ht, ?_, ?_⟩
  · rcases hreached.1 with hn | hnone
    · exact stage_last hn
    · refine Prod.ext ?_ ?_
      · match n with
        | 0 =>
            rw [stage, stage, hgoal, hnone]
            rfl
        | 1 =>
            rw [stage, stage, hgoal, hnone]
            rfl
        | _ + 2 => rfl
      · rcases Nat.eq_zero_or_pos n with rfl | hpos
        · rw [stage, stage, hgoal, hreached.2.resolve_left (by omega)]
          rfl
        · rw [stage_runtime hpos, stage_runtime (n := 2) (by omega)]
  · intro body hbody
    rcases hreached.1 with hn | hnone
    · exact h.fits.2 hn body (hgoal ▸ hbody)
    · rw [hnone] at hbody
      cases hbody
  · intro body hbody
    rcases hreached.2 with hn | hnone
    · exact h.fits.1 hn body (hgoal ▸ hbody)
    · rw [hnone] at hbody
      cases hbody

end Steps

/-! ## Runs -/

/-- Every run keeps to the rules, and the files are at a stage. -/
theorem migrations_sound (p : Splitter) (gateway runtime : Option File) :
    Invariant (migrations p) (fun _ => migrateWatch p) (Completes p) (fun _ _ => True)
      (Migrating p gateway runtime) where
  obeys w c call s' _ _ _ := migrateGatewayEnvironments_completes c
  began w c call s' _ h _ _ haccept := by
    cases haccept
    obtain ⟨n, h⟩ := h
    refine ⟨n, h.files, h.fits, h.running.began ?_ fun d s' _ _ hs' => hs', fun d hd => ?_⟩
    · exact ⟨fun _ hf => (by cases hf), fun _ hf => (by cases hf), fun hr => (by cases hr),
        fun hi => (by cases hi), fun _ hn => (by cases hn), fun _ hc => by cases hc⟩
    · exact h.ended d ((List.mem_cons.1 hd).resolve_left (by simp))
  did w c env e k s r s' _ h _ _ hlive hghost hallow hexec := by
    obtain ⟨n, h⟩ := h
    exact h.exec hlive hghost hallow hexec
  ended w c s r _ h hlive hghost hcompletes := by
    obtain ⟨n, h⟩ := h
    refine ⟨n, h.files, h.fits, h.running.ended, fun d hd => ?_⟩
    rcases List.mem_cons.1 hd with heq | hd
    · cases heq
      exact h.completed hlive hghost hcompletes
    · exact h.ended d hd
  crashed w proc env _ h _ := by
    obtain ⟨n, h⟩ := h
    exact ⟨n, h.files, h.fits, h.running.crashed fun _ _ _ _ hs' => hs', fun d hd =>
      h.ended d ((List.mem_cons.1 hd).resolve_left (by simp))⟩

/-- Before any run. -/
theorem migrating_init (p : Splitter) (st : MigrateState) :
    Migrating p st.gateway st.runtime (World.init st : MigrateWorld).state
      (World.init st : MigrateWorld).log :=
  ⟨0, rfl, ⟨fun h => (by cases h), fun h => by cases h⟩, fun _ _ hlive => (by cases hlive),
    fun _ hd => by cases hd⟩

/-- Whatever runs begin, fail, are cut short or overlap, the two files are at one of three stages,
each written body within the limit, and unchanged where a run is refused before it writes.  From the
end of the first run that ends without an exception on, they are migrated. -/
theorem migrated_in_any_run (p : Splitter) (st : MigrateState)
    (l : List (Choice MigrateEnv Unit)) :
    (∃ n, (((migrations p).run (World.init st) l).state.gateway,
      ((migrations p).run (World.init st) l).state.runtime) =
        stage p st.gateway st.runtime n ∧ FitsAt p st.gateway st.runtime n) ∧
    (∀ x, plan p st.gateway st.runtime = .error x →
      ((migrations p).run (World.init st) l).state.gateway = st.gateway ∧
        ((migrations p).run (World.init st) l).state.runtime = st.runtime) ∧
    ∀ c, .ended c (.ok ()) ∈ ((migrations p).run (World.init st) l).log →
      Migrated p st.gateway st.runtime ((migrations p).run (World.init st) l).state.gateway
        ((migrations p).run (World.init st) l).state.runtime := by
  obtain ⟨-, n, h⟩ := (migrations_sound p st.gateway st.runtime).run (Sound.init _ _ st)
    (migrating_init p st) (Machine.admits_true _ l)
  refine ⟨⟨n, h.files, h.fits⟩, fun x hx => ?_, fun c hc => ?_⟩
  · have hfiles := h.files
    rw [stage_of_error hx] at hfiles
    exact Prod.mk.inj hfiles
  · obtain ⟨hlast, t, ht, hfits⟩ := h.ended c hc
    have hfiles := h.files.trans hlast
    rw [stage, goal_eq ht] at hfiles
    obtain ⟨hgateway, hruntime⟩ := Prod.mk.inj hfiles
    rw [hgateway, hruntime]
    exact (planned_of_plan ht).migrated hfits

end MediaConfig

end GateController

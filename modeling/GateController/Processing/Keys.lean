import GateController.Processing.Discipline
import GateController.Store.Frame

/-!
# The key of a call

A call of the processor settles on one idempotency key and writes events of no
other.  For `process` the key is the argument, if there is one.  For
`record_skipped` without a key it is the digest of the first path, read anew.
-/

namespace GateController

open Data Effects Proc LocalStore ActuationCoordinator

/-- The operation writes no event but one of this key, neither into the audit log
nor into a claim from which recovery would restore it. -/
def Eff.WritesUnder (key : String) : Eff → Prop
  | .store (.claimActuation a) => ∀ event, a.event = some event → event.idempotencyKey = some key
  | .store (.markActuationAttempt a) => a.event.idempotencyKey = some key
  | .store (.finalizeActuation a) => a.event.idempotencyKey = some key
  | .store (.recordTerminalOutcome a) => a.event.idempotencyKey = some key
  | .store (.recordEventWithOutbox event _) => event.idempotencyKey = some key
  | .store .recoverInterruptedActuations => False
  | _ => True

theorem eventRow_of_insert {t t' : Table EventRow String EventRow.idempotencyKey} {event : GateEvent}
    {id i : Nat} {row : EventRow} (h : t.insert (eventRow event) = some (id, t'))
    (hrow : t'.find? i = some row) :
    t.find? i = some row ∨ row.idempotencyKey = event.idempotencyKey := by
  rw [Table.find?_insert h] at hrow
  split at hrow
  · cases hrow
    exact .inr rfl
  · exact .inl hrow

/-- What such an operation adds to the audit log has the key. -/
theorem Eff.WritesUnder.row {key : String} {op : StoreOp} (hop : (Eff.store op).WritesUnder key)
    {now : DateTime} {fault : Option Exc} {db : Db} {i : Nat} {row : EventRow}
    (hrow : (op.run now fault db).2.events.find? i = some row) :
    db.events.find? i = some row ∨ row.idempotencyKey = some key := by
  obtain ⟨r, db', hrun⟩ : ∃ r db', op.run now fault db = (r, db') := ⟨_, _, rfl⟩
  rw [hrun] at hrow
  cases r with
  | error x =>
      rw [op.run_error hrun] at hrow
      exact .inl hrow
  | ok answer =>
      cases fault with
      | some x => cases hrun
      | none =>
          replace hrun : op.txn now db = (.ok answer, db') := hrun
          cases op with
          | claimActuation a =>
              rcases claimActuation_cases a db with ⟨id, row, -, heq⟩ | ⟨-, -, heq⟩ |
                ⟨id, claims, -, -, heq⟩ <;>
                cases (show LocalStore.claimActuation a db = _ from hrun).symm.trans heq <;>
                exact .inl hrow
          | markActuationAttempt a =>
              obtain ⟨_, _, _, _, _, _, _, _, rfl, _⟩ := markActuationAttempt_ok hrun
              exact .inl hrow
          | finalizeActuation a =>
              obtain ⟨_, _, _, _, _, _, _, _, _, hins, rfl, _⟩ := finalizeActuation_ok hrun
              exact (eventRow_of_insert hins hrow).imp_right fun h => h.trans hop
          | recordEventWithOutbox event payload =>
              rcases recordEventWithOutbox_ok hrun with ⟨events, hins, rfl⟩ | ⟨_, _, -, -, rfl⟩
              · exact (eventRow_of_insert hins hrow).imp_right fun h => h.trans hop
              · exact .inl hrow
          | recordTerminalOutcome a =>
              rcases recordTerminalOutcome_ok hrun with ⟨_, -, hrun⟩ | ⟨_, -, hrun⟩
              · rcases recordEventWithOutbox_ok hrun with ⟨events, hins, rfl⟩ | ⟨_, _, -, -, rfl⟩
                · exact (eventRow_of_insert hins hrow).imp_right fun h => h.trans hop
                · exact .inl hrow
              · rcases recordTerminalOutcomeOf_ok hrun with
                  ⟨_, _, _, -, -, -, rfl⟩ | ⟨_, events, _, _, -, hins, -, rfl⟩
                · exact .inl hrow
                · exact (eventRow_of_insert hins hrow).imp_right fun h => h.trans hop
          | recoverInterruptedActuations => exact hop.elim
          | attachEventTelemetry id telemetry =>
              obtain ⟨_, _, _, rfl, -⟩ := attachEventTelemetry_ok hrun
              exact .inl hrow
          | _ =>
              cases hrun
              exact .inl hrow

/-! ## Parts that write nothing -/

/-- No operation of the store but a reading of it or a change of the outbox. -/
def Eff.WritesNothing : Eff → Prop
  | .store (.claimActuation _) => False
  | .store (.markActuationAttempt _) => False
  | .store (.finalizeActuation _) => False
  | .store (.recordTerminalOutcome _) => False
  | .store (.recordEventWithOutbox _ _) => False
  | .store .recoverInterruptedActuations => False
  | _ => True

theorem Eff.WritesNothing.under {e : Eff} (h : e.WritesNothing) (key : String) :
    e.WritesUnder key := by
  cases e with
  | store op => cases op <;> first | exact h.elim | trivial
  | _ => trivial

/-- No operation of the store at all. -/
def Eff.Storeless : Eff → Prop
  | .store _ => False
  | _ => True

theorem Eff.Storeless.writesNothing {e : Eff} (h : e.Storeless) : e.WritesNothing := by
  cases e with
  | store op => exact h.elim
  | _ => trivial

theorem Eff.Storeless.of_quiet {e : Eff} (h : QuietOp e) : e.Storeless := by
  cases e with
  | store op => exact h.elim
  | _ => trivial

theorem Eff.WritesNothing.of_quiet {e : Eff} (h : QuietOp e) : e.WritesNothing :=
  (Eff.Storeless.of_quiet h).writesNothing

theorem only_withLock {α : Type} {F : Eff → Prop} {lock : LockId} {body : Proc α}
    (hacquire : F (.acquire lock)) (hrelease : F (.release lock)) (hbody : body.Only F) :
    (withLock lock body).Only F := by
  refine Prog.Only.bind (Prog.Only.perform_iff.2 hacquire) fun _ => ?_
  refine Prog.Only.bind hbody.attempt fun r => ?_
  exact Prog.Only.bind (Prog.Only.perform_iff.2 hrelease) fun _ => by simp

namespace RelayController

theorem only_deenergizeAtBoundary (attempts : Nat) :
    (deenergizeAtBoundary attempts).Only Eff.Storeless := by
  induction attempts with
  | zero => trivial
  | succ attempts ih =>
      refine Prog.Only.bind (Prog.Only.attempt (Prog.Only.perform_iff.2 trivial)) fun r => ?_
      cases r with
      | ok u => trivial
      | error x =>
          dsimp only
          split
          · exact ih
          · trivial

theorem only_deenergize (attempts : Nat) : (deenergize attempts).Only Eff.Storeless := by
  refine Prog.Only.bind (only_withLock trivial trivial ?_) fun r => ?_
  · refine Prog.Only.bind (only_deenergizeAtBoundary attempts) fun safe => ?_
    split
    · exact Prog.Only.bind (Prog.Only.perform_iff.2 trivial) fun _ => trivial
    · trivial
  · exact Prog.Only.bind ((only_notify _).mono fun _ => Eff.Storeless.of_quiet) fun _ => trivial

theorem only_recordOutcome_storeless (outcome : String) (at_ : Option DateTime) :
    (recordOutcome outcome at_).Only Eff.Storeless :=
  (only_recordOutcome outcome at_).mono fun _ => Eff.Storeless.of_quiet

theorem only_activationInhibition {check : Option (Proc (Option Inhibition))}
    (hcheck : ∀ p, check = some p → p.Only Eff.Storeless) :
    (activationInhibition check).Only Eff.Storeless := by
  refine Prog.Only.bind ?_ fun r => ?_
  · cases check with
    | none => trivial
    | some p =>
        refine Prog.Only.bind (Prog.Only.perform_iff.2 trivial) fun _ => ?_
        refine Prog.Only.bind (hcheck p rfl) fun _ => ?_
        exact Prog.Only.bind (Prog.Only.perform_iff.2 trivial) fun _ => trivial
  · cases r with
    | some inhibition => trivial
    | none =>
        refine Prog.Only.bind (Prog.Only.perform_iff.2 trivial) fun set => ?_
        cases set <;> trivial

theorem only_failed (attempts : Nat) (a : TriggerArgs) (at_ : Option DateTime) (x : Exc) :
    (failed attempts a at_ x).Only Eff.Storeless := by
  refine Prog.Only.bind (only_deenergize attempts) fun safe => ?_
  split
  · refine Prog.Only.bind (only_recordOutcome_storeless _ _) fun _ => ?_
    split <;> trivial
  · refine Prog.Only.bind (Prog.Only.perform_iff.2 trivial) fun _ => ?_
    refine Prog.Only.bind (only_recordOutcome_storeless _ _) fun _ => ?_
    split <;> trivial

theorem only_finish (owner : CallId) (attempts : Nat) (a : TriggerArgs) (at_ : DateTime) :
    (finish owner attempts a at_).Only Eff.Storeless := by
  have hend : (do
      if ← relay .shutdownIsSet then recordOutcome "shutdown_safe"
      else recordOutcome "activated" at_
      return ⟨true, "activated", a.idempotencyKey, at_, false⟩ :
        Proc RelayResult).Only Eff.Storeless := by
    refine Prog.Only.bind (Prog.Only.perform_iff.2 trivial) fun set => ?_
    split
    · exact Prog.Only.bind (only_recordOutcome_storeless _ _) fun _ => trivial
    · exact Prog.Only.bind (only_recordOutcome_storeless _ _) fun _ => trivial
  refine Prog.Only.bind (only_deenergize attempts) fun safe => ?_
  split
  · dsimp only
    split
    · exact Prog.Only.bind (Prog.Only.perform_iff.2 trivial) fun _ => hend
    · exact hend
  · refine Prog.Only.bind (Prog.Only.perform_iff.2 trivial) fun _ => ?_
    exact Prog.Only.bind (only_recordOutcome_storeless _ _) fun _ => trivial

section Trigger

variable {owner : CallId} {kind : RelayKind} {attempts : Nat} {a : TriggerArgs}

theorem only_energise
    (hcheck : ∀ p, a.preActivationInhibit = some p → p.Only Eff.Storeless) :
    (energise owner kind a).Only Eff.Storeless := by
  refine Prog.Only.bind ?_ fun r => ?_
  · cases kind <;>
    · refine Prog.Only.bind (only_activationInhibition hcheck) fun r => ?_
      cases r with
      | some inhibition => trivial
      | none => exact Prog.Only.bind (Prog.Only.perform_iff.2 trivial) fun _ => trivial
  · cases r with
    | some inhibition => exact Prog.Only.bind (only_recordOutcome_storeless _ _) fun _ => trivial
    | none => exact Prog.Only.bind (Prog.Only.perform_iff.2 trivial) fun _ => trivial

theorem only_pulse (hcheck : ∀ p, a.preActivationInhibit = some p → p.Only Eff.Storeless)
    (hcall : ∀ p, a.onActivation = some p → p.Only QuietOp) :
    (pulse owner kind attempts a).Only Eff.Storeless := by
  refine Prog.Only.bind (Prog.Only.attempt (only_withLock trivial trivial (only_energise hcheck)))
    fun r => ?_
  match r with
  | .error x => exact only_failed _ _ _ _
  | .ok (some refused) => trivial
  | .ok none =>
      refine Prog.Only.bind (Prog.Only.attempt (Prog.Only.perform_iff.2 trivial)) fun r => ?_
      cases r with
      | error x =>
          exact Prog.Only.bind (Prog.Only.perform_iff.2 trivial) fun _ => only_failed _ _ _ _
      | ok at_ =>
          refine Prog.Only.bind (Prog.Only.attempt
            ((only_hold hcall).mono fun _ => Eff.Storeless.of_quiet)) fun r => ?_
          cases r with
          | error x => exact only_failed _ _ _ _
          | ok u => exact only_finish _ _ _ _

/-- A pulse writes nothing, if its check and its callback do not. -/
theorem only_trigger (hcheck : ∀ p, a.preActivationInhibit = some p → p.Only Eff.Storeless)
    (hcall : ∀ p, a.onActivation = some p → p.Only QuietOp) :
    (trigger owner kind attempts a).Only Eff.Storeless := by
  refine Prog.Only.bind (only_withLock trivial trivial ?_) fun _ =>
    Prog.Only.bind (Prog.Only.perform_iff.2 trivial) fun _ => trivial
  refine Prog.Only.bind (only_activationInhibition hcheck) fun r => ?_
  cases r with
  | some inhibition => exact Prog.Only.bind (only_recordOutcome_storeless _ _) fun _ => trivial
  | none =>
      refine Prog.Only.bind (Prog.Only.perform_iff.2 trivial) fun latched => ?_
      split
      · exact Prog.Only.bind (only_recordOutcome_storeless _ _) fun _ => trivial
      · exact only_pulse hcheck hcall

end Trigger

end RelayController

/-! ## The coordinator -/

namespace ActuationCoordinator

variable {a : ActuateArgs} {key : String}

theorem only_asking_storeless {α : Type} (p : Asking α) : (asking p).Only Eff.Storeless :=
  (only_asking p).mono fun _ => Eff.Storeless.of_quiet

/-- What `actuate` has the relay do asks nothing of the store. -/
theorem only_pulse (owner : CallId) (cfg : Config) (a : ActuateArgs) (key : String) :
    (RelayController.trigger owner cfg.relayKind cfg.maxOffAttempts (triggerArgs a key)).Only
      Eff.Storeless := by
  refine RelayController.only_trigger ?_ ?_
  · intro p hp
    obtain ⟨check, -, rfl⟩ := Option.map_eq_some_iff.1 hp
    refine Prog.Only.bind (only_asking_storeless check) fun _ => ?_
    exact Prog.Only.bind (Prog.Only.perform_iff.2 trivial) fun _ => trivial
  · intro p hp
    simp only [triggerArgs] at hp
    split at hp
    · cases hp
      exact only_exceptException (Prog.Only.perform_iff.2 trivial) trivial
    · cases hp

theorem only_replay (a : ActuateArgs) (terminal : TerminalOutcome) :
    (replay a terminal).Only Eff.WritesNothing := by
  refine Prog.Only.bind ?_ fun _ => ?_
  · unfold reconcileOutbox
    split
    · exact Prog.Only.bind (Prog.Only.perform_iff.2 trivial) fun _ => trivial
    · trivial
  · cases a.commandAck with
    | some ack => exact Prog.Only.bind (Prog.Only.perform_iff.2 trivial) fun _ => trivial
    | none => trivial

variable (hkey : a.event.idempotencyKey = some key)
include hkey

theorem only_finalize (claim : ActuationClaim) (result : RelayResult)
    (inhibition : Option Inhibition) (decisionAt : Option DateTime) :
    (finalize a claim result inhibition decisionAt).Only (Eff.WritesUnder key) :=
  only_exceptException (Prog.Only.bind (Prog.Only.perform_iff.2 hkey) fun _ => trivial) trivial

theorem only_settle (claim : ActuationClaim) (result : RelayResult) :
    (settle a claim result).Only (Eff.WritesUnder key) := by
  have hconclude : ∀ inhibition,
      (conclude a claim result inhibition).Only (Eff.WritesUnder key) := by
    intro inhibition
    cases inhibition with
    | some i => exact Prog.Only.bind (Prog.Only.perform_iff.2 trivial) fun _ => only_finalize hkey ..
    | none => exact only_finalize hkey ..
  refine Prog.Only.bind (Prog.Only.perform_iff.2 trivial) fun inhibition => ?_
  dsimp only
  split
  · refine Prog.Only.bind (Prog.Only.perform_iff.2 trivial) fun _ => ?_
    exact Prog.Only.bind (Prog.Only.perform_iff.2 trivial) fun _ => hconclude _
  · exact hconclude _

theorem only_activate (owner : CallId) (cfg : Config) (claimTime : DateTime) (now : ℚ)
    (bootId : Option String) (claim : ActuationClaim) :
    (activate owner cfg a key claimTime now bootId claim).Only (Eff.WritesUnder key) := by
  refine Prog.Only.bind (Prog.Only.attempt (Prog.Only.perform_iff.2 hkey)) fun r => ?_
  cases r with
  | error x =>
      dsimp only
      split <;> trivial
  | ok u =>
      refine Prog.Only.bind (Prog.Only.perform_iff.2 trivial) fun _ => ?_
      exact Prog.Only.bind ((only_pulse owner cfg a key).mono fun _ h => h.writesNothing.under key)
        fun result => only_settle hkey claim result

theorem only_afterClaim (owner : CallId) (cfg : Config) (claimTime : DateTime) (now : ℚ)
    (bootId : Option String) (claim : ActuationClaim) :
    (afterClaim owner cfg a key claimTime now bootId claim).Only (Eff.WritesUnder key) := by
  have hactivate := only_activate hkey owner cfg claimTime now bootId claim
  unfold afterClaim
  split
  · exact Prog.Only.bind (Prog.Only.perform_iff.2 hkey) fun _ => trivial
  · refine Prog.Only.bind (Prog.Only.perform_iff.2 trivial) fun last => ?_
    cases last with
    | none => exact hactivate
    | some value =>
        dsimp only
        split
        · exact only_exceptException
            (Prog.Only.bind (Prog.Only.perform_iff.2 hkey) fun _ => trivial) trivial
        · exact hactivate
  · trivial

/-- `actuate` writes under the key of its event. -/
theorem only_actuate (owner : CallId) (cfg : Config) :
    (actuate owner cfg a).Only (Eff.WritesUnder key) := by
  unfold actuate
  rw [hkey]
  dsimp only
  split
  · trivial
  · refine only_withLock trivial trivial ?_
    refine Prog.Only.bind (Prog.Only.perform_iff.2 trivial) fun terminal => ?_
    cases terminal with
    | some terminal => exact (only_replay a terminal).mono fun _ h => h.under key
    | none =>
        refine Prog.Only.bind ?_ fun claimTime => ?_
        · cases a.event.decisionAt with
          | some at_ => trivial
          | none => exact Prog.Only.perform_iff.2 trivial
        · refine Prog.Only.bind (Prog.Only.attempt ?_) fun r => ?_
          · refine Prog.Only.bind (Prog.Only.perform_iff.2 trivial) fun now => ?_
            refine Prog.Only.bind (by simp) fun cutoff => ?_
            refine Prog.Only.bind (Prog.Only.perform_iff.2 trivial) fun bootId => ?_
            refine Prog.Only.bind (Prog.Only.perform_iff.2 ?_) fun _ => trivial
            rintro event ⟨⟩
            exact hkey
          · cases r with
            | error x =>
                dsimp only
                split <;> trivial
            | ok claimed => exact only_afterClaim hkey owner cfg claimTime _ _ _

end ActuationCoordinator

/-! ## The processor -/

theorem Eff.WritesNothing.of_noEvent {e : Eff} (h : NoEventOp e) : e.WritesNothing := by
  cases e with
  | store op => cases op <;> first | exact h.elim | trivial
  | _ => trivial

theorem under_of_noEvent {α : Type} {p : Proc α} (h : p.Only NoEventOp) (key : String) :
    p.Only (Eff.WritesUnder key) :=
  h.mono fun _ he => (Eff.WritesNothing.of_noEvent he).under key

namespace GateProcessor

variable {key : String}

theorem only_outboxPayload_under (cfg : Config) (paths : List String) (await : Bool)
    (key : String) : (outboxPayload cfg paths await).Only (Eff.WritesUnder key) :=
  (only_outboxPayload cfg paths await).mono fun _ h => (Eff.WritesNothing.of_quiet h).under key

theorem only_finish_under (cfg : Config) (result : ProcessingResult) (key : String) :
    (finishResult cfg result).Only (Eff.WritesUnder key) := under_of_noEvent (only_finishResult _ _) key

theorem only_record_under (cfg : Config) {event : GateEvent} (paths : List String)
    (hkey : event.idempotencyKey = some key) :
    (record cfg event paths).Only (Eff.WritesUnder key) :=
  Prog.Only.bind (only_outboxPayload_under _ _ _ _) fun _ => Prog.Only.perform_iff.2 hkey

/-- `record_skipped` reads its key and writes under it. -/
theorem recordSkipped_eq (cfg : Config) (a : SkipArgs) :
    ∃ rest : String → Proc ProcessingResult,
      recordSkipped cfg a =
        (if truthy a.idempotencyKey then pure (a.idempotencyKey.getD "") else eventKey a.paths) >>=
          rest ∧
      ∀ key, (rest key).Only (Eff.WritesUnder key) := by
  refine ⟨_, rfl, fun key => ?_⟩
  refine Prog.Only.bind (under_of_noEvent (only_eventExists key) key) fun found => ?_
  split
  · refine Prog.Only.bind (Prog.Only.perform_iff.2 trivial) fun eventId => ?_
    have hend : (do
        let reason ← takenReason key
        return { opened := false, reason, eventId } :
          Proc ProcessingResult).Only (Eff.WritesUnder key) :=
      Prog.Only.bind (under_of_noEvent (only_takenReason key) key) fun _ => trivial
    split
    · exact Prog.Only.bind (only_outboxPayload_under _ _ _ _) fun _ =>
        Prog.Only.bind (Prog.Only.perform_iff.2 trivial) fun _ => hend
    · exact hend
  · refine Prog.Only.bind ?_ fun receivedAt => ?_
    · cases a.receivedAt with
      | some at_ => trivial
      | none => exact Prog.Only.perform_iff.2 trivial
    · refine Prog.Only.bind (Prog.Only.perform_iff.2 trivial) fun decisionAt => ?_
      exact Prog.Only.bind (only_record_under cfg _ rfl) fun _ => only_finish_under _ _ _

theorem only_recordSkipped {cfg : Config} {a : SkipArgs} (ha : a.idempotencyKey = some key)
    (hkey : key ≠ "") : (recordSkipped cfg a).Only (Eff.WritesUnder key) := by
  obtain ⟨rest, heq, hrest⟩ := recordSkipped_eq cfg a
  rw [heq, ha, if_pos (by simpa [truthy] using hkey)]
  exact hrest key

theorem only_ocrLoop (cfg : Config) (started : ℚ) (authorised paths : List String) (st : OcrState) :
    (ocrLoop cfg started authorised paths st).Only QuietOp := by
  induction paths generalizing st with
  | nil => trivial
  | cons path rest ih =>
      refine Prog.Only.bind (only_env _) fun now => ?_
      split
      · trivial
      · refine Prog.Only.bind (only_env _) fun now => ?_
        split
        · trivial
        · refine Prog.Only.bind (Prog.Only.attempt (only_env _)) fun r => ?_
          match r with
          | .error x =>
              dsimp only
              split
              · exact ih _
              · trivial
          | .ok .busy => trivial
          | .ok .deadlineExceeded => trivial
          | .ok (.observed plate confidence) =>
              refine Prog.Only.bind (only_env _) fun now => ?_
              split
              · trivial
              · split
                · trivial
                · exact ih _

theorem only_open (owner : CallId) (cfg : Config) (key : String) (receivedAt decisionAt : DateTime)
    (deadline : ℚ) (decision : MatchDecision) (payload : Option Fields) :
    (open_ owner cfg key receivedAt decisionAt deadline decision payload).Only
      (Eff.WritesUnder key) := by
  refine Prog.Only.bind (Prog.Only.perform_iff.2 trivial) fun actuationAt => ?_
  split
  · exact Prog.Only.bind (Prog.Only.perform_iff.2 rfl) fun _ => only_finish_under _ _ _
  · refine Prog.Only.bind (only_withLock trivial trivial (only_actuate rfl owner cfg)) fun _ => ?_
    exact only_finish_under _ _ _

theorem only_conclude (owner : CallId) (cfg : Config) (paths : List String) (key : String)
    (receivedAt : DateTime) (deadline : ℚ) (st : OcrState) (decision : MatchDecision) :
    (conclude owner cfg paths key receivedAt deadline st decision).Only (Eff.WritesUnder key) := by
  refine Prog.Only.bind (Prog.Only.perform_iff.2 trivial) fun decisionAt => ?_
  split
  · exact Prog.Only.bind (only_record_under cfg _ rfl) fun _ => only_finish_under _ _ _
  · split
    · exact Prog.Only.bind (only_record_under cfg _ rfl) fun _ => only_finish_under _ _ _
    · refine Prog.Only.bind (only_outboxPayload_under _ _ _ _) fun payload => ?_
      split
      · exact only_open _ _ _ _ _ _ _ _
      · exact Prog.Only.bind (Prog.Only.perform_iff.2 rfl) fun _ => only_finish_under _ _ _

theorem only_decideBurst (owner : CallId) (cfg : Config) (a : ProcessArgs) (paths : List String)
    (hkey : key ≠ "") (started : ℚ) :
    (decideBurst owner cfg a paths key started).Only (Eff.WritesUnder key) := by
  have hquiet : ∀ {α : Type} {p : Proc α}, p.Only QuietOp → p.Only (Eff.WritesUnder key) :=
    fun h => h.mono fun _ he => (Eff.WritesNothing.of_quiet he).under key
  refine Prog.Only.bind ?_ fun receivedAt => ?_
  · cases a.receivedAt with
    | some at_ => trivial
    | none => exact Prog.Only.perform_iff.2 trivial
  · refine Prog.Only.bind (Prog.Only.perform_iff.2 trivial) fun now => ?_
    refine Prog.Only.bind (Prog.Only.perform_iff.2 trivial) fun clock => ?_
    split
    · exact only_recordSkipped rfl hkey
    · split
      · exact only_recordSkipped rfl hkey
      · refine Prog.Only.bind (Prog.Only.attempt (Prog.Only.perform_iff.2 trivial)) fun r => ?_
        cases r with
        | error x =>
            dsimp only
            split
            · exact only_recordSkipped rfl hkey
            · trivial
        | ok authorised =>
            refine Prog.Only.bind (hquiet (only_ocrLoop _ _ _ _ _)) fun st => ?_
            refine Prog.Only.bind ?_ fun st => ?_
            · split
              · trivial
              · refine Prog.Only.bind (Prog.Only.perform_iff.2 trivial) fun _ => ?_
                split <;> trivial
            · cases st.decision with
              | none => exact only_recordSkipped rfl hkey
              | some decision => exact only_conclude _ _ _ _ _ _ _ _

/-- `process` reads the digests of its paths and writes under the key that it makes
of its argument and of them. -/
theorem process_eq (owner : CallId) (cfg : Config) (a : ProcessArgs) :
    ∃ rest : ℚ → List (String × String) → Proc ProcessingResult,
      process owner cfg a =
        ((match a.decisionStartedAt with
          | some started => pure started
          | none => env .decisionClock : Proc ℚ) >>= fun started =>
            uniqueContentCandidates [] a.paths >>= rest started) ∧
      ∀ started candidates, keyOr a.idempotencyKey
          (eventKeyFromDigests (candidates.map Prod.snd)) ≠ "" →
        (rest started candidates).Only
          (Eff.WritesUnder (keyOr a.idempotencyKey
            (eventKeyFromDigests (candidates.map Prod.snd)))) := by
  refine ⟨_, rfl, fun started candidates hkey => ?_⟩
  generalize keyOr a.idempotencyKey (eventKeyFromDigests (candidates.map Prod.snd)) = key at hkey ⊢
  refine Prog.Only.bind (under_of_noEvent (only_eventExists key) key) fun found => ?_
  split
  · have hend : (do
        let reason ← takenReason key
        return { opened := false, reason } : Proc ProcessingResult).Only (Eff.WritesUnder key) :=
      Prog.Only.bind (under_of_noEvent (only_takenReason key) key) fun _ => trivial
    dsimp only
    split
    · refine Prog.Only.bind ?_ fun eventId => ?_
      · refine Prog.Only.bind (Prog.Only.perform_iff.2 trivial) fun terminal => ?_
        cases terminal with
        | some terminal => trivial
        | none => exact Prog.Only.perform_iff.2 trivial
      · cases eventId with
        | some eventId =>
            exact Prog.Only.bind (only_outboxPayload_under _ _ _ _) fun _ =>
              Prog.Only.bind (Prog.Only.perform_iff.2 trivial) fun _ => hend
        | none => exact hend
    · exact hend
  · exact only_decideBurst _ _ _ _ hkey _

/-- `process` writes under the key it is given. -/
theorem only_process (owner : CallId) (cfg : Config) {a : ProcessArgs}
    (ha : a.idempotencyKey = some key) (hkey : key ≠ "") :
    (process owner cfg a).Only (Eff.WritesUnder key) := by
  obtain ⟨rest, heq, hrest⟩ := process_eq owner cfg a
  have hor : ∀ digests, keyOr a.idempotencyKey (eventKeyFromDigests digests) = key := by
    intro digests
    rw [keyOr, ha, if_pos (by simpa [truthy] using hkey)]
    rfl
  rw [heq]
  refine Prog.Only.bind ?_ fun started => ?_
  · cases a.decisionStartedAt with
    | some at_ => trivial
    | none => exact Prog.Only.perform_iff.2 trivial
  · refine Prog.Only.bind (under_of_noEvent (only_uniqueContentCandidates _ _) key)
      fun candidates => ?_
    have h := hrest started candidates
    rw [hor] at h
    exact h hkey

end GateProcessor

end GateController

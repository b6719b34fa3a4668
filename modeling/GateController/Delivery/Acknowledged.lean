import GateController.Delivery.Fairness
import Mathlib.Data.List.Induction

/-!
# What a completed row records

The worker completes a row with the payload whose send returned.  It has prepared that
payload for that row, and no other row since.  So a row that becomes completed holds what
was acknowledged, in whichever of the two forms it was sent.  From then on it changes once
at most, when its trace is purged.

Rows are bound only while a worker is constructed.  The runs here are those of a worker at
work, with any calls of the other threads beside it.
-/

namespace GateController

open Data Effects LocalStore Delivery OutboxWorker

/-! ## Calls that bind nothing -/

/-- Whether a call binds rows. -/
def DeliveryOp.binds : DeliveryOp → Bool
  | .bindPendingOutboxController _ => true
  | .rebindRows _ _ => true
  | _ => false

/-- An operation that binds no row. -/
def Unbinding : DeliveryEff → Prop
  | .store op => op.binds = false
  | _ => True

/-- An operation that binds no row and has nothing to do with the release of evidence. -/
def Routine : DeliveryEff → Prop
  | .store op => op.binds = false
  | .outboxDigests => False
  | .claimDigests => False
  | .delete _ => False
  | _ => True

theorem Routine.unbinding (e : DeliveryEff) (h : Routine e) : Unbinding e := by
  cases e with
  | store op => exact h
  | _ => trivial

/-- No worker is constructed, and no other call binds a row. -/
def AtWork (_ : DeliveryWorld) : Choice DeliveryEnv DeliveryCall → Prop
  | .begin _ .construct => False
  | .begin _ (.submit _ op) => op.binds = false
  | _ => True

/-- The rules of the delivery, for calls that bind nothing. -/
def workWatch : Protocol DeliveryEff DeliveryEff.Ans Exc DeliveryCall DeliveryWatch :=
  deliveryWatch.restrict Unbinding

namespace OutboxWorker

theorem op_unbinding {e : DeliveryEff} (h : Unbinding e) : (op e).Only Unbinding :=
  Prog.Only.perform_iff.2 h

theorem op_routine {e : DeliveryEff} (h : Routine e) : (op e).Only Routine :=
  Prog.Only.perform_iff.2 h

theorem runRetention_routine (cfg : DeliveryConfig) (now : DateTime) :
    (runRetention cfg now).Only Routine := by
  refine Prog.Only.bind (op_routine trivial) fun last => ?_
  split
  · trivial
  · refine Prog.Only.bind (op_routine trivial) fun _ => Only.exceptException ?_ trivial
    refine Prog.Only.bind (Prog.Only.ofExcept_iff.2 trivial) fun cutoff => ?_
    exact Prog.Only.bind (op_routine rfl) fun _ => trivial

theorem sendItem_routine (payload : Fields) : (sendItem payload).Only Routine := by
  unfold sendItem
  split
  · exact op_routine trivial
  · next digest _ =>
    refine Prog.Only.bind ?_ fun evidence => op_routine trivial
    cases digest with
    | str digest => exact op_routine trivial
    | _ => trivial

theorem attemptItem_routine (itemId : Nat) : (attemptItem itemId).Only Routine := by
  refine Prog.Only.bind (op_routine trivial) fun attemptedAt => ?_
  refine Prog.Only.bind (op_routine rfl) fun prepared => ?_
  cases prepared with
  | none => trivial
  | some payload =>
      refine Prog.Only.bind (Prog.Only.ofExcept_iff.2 trivial) fun _ => ?_
      exact Prog.Only.bind (sendItem_routine payload) fun _ => trivial

theorem completeItem_routine (itemId : Nat) (payload : Fields) :
    (completeItem itemId payload).Only Routine :=
  Prog.Only.bind (op_routine trivial) fun _ => op_routine rfl

theorem retryItem_routine (itemId : Nat) :
    (exceptException (op (.store (.markOutboxRetry itemId))) (return ())).Only Routine :=
  Only.exceptException (op_routine rfl) trivial

theorem releaseEvidence_unbinding (payload : Fields) :
    (releaseEvidence payload).Only Unbinding := by
  unfold releaseEvidence
  split
  · refine Prog.Only.bind ?_ fun pending => ?_
    · refine Prog.Only.bind (op_unbinding trivial) fun _ => ?_
      exact Prog.Only.bind (op_unbinding trivial) fun _ => trivial
    · split
      · trivial
      · exact Only.exceptException (op_unbinding trivial) trivial
  · trivial

theorem acknowledge_unbinding (itemId : Nat) (payload : Fields) :
    (acknowledge itemId payload).Only Unbinding := by
  refine Prog.Only.bind ((completeItem_routine itemId payload).mono Routine.unbinding).attempt
    fun r => ?_
  cases r with
  | ok u => exact Prog.Only.bind (releaseEvidence_unbinding payload) fun _ => trivial
  | error x =>
      dsimp only
      split <;> trivial

theorem deliverItem_unbinding (itemId : Nat) : (deliverItem itemId).Only Unbinding := by
  refine Prog.Only.bind (op_unbinding trivial) fun _ => ?_
  refine Prog.Only.bind ((attemptItem_routine itemId).mono Routine.unbinding).attempt fun r => ?_
  rcases r with x | (_ | payload)
  · dsimp only
    split
    · exact Prog.Only.bind ((retryItem_routine itemId).mono Routine.unbinding) fun _ => trivial
    · trivial
  · trivial
  · exact acknowledge_unbinding itemId payload

theorem deliverAll_unbinding (items : List Nat) : (deliverAll items).Only Unbinding := by
  induction items with
  | nil => trivial
  | cons itemId rest ih =>
      refine Prog.Only.bind (deliverItem_unbinding itemId) fun _ => ?_
      exact Prog.Only.bind ih fun _ => trivial

theorem runOnce_unbinding (cfg : DeliveryConfig) : (runOnce cfg).Only Unbinding := by
  refine Prog.Only.bind (op_unbinding trivial) fun now => ?_
  refine Prog.Only.bind ((runRetention_routine cfg now).mono Routine.unbinding) fun _ => ?_
  refine Prog.Only.bind (op_unbinding trivial) fun afterId => ?_
  exact Prog.Only.bind (op_unbinding trivial) fun items => deliverAll_unbinding _

/-- What the worker and the threads around it do binds nothing. -/
theorem program_unbinding (cfg : DeliveryConfig) {w : DeliveryWorld} {c : CallId}
    {call : DeliveryCall} (hok : AtWork w (.begin c call)) :
    (program cfg call).Only Unbinding := by
  cases call with
  | construct => exact hok.elim
  | runOnce => exact Prog.Only.bind (runOnce_unbinding cfg) fun _ => trivial
  | submit digest op =>
      refine Prog.Only.bind ?_ fun _ => trivial
      refine Prog.Only.bind ?_ fun _ => Prog.Only.bind (op_unbinding hok) fun _ => trivial
      cases digest with
      | none => trivial
      | some digest => exact op_unbinding trivial

end OutboxWorker

/-! ## What was sent for a row -/

/-- The call has prepared the payload for the row, and attempted no row since. -/
def PreparedFor (c : CallId) (id : Nat) (p : Fields) (log : DeliveryLog) : Prop :=
  ∃ since attemptedAt earlier,
    log = since ++
      .did c (.store (.prepareOutboxAttempt id attemptedAt)) (.ok (some p)) :: earlier ∧
    ∀ ev ∈ since, ∀ i, attempted ev ≠ some (c, i)

/-- The send of what the call prepared for the row has returned, and the call has attempted
no row since. -/
def SentFor (c : CallId) (id : Nat) (p : Fields) (log : DeliveryLog) : Prop :=
  ∃ since evidence earlier,
    log = since ++ .did c (.send p evidence) (.ok ()) :: earlier ∧ PreparedFor c id p earlier ∧
    ∀ ev ∈ since, ∀ i, attempted ev ≠ some (c, i)

section Log

variable {c d : CallId} {id : Nat} {p : Fields} {log : DeliveryLog} {s : DeliveryWatch}
  {ev : Event DeliveryEff DeliveryEff.Ans Exc DeliveryCall DeliveryResult}

theorem attempted_call {e : DeliveryEff} {r : Except Exc e.Ans} {i : Nat}
    (h : attempted (.did d e r : Event DeliveryEff DeliveryEff.Ans Exc DeliveryCall DeliveryResult) =
      some (c, i)) : d = c := by
  unfold attempted at h
  split at h
  next heq =>
    cases heq
    exact congrArg Prod.fst (Option.some.inj h)
  next => cases h

theorem PreparedFor.cons (h : PreparedFor c id p log) (hev : ∀ i, attempted ev ≠ some (c, i)) :
    PreparedFor c id p (ev :: log) := by
  obtain ⟨since, attemptedAt, earlier, rfl, hsince⟩ := h
  refine ⟨ev :: since, attemptedAt, earlier, rfl, fun ev' hmem => ?_⟩
  rcases List.mem_cons.1 hmem with rfl | hmem
  · exact hev
  · exact hsince ev' hmem

theorem SentFor.cons (h : SentFor c id p log) (hev : ∀ i, attempted ev ≠ some (c, i)) :
    SentFor c id p (ev :: log) := by
  obtain ⟨since, evidence, earlier, rfl, hprepared, hsince⟩ := h
  refine ⟨ev :: since, evidence, earlier, rfl, hprepared, fun ev' hmem => ?_⟩
  rcases List.mem_cons.1 hmem with rfl | hmem
  · exact hev
  · exact hsince ev' hmem

/-- What the watch of a call says is what its log says. -/
structure Told (c : CallId) (s : DeliveryWatch) (log : DeliveryLog) : Prop where
  prepared : ∀ id p, s.prepared = some (id, p) → PreparedFor c id p log
  sent : ∀ id p, s.sent = some (id, p) → SentFor c id p log

theorem Told.cons (h : Told c s log) (hev : ∀ i, attempted ev ≠ some (c, i)) :
    Told c s (ev :: log) where
  prepared id p hp := (h.prepared id p hp).cons hev
  sent id p hp := (h.sent id p hp).cons hev

/-- An operation of the call itself. -/
theorem Told.did {e : DeliveryEff} {r : Except Exc e.Ans} (h : Told c s log)
    (hallow : workWatch.allow s e) : Told c (s.next e r) (.did c e r :: log) := by
  have hsame : (∀ i, attempted (.did c e r :
        Event DeliveryEff DeliveryEff.Ans Exc DeliveryCall DeliveryResult) ≠ some (c, i)) →
      (s.next e r).prepared = s.prepared → (s.next e r).sent = s.sent →
      Told c (s.next e r) (.did c e r :: log) := by
    intro hev hprepared hsent
    have hcons := h.cons hev
    exact ⟨fun id p hp => hcons.prepared id p (hprepared ▸ hp),
      fun id p hp => hcons.sent id p (hsent ▸ hp)⟩
  cases e with
  | store op =>
      cases op with
      | prepareOutboxAttempt itemId attemptedAt =>
          rcases r with x | (_ | payload)
          · exact ⟨fun _ _ hp => (by cases hp), fun _ _ hp => by cases hp⟩
          · exact ⟨fun _ _ hp => (by cases hp), fun _ _ hp => by cases hp⟩
          · refine ⟨fun id p hp => ?_, fun _ _ hp => by cases hp⟩
            cases hp
            exact ⟨[], attemptedAt, log, rfl, fun ev hmem => by cases hmem⟩
      | _ => cases r <;> exact hsame (fun i hi => by cases hi) rfl rfl
  | setLastItemId itemId =>
      cases r with
      | ok u => exact ⟨fun _ _ hp => (by cases hp), fun _ _ hp => by cases hp⟩
      | error x => exact hsame (fun i hi => by cases hi) rfl rfl
  | send payload evidence =>
      have hev : ∀ i, attempted (.did c (.send payload evidence) r :
          Event DeliveryEff DeliveryEff.Ans Exc DeliveryCall DeliveryResult) ≠ some (c, i) :=
        fun i hi => by cases hi
      cases r with
      | error x => exact hsame hev rfl rfl
      | ok u =>
          refine ⟨(h.cons hev).prepared, fun id p hp => ?_⟩
          obtain ⟨itemId, hitem⟩ := hallow.1
          cases hp.symm.trans hitem
          exact ⟨[], evidence, log, rfl, h.prepared _ _ hitem, fun ev hmem => by cases hmem⟩
  | _ => cases r <;> exact hsame (fun i hi => by cases hi) rfl rfl

/-- The watch of every call tells what the log says. -/
theorem told {Q : CallId → DeliveryWatch → Except Exc DeliveryResult → Prop}
    (h : Lawful (fun _ => workWatch) Q log) (hghost : ghost (fun _ => workWatch) c log = some s) :
    Told c s log := by
  induction log generalizing s with
  | nil => cases hghost
  | cons ev log ih =>
      cases ev with
      | began d call =>
          by_cases hd : d = c
          · subst hd
            cases hghost.symm.trans ghost_began_self
            exact ⟨fun _ _ hp => (by cases hp), fun _ _ hp => by cases hp⟩
          · exact (ih h.2 ((ghost_began_ne hd).symm.trans hghost)).cons fun i hi => by cases hi
      | did d e r =>
          obtain ⟨-, t, ht, hallow, -⟩ := h.1
          by_cases hd : d = c
          · subst hd
            cases hghost.symm.trans (ghost_did_self ht)
            exact (ih h.2 ht).did hallow
          · refine (ih h.2 ((ghost_did_ne hd).symm.trans hghost)).cons fun i hi => hd ?_
            exact attempted_call hi
      | ended d r => exact (ih h.2 hghost).cons fun i hi => by cases hi
      | crashed q => exact (ih h.2 hghost).cons fun i hi => by cases hi

end Log

/-! ## What a choice makes of the rows -/

/-- The row with an id. -/
def outboxRowOf (w : DeliveryWorld) (id : Nat) : Option OutboxRow :=
  w.state.tables.db.outbox.find? id

/-- A row that becomes completed holds what was sent for it, and a completed row changes only
when its trace is purged. -/
structure TrueToTheWire (w w' : DeliveryWorld) : Prop where
  becomes : ∀ id row', outboxRowOf w' id = some row' → row'.completedAt ≠ none →
    (∀ row, outboxRowOf w id = some row → row.completedAt = none) →
    ∃ c completedAt p r row,
      w'.log = .did c (.store (.completeOutboxItem id completedAt (some p))) r :: w.log ∧
      SentFor c id p w.log ∧ outboxRowOf w id = some row ∧
      row' = { withPayload p row with completedAt := some (timestamp completedAt) }
  stays : ∀ id row, outboxRowOf w id = some row → row.completedAt ≠ none →
    outboxRowOf w' id = some row ∨
    ∃ c cutoff r payload,
      w'.log = .did c (.store (.purgeDeliveredTelemetry cutoff)) r :: w.log ∧
      row.payload = .json (.obj payload) ∧
      outboxRowOf w' id = some (withPayload (untraced payload) row)

/-- What a call of the store makes of a row, if it binds nothing. -/
inductive Becomes (op : DeliveryOp) (id : Nat) : Option OutboxRow → OutboxRow → Prop where
  | new {row' : OutboxRow} (hpending : row'.completedAt = none) : Becomes op id none row'
  | pending {row row' : OutboxRow} (hrow : row.completedAt = none)
      (hpending : row'.completedAt = none) : Becomes op id (some row) row'
  | completed {row : OutboxRow} {payload : Fields} {completedAt : DateTime}
      {prepared : Option Fields} (hop : op = .completeOutboxItem id completedAt prepared)
      (hrow : row.completedAt = none) (hpayload : prepared = some payload ∨ prepared = none) :
      Becomes op id (some row)
        { withPayload payload row with completedAt := some (timestamp completedAt) }
  | settled {row : OutboxRow} (hrow : row.completedAt ≠ none) : Becomes op id (some row) row
  | purged {row : OutboxRow} {payload : Fields} {cutoff : DateTime}
      (hop : op = .purgeDeliveredTelemetry cutoff) (hrow : row.completedAt ≠ none)
      (hpayload : row.payload = .json (.obj payload)) :
      Becomes op id (some row) (withPayload (untraced payload) row)

theorem Becomes.kept (op : DeliveryOp) (id : Nat) (row : OutboxRow) :
    Becomes op id (some row) row := by
  cases hdone : row.completedAt with
  | none => exact .pending hdone hdone
  | some at_ => exact .settled (by simp [hdone])

section Rows

variable {w : Weather} {t : Tables} {op : DeliveryOp} {id : Nat} {row row' : OutboxRow}

theorem Delivery.RowChange.becomes {trace trace' : Option JsonText}
    (h : RowChange op id trace trace' row row') (hop : op.binds = false) :
    Becomes op id (some row) row' := by
  cases h with
  | kept => exact .kept op id row
  | traced _ hpending => exact .pending hpending hpending
  | untraced hpending => exact .pending hpending hpending
  | completed hop hpending hpayload => exact .completed hop hpending hpayload
  | settled hdone => exact .settled hdone
  | purged hop hdone hpayload => exact .purged hop hdone hpayload
  | bound hselected =>
      cases op with
      | rebindRows controllerId rows => cases hop
      | bindPendingOutboxController controllerId => cases hop
      | _ => exact hselected.elim

/-- Every call of the store that binds nothing. -/
theorem DeliveryOp.run_becomes (hop : op.binds = false)
    (hrow : (op.run w t).2.db.outbox.find? id = some row') :
    Becomes op id (t.db.outbox.find? id) row' := by
  cases hold : t.db.outbox.find? id with
  | some row =>
      cases hstore : op.isStore with
      | false =>
          obtain ⟨row₁, hrow₁, hchange⟩ := (DeliveryOp.run_evolves (w := w) hstore).row id row hold
          cases hrow.symm.trans hrow₁
          exact hchange.becomes hop
      | true =>
          cases op with
          | store op other =>
              obtain ⟨hstep, -⟩ := DeliveryOp.run_store (w := w) (t := t)
              rcases hstep.row id row hold with hsame | ⟨hpending, -, hready⟩
              · cases hrow.symm.trans hsame
                exact .kept _ id _
              · cases hrow.symm.trans hready
                exact .pending hpending hpending
          | _ => cases hstore
  | none =>
      cases hstore : op.isStore with
      | false =>
          have habsent := (DeliveryOp.run_evolves (w := w) hstore).absent id hold
          cases hrow.symm.trans habsent
      | true =>
          cases op with
          | store op other =>
              obtain ⟨hstep, -⟩ := DeliveryOp.run_store (w := w) (t := t)
              obtain ⟨payload, hnew⟩ := hstep.new id row' hold hrow
              exact .new hnew.pending
          | _ => cases hstore

/-- No call takes a row away. -/
theorem DeliveryOp.run_keeps (hrow : t.db.outbox.find? id = some row) :
    ∃ row', (op.run w t).2.db.outbox.find? id = some row' :=
  (DeliveryOp.run_row hrow).imp fun _ h => h.1

end Rows

/-! ## Runs -/

section Runs

variable {cfg : DeliveryConfig} {w : DeliveryWorld}

/-- What a call returns is not watched here. -/
def AnyEnd (_ : CallId) (_ : DeliveryWatch) (_ : Except Exc DeliveryResult) : Prop := True

/-- The calls of a run at work keep to the rules. -/
theorem work_sound (cfg : DeliveryConfig) :
    Invariant (delivery cfg) (fun _ => workWatch) AnyEnd AtWork fun _ _ => True where
  obeys w c call s' _ hok haccept :=
    ((program_obeys cfg haccept).restrict (program_unbinding cfg hok)).mono fun _ _ _ => trivial
  began _ _ _ _ _ _ _ _ _ := trivial
  did w c env e k s r s' _ _ _ _ _ _ _ hexec := by
    obtain ⟨rfl, rfl⟩ : r = (exec env w.state e).1 ∧ s' = (exec env w.state e).2 := by
      rw [Option.some.inj hexec]
      exact ⟨rfl, rfl⟩
    exact ⟨exec_expect, trivial⟩
  ended _ _ _ _ _ _ _ _ _ := trivial
  crashed _ _ _ _ _ _ := trivial

/-- A call begins with the tables as they are. -/
theorem accept_tables {st st' : DeliveryState} {call : DeliveryCall}
    (h : accept st call = some st') : st'.tables = st.tables := by
  cases call with
  | submit digest op =>
      simp only [accept] at h
      split at h <;> cases h
      rfl
  | _ =>
      cases h
      rfl

/-- A choice leaves the tables alone, or it is a call of the store. -/
theorem tables_of_step (cfg : DeliveryConfig) (w : DeliveryWorld) (ch : Choice DeliveryEnv DeliveryCall) :
    ((delivery cfg).step w ch).state.tables = w.state.tables ∨
    ∃ c env op k, ch = .step c env ∧ w.running c = some (.call (.store op) k) ∧
      ((delivery cfg).step w ch).state.tables = (op.run env.weather w.state.tables).2 ∧
      ((delivery cfg).step w ch).log =
        .did c (.store op) (op.run env.weather w.state.tables).1 :: w.log := by
  cases ch with
  | begin c call =>
      refine .inl ?_
      simp only [Machine.step]
      split
      · rfl
      · split
        · rfl
        · next st hst => exact accept_tables hst
  | crash p env => exact .inl rfl
  | step c env =>
      cases hrun : w.running c with
      | none => exact .inl (by simp only [Machine.step, hrun])
      | some p =>
          cases p with
          | ret a => exact .inl (by simp only [Machine.step, hrun, Machine.advance])
          | raise x => exact .inl (by simp only [Machine.step, hrun, Machine.advance])
          | call e k =>
              have hstep : (delivery cfg).step w (.step c env) =
                  ⟨(exec env w.state e).2,
                    setRunning w.running c (some (k (exec env w.state e).1)),
                    .did c e (exec env w.state e).1 :: w.log⟩ := by
                simp only [Machine.step, hrun, Machine.advance, delivery]
              rw [hstep]
              rcases exec_tables env w.state e with ⟨op, rfl, htables⟩ | htables
              · exact .inr ⟨c, env, op, k, rfl, hrun, htables, rfl⟩
              · exact .inl htables

/-- One choice of a run at work. -/
theorem trueToTheWire_step (hs : Sound (fun _ => workWatch) AnyEnd w)
    (ch : Choice DeliveryEnv DeliveryCall) : TrueToTheWire w ((delivery cfg).step w ch) := by
  rcases tables_of_step cfg w ch with hsame | ⟨c, env, op, k, rfl, hrun, htables, hlog⟩
  · have hrows : ∀ id, outboxRowOf ((delivery cfg).step w ch) id = outboxRowOf w id := fun id => by
      rw [outboxRowOf, hsame, outboxRowOf]
    refine ⟨fun id row' hrow' hdone hpending => ?_, fun id row hrow _ => .inl ?_⟩
    · rw [hrows] at hrow'
      exact absurd (hpending row' hrow') hdone
    · rw [hrows, hrow]
  · obtain ⟨s, hghost, hallow, -⟩ := hs.obeys c _ hrun
    have htold := told hs.lawful hghost
    have hbecomes : ∀ {id row'}, outboxRowOf ((delivery cfg).step w (.step c env)) id = some row' →
        Becomes op id (outboxRowOf w id) row' := by
      intro id row' hrow'
      rw [outboxRowOf, htables] at hrow'
      exact DeliveryOp.run_becomes hallow.2 hrow'
    refine ⟨fun id row' hrow' hdone hpending => ?_, fun id row hrow hdone => ?_⟩
    · have h := hbecomes hrow'
      generalize hrow : outboxRowOf w id = old at h hpending
      cases h with
      | new hnew => exact absurd hnew hdone
      | pending _ hnew => exact absurd hnew hdone
      | settled hsettled => exact absurd (hpending _ rfl) hsettled
      | purged _ hsettled => exact absurd (hpending _ rfl) hsettled
      | @completed row payload completedAt prepared hop hrow' hpayload =>
          subst hop
          obtain ⟨p, rfl, hsent⟩ := hallow.1
          rcases hpayload with heq | heq
          · cases heq
            exact ⟨c, completedAt, _, _, row, hlog, htold.sent _ _ hsent, rfl, rfl⟩
          · cases heq
    · obtain ⟨row', hrow'⟩ : ∃ row', outboxRowOf ((delivery cfg).step w (.step c env)) id =
          some row' := by
        rw [outboxRowOf, htables]
        exact DeliveryOp.run_keeps hrow
      have h := hbecomes hrow'
      rw [hrow] at h
      cases h with
      | pending hpending => exact absurd hpending hdone
      | completed _ hpending => exact absurd hpending hdone
      | settled => exact .inl hrow'
      | @purged _ payload cutoff hop _ hpayload =>
          subst hop
          exact .inr ⟨c, cutoff, _, payload, hlog, hpayload, hrow'⟩

/-- The worker completed the row with what it had sent for it. -/
def Acknowledged (c : CallId) (id : Nat) (completedAt : DateTime) (p : Fields)
    (log : DeliveryLog) : Prop :=
  ∃ since r earlier,
    log = since ++ .did c (.store (.completeOutboxItem id completedAt (some p))) r :: earlier ∧
    SentFor c id p earlier

theorem Acknowledged.mono {c : CallId} {id : Nat} {completedAt : DateTime} {p : Fields}
    {log log' : DeliveryLog} (h : Acknowledged c id completedAt p log) (hlog : log <:+ log') :
    Acknowledged c id completedAt p log' := by
  obtain ⟨since, r, earlier, rfl, hsent⟩ := h
  obtain ⟨later, rfl⟩ := hlog
  exact ⟨later ++ since, r, earlier, (List.append_assoc _ _ _).symm, hsent⟩

/-- Every row that was completed since the start holds what was acknowledged, with or without
its trace. -/
def AsAcknowledged (st : DeliveryState) (w : DeliveryWorld) : Prop :=
  ∀ id row, outboxRowOf w id = some row → row.completedAt ≠ none →
    (∃ start, st.tables.db.outbox.find? id = some start ∧ start.completedAt ≠ none) ∨
    ∃ c completedAt p, Acknowledged c id completedAt p w.log ∧
      row.completedAt = some (timestamp completedAt) ∧
      (row.payload = .json (.obj p) ∨ row.payload = .json (.obj (untraced p)))

theorem untraced_untraced (p : Fields) : untraced (untraced p) = untraced p := by
  unfold untraced
  rw [Fields.erase_set_ne (by decide), Fields.erase_erase_self, Fields.set_set_self]

theorem AsAcknowledged.step {st : DeliveryState} {w' : DeliveryWorld} (h : AsAcknowledged st w)
    (htrue : TrueToTheWire w w') (hlog : w.log <:+ w'.log) : AsAcknowledged st w' := by
  intro id row' hrow' hdone'
  rcases Classical.em (∃ row, outboxRowOf w id = some row ∧ row.completedAt ≠ none) with
    ⟨row, hrow, hdone⟩ | hpending
  · -- It was completed before, so at most its trace is gone.
    rcases h id row hrow hdone with hstart | ⟨c, completedAt, p, hack, hat, hpayload⟩
    · exact .inl hstart
    · refine .inr ⟨c, completedAt, p, hack.mono hlog, ?_⟩
      rcases htrue.stays id row hrow hdone with hsame | ⟨_, _, _, payload, _, htext, hpurged⟩
      · cases hrow'.symm.trans hsame
        exact ⟨hat, hpayload⟩
      · cases hrow'.symm.trans hpurged
        refine ⟨hat, .inr ?_⟩
        rcases hpayload with heq | heq
        · cases htext.symm.trans heq
          rfl
        · cases htext.symm.trans heq
          exact congrArg (fun p => JsonText.json (.obj p)) (untraced_untraced p)
  · obtain ⟨c, completedAt, p, r, row, hlog', hsent, -, rfl⟩ :=
      htrue.becomes id row' hrow' hdone' fun row hrow => by
        by_contra hdone
        exact hpending ⟨row, hrow, hdone⟩
    exact .inr ⟨c, completedAt, p, ⟨[], r, w.log, hlog', hsent⟩, rfl, .inl rfl⟩

/-- Along any run of passes of the worker and calls of other threads, crashes included, a row
that becomes completed holds exactly what was handed to a send that returned, and a completed
row changes only when its trace is purged. -/
theorem completed_as_acknowledged (cfg : DeliveryConfig) (st : DeliveryState)
    (l : List (Choice DeliveryEnv DeliveryCall))
    (hok : (delivery cfg).Admits AtWork (World.init st) l) :
    (∀ before ch after, l = before ++ ch :: after →
      TrueToTheWire ((delivery cfg).run (World.init st) before)
        ((delivery cfg).step ((delivery cfg).run (World.init st) before) ch)) ∧
    AsAcknowledged st ((delivery cfg).run (World.init st) l) := by
  have hsteps : ∀ before ch after, l = before ++ ch :: after →
      TrueToTheWire ((delivery cfg).run (World.init st) before)
        ((delivery cfg).step ((delivery cfg).run (World.init st) before) ch) := by
    rintro before ch after rfl
    have hs := ((work_sound cfg).run (Sound.init _ _ st) trivial (Machine.admits_append.1 hok).1).1
    exact trueToTheWire_step hs ch
  refine ⟨hsteps, ?_⟩
  have hprefix : ∀ before after, l = before ++ after →
      AsAcknowledged st ((delivery cfg).run (World.init st) before) := by
    intro before
    induction before using List.reverseRecOn with
    | nil => exact fun _ _ id row hrow hdone => .inl ⟨row, hrow, hdone⟩
    | append_singleton before ch ih =>
        intro after hl
        rw [List.append_assoc, List.singleton_append] at hl
        rw [Machine.run_append]
        exact (ih _ hl).step (hsteps before ch after hl) (Machine.log_suffix_step _ ch)
  exact hprefix l [] (List.append_nil l).symm

end Runs

/-! ### A cloud that answers -/

namespace Reached

/-- `AtWork`, computed. -/
def atWork : Choice DeliveryEnv DeliveryCall → Bool
  | .begin _ .construct => false
  | .begin _ (.submit _ op) => !op.binds
  | _ => true

theorem atWork_of_check {ch : Choice DeliveryEnv DeliveryCall} (h : atWork ch = true)
    (w : DeliveryWorld) : AtWork w ch := by
  cases ch with
  | begin c call =>
      cases call with
      | construct => cases h
      | runOnce => trivial
      | submit digest op => simpa [atWork, AtWork] using h
  | _ => trivial

/-- Every send succeeds. -/
def env : DeliveryEnv where
  clock := .ok datetimeMin
  weather := { now := datetimeMin }

/-- One pass over the two rows, between two calls for the second of them. -/
def pass : List (Choice DeliveryEnv DeliveryCall) :=
  [.begin ⟨0, 1⟩ (.submit none (.store (.releaseOutboxWithoutTelemetry 2) rfl)), .step ⟨0, 1⟩ env,
    .begin ⟨0, 0⟩ .runOnce] ++ List.replicate 20 (.step ⟨0, 0⟩ env) ++
  [.begin ⟨0, 2⟩ (.submit none (.store (.ensureOutbox 2 (some [])) rfl)), .step ⟨0, 2⟩ env]

/-- Both rows end up completed. -/
theorem completed_as_acknowledged_both :
    ([1, 2].all fun id => (outboxRowOf ((delivery {}).run (World.init Unreachable.start) pass)
      id).any completed) = true ∧
    AsAcknowledged Unreachable.start ((delivery {}).run (World.init Unreachable.start) pass) :=
  ⟨by decide +kernel,
    (completed_as_acknowledged {} Unreachable.start pass (Machine.admits_of_forall
      (fun ch hmem => atWork_of_check (List.all_eq_true.1 (by decide) ch hmem)) _)).2⟩

end Reached

end GateController

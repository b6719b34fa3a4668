import GateController.Delivery.Operations
import GateController.Processing.Debts
import GateController.Runtime.Base

/-!
# No row is left waiting

While the processor makes one call after the other, a row that waits is owed for by
the call that is under way.  A crash leaves rows behind for which no call owes any
more, and the recovery releases them.
-/

namespace GateController

open Data Effects Proc LocalStore ActuationCoordinator GateProcessor
open Delivery (sendable pending)

/-! ## Calls -/

/-- The calls that the others wait for, or that nobody waits for. -/
def Call.background : Call → Bool
  | .start | .report _ => true
  | _ => false

/-- The calls of the processor. -/
def Call.processes : Call → Bool
  | .process _ | .recordSkipped _ => true
  | _ => false

theorem Call.foreground_of_processes {call : Call} (h : call.processes = true) :
    call.foreground = true := by
  cases call <;> first | rfl | cases h

theorem Call.foreground_of_background {call : Call} (h : call.background = true) :
    call.foreground = false := by
  cases call <;> first | rfl | cases h

/-- What is known of a call at its end. -/
structure Settles (s : Debt) (r : Except Exc Result) : Prop where
  owes : s.owes = none
  processes : ∀ result, r = .ok (.processing result) → s.call.processes = true

/-- No call owes anything at its end. -/
theorem Call.program_obeys_debts (owner : CallId) (cfg : Config) {call : Call}
    (h : call.background = true ∨ call.foreground = true) :
    Obeys debts Settles { call } (call.program owner cfg) := by
  have hreturn : ∀ {α : Type} {p : Proc α} {f : α → Result},
      (∀ a result, f a = .processing result → call.processes = true) →
      Obeys debts (fun s _ => s = { call }) { call } p →
        Obeys debts Settles { call } (do
          let a ← p
          return f a) := by
    intro α p f hf hp
    refine hp.bind ?_ ?_
    · rintro s a rfl
      exact ⟨rfl, fun result heq => hf a result (Except.ok.inj heq)⟩
    · rintro s x rfl
      exact ⟨rfl, nofun⟩
  have hidle : ∀ {α : Type} {p : Proc α}, p.Only Eff.Idle →
      Obeys debts (fun s _ => s = { call }) { call } p := fun hp => Debt.obeys_idle hp
  cases call with
  | start =>
      refine hreturn nofun (hidle ?_)
      unfold RelayController.construct
      split
      · trivial
      · have hstoreless : ∀ {α : Type} {p : Proc α}, p.Only Eff.Storeless → p.Only Eff.Idle :=
          fun hp => hp.mono fun _ h => h.idle
        refine Prog.Only.bind (hstoreless (RelayController.only_deenergize _)) fun safe => ?_
        refine Prog.Only.bind (Prog.Only.perform_iff.2 trivial) fun _ => ?_
        refine Prog.Only.bind (hstoreless (RelayController.only_recordOutcome_storeless _ _))
          fun _ => ?_
        exact Prog.Only.perform_iff.2 trivial
  | report owner =>
      exact hreturn nofun (hidle ((RelayController.only_notify _).mono
        fun _ h => (Eff.Storeless.of_quiet h).idle))
  | process a => exact hreturn (fun _ _ _ => rfl) (Debt.process_obeys rfl owner a)
  | recordSkipped a => exact hreturn (fun _ _ _ => rfl) (Debt.recordSkipped_obeys rfl cfg a)
  | recoverInterruptedActuations => exact hreturn nofun (hidle (Prog.Only.perform_iff.2 rfl))
  | _ => rcases h with h | h <;> cases h

/-! ## Runs -/

/-- Whether the store was recovered since the last crash. -/
def recovered : Log → Bool
  | [] => true
  | .crashed _ :: _ => false
  | .did _ (.store .recoverInterruptedActuations) (.ok _) :: _ => true
  | _ :: log => recovered log

/-- A call of the processor or of the recovery is under way. -/
def Busy (c : CallId) (s : Debt) (log : Log) : Prop :=
  Live c log ∧ ghost (fun _ => debts) c log = some s ∧ s.call.foreground = true

/-- The run makes one call of the processor after the other and begins with a recovery
after a crash.  What raises is an `Exception`, and the release of a row does not fail. -/
def Sequential (w : GateWorld) : Choice Env Call → Prop
  | .begin _ call => call.background = true ∨ call.foreground = true ∧
      (∀ c s, ¬ Busy c s w.log) ∧ (recovered w.log = true ∨ call.processes = false)
  | .step c env => ∀ e k r s', w.running c = some (.call e k) →
      e.exec c env w.state = some (r, s') → e.Mild r
  | .crash p _ => ∀ c, Live c w.log → c.proc = p

/-- Who owes for the rows that wait. -/
structure Owed (st : State) (log : Log) : Prop where
  settled : st.db.Settled
  one : ∀ c s d s', Busy c s log → Busy d s' log → c = d
  sure : ∀ c s, Busy c s log → s.call.processes = true → recovered log = true
  waits : recovered log = true → ∀ e, st.db.Waits e → ∃ c s, Busy c s log ∧ s.owes = some e
  clean : ∀ c n earlier, log = .did c (.store .recoverInterruptedActuations) (.ok n) :: earlier →
    ∀ e, ¬ st.db.Waits e
  quiet : ∀ c result earlier, log = .ended c (.ok (.processing result)) :: earlier →
    ∀ e, ¬ st.db.Waits e

section Steps

variable {st st' : State} {log : Log} {c : CallId} {s : Debt} {op : StoreOp} {now : DateTime}
  {fault : Option Exc} {db db' : Db} {e : Nat}

/-- A row that was released or given its trace does not wait. -/
theorem StoreOp.run_frees {answer : op.Ans} {id : Nat}
    (h : op.run now fault db = (.ok answer, db')) (hfrees : op.frees = some id)
    (hw : db'.Waits e) : e ≠ id := by
  cases fault with
  | some x => cases h
  | none =>
      replace h : op.txn now db = (.ok answer, db') := h
      cases op with
      | releaseOutboxWithoutTelemetry id =>
          cases hfrees
          exact (waits_releaseOutboxWithoutTelemetry h hw).2
      | attachEventTelemetry id telemetry =>
          cases hfrees
          exact (waits_attachEventTelemetry h hw).2
      | _ => cases hfrees

/-- No row waits after a recovery. -/
theorem StoreOp.run_recovered {n : Nat}
    (h : StoreOp.recoverInterruptedActuations.run now fault db = (.ok n, db')) : ¬ db'.Waits e := by
  cases fault with
  | some x => cases h
  | none => exact waits_recoverInterruptedActuations h

/-- A call owes on while the row waits. -/
theorem Debt.next_owes {r : Except Exc op.Ans} (hallow : s.allow (.store op))
    (h : op.run now fault db = (r, db')) (hw : db'.Waits e) (howes : s.owes = some e) :
    (s.next (.store op) r).owes = some e := by
  cases r with
  | error x => exact howes
  | ok answer =>
      simp only [Debt.next, Debt.answered]
      cases hq : op.queues answer with
      | some id =>
          have hnone := (hallow ⟨answer, by rw [hq]; rfl⟩).1
          rw [howes] at hnone
          cases hnone
      | none =>
          dsimp only
          split
          · next hfrees =>
            exact absurd rfl (StoreOp.run_frees h (hfrees.2.trans howes) hw)
          · exact howes

theorem Debt.next_other {e : Eff} {r : Except Exc e.Ans} (h : ∀ op, e ≠ .store op) :
    s.next e r = s := by
  cases e with
  | store op => exact absurd rfl (h op)
  | _ => cases r <;> rfl

theorem Debt.next_queued {answer : op.Ans} (hq : op.queues answer = some e) :
    (s.next (.store op) (.ok answer)).owes = some e := by
  simp only [Debt.next, Debt.answered, hq]

theorem Debt.next_call (s : Debt) (e : Eff) (r : Except Exc e.Ans) : (s.next e r).call = s.call := by
  cases e with
  | store op =>
      cases r with
      | error x => rfl
      | ok answer =>
          simp only [Debt.next, Debt.answered]
          split
          · rfl
          · split <;> rfl
  | _ => cases r <;> rfl

/-- Who is busy after a step was busy before it. -/
theorem busy_of_did {e : Eff} {r : Except Exc e.Ans} {d : CallId} {s' : Debt}
    (hghost : ghost (fun _ => debts) c log = some s) (h : Busy d s' (.did c e r :: log)) :
    (d = c ∧ s' = s.next e r ∧ Busy c s log) ∨ (d ≠ c ∧ Busy d s' log) := by
  obtain ⟨hlive, hghost', hcall⟩ := h
  rcases Decidable.em (d = c) with rfl | hd
  · cases hghost'.symm.trans (ghost_did_self hghost)
    exact .inl ⟨rfl, rfl, hlive, hghost, (s.next_call e r).symm ▸ hcall⟩
  · rw [ghost_did_ne (Ne.symm hd)] at hghost'
    exact .inr ⟨hd, hlive, hghost', hcall⟩

theorem busy_did {e : Eff} {r : Except Exc e.Ans} (h : Busy c s log) :
    Busy c (s.next e r) (.did c e r :: log) :=
  ⟨h.1, ghost_did_self h.2.1, (s.next_call e r).symm ▸ h.2.2⟩

theorem busy_did_ne {e : Eff} {r : Except Exc e.Ans} {d : CallId} {s' : Debt} (hd : d ≠ c)
    (h : Busy d s' log) : Busy d s' (.did c e r :: log) :=
  ⟨h.1, (ghost_did_ne (Ne.symm hd)).trans h.2.1, h.2.2⟩

theorem recovered_did {e : Eff} {r : Except Exc e.Ans} (h : recovered log = true) :
    recovered (.did c e r :: log) = true := by
  cases e with
  | store op =>
      cases op with
      | recoverInterruptedActuations => cases r <;> first | exact h | rfl
      | _ => exact h
  | _ => exact h

/-- Before an operation that is not a recovery, the store was recovered if it is now. -/
theorem recovered_of_did {e : Eff} {r : Except Exc e.Ans}
    (h : recovered (.did c e r :: log) = true) :
    recovered log = true ∨ e = .store .recoverInterruptedActuations ∧ r.toOption.isSome := by
  cases e with
  | store op =>
      cases op with
      | recoverInterruptedActuations =>
          cases r with
          | error x => exact .inl h
          | ok n => exact .inr ⟨rfl, rfl⟩
      | _ => exact .inl h
  | _ => exact .inl h

end Steps

namespace Owed

variable {st st' : State} {log : Log} {c : CallId} {s : Debt} {env : Env}

/-- One operation. -/
theorem did {e : Eff} {r : Except Exc e.Ans} (h : Owed st log) (hlive : Live c log)
    (hghost : ghost (fun _ => debts) c log = some s) (hallow : s.allow e)
    (hexec : e.exec c env st = some (r, st')) : Owed st' (.did c e r :: log) := by
  have hone : ∀ c' s' d' t', Busy c' s' (.did c e r :: log) → Busy d' t' (.did c e r :: log) →
      c' = d' := by
    intro c' s' d' t' hc hd
    rcases busy_of_did hghost hc with ⟨rfl, -, hc₀⟩ | ⟨-, hc₀⟩ <;>
      rcases busy_of_did hghost hd with ⟨rfl, -, hd₀⟩ | ⟨-, hd₀⟩ <;>
      exact h.one _ _ _ _ hc₀ hd₀
  have hsure : ∀ d s', Busy d s' (.did c e r :: log) → s'.call.processes = true →
      recovered (.did c e r :: log) = true := by
    intro d s' hd hprocesses
    refine recovered_did ?_
    rcases busy_of_did hghost hd with ⟨rfl, rfl, hold⟩ | ⟨-, hold⟩
    · exact h.sure _ _ hold (s.next_call e r ▸ hprocesses)
    · exact h.sure _ _ hold hprocesses
  -- Who owed for a row that still waits owes for it now.
  have hkeep : ∀ id, (∃ d s', Busy d s' log ∧ s'.owes = some id) →
      (s.owes = some id → (s.next e r).owes = some id) →
      ∃ d s', Busy d s' (.did c e r :: log) ∧ s'.owes = some id := by
    rintro id ⟨d, s', hbusy, hid⟩ hself
    rcases Decidable.em (d = c) with rfl | hne
    · cases hghost.symm.trans hbusy.2.1
      exact ⟨d, _, busy_did hbusy, hself hid⟩
    · exact ⟨d, s', busy_did_ne hne hbusy, hid⟩
  rcases Classical.em (∃ op, e = .store op) with ⟨op, rfl⟩ | hne
  · have hrun : op.run env.now env.storeFault st.db = (r, st'.db) := by
      cases hexec
      rfl
    refine ⟨op.run_settled hrun h.settled, hone, hsure, fun hrec id hw => ?_, ?_, nofun⟩
    · rcases op.run_waits hrun hw with hold | ⟨answer, rfl, hq⟩
      · rcases recovered_of_did hrec with hrec | ⟨hop, hok⟩
        · exact hkeep id (h.waits hrec id hold) fun hid => Debt.next_owes hallow hrun hw hid
        · cases hop
          cases r with
          | error x => cases hok
          | ok n => exact absurd hw (StoreOp.run_recovered hrun)
      · have hforeground := (hallow ⟨answer, by rw [hq]; rfl⟩).2
        exact ⟨c, _, busy_did ⟨hlive, hghost, hforeground⟩, Debt.next_queued hq⟩
    · rintro c n earlier heq id
      cases heq
      exact StoreOp.run_recovered hrun
  · have hstore : ∀ op, e ≠ .store op := fun op heq => hne ⟨op, heq⟩
    have hdb := (exec_unmoved hexec).db hstore
    refine ⟨hdb ▸ h.settled, hone, hsure, fun hrec id hw => ?_, ?_, nofun⟩
    · rw [hdb] at hw
      rcases recovered_of_did hrec with hrec | ⟨hop, -⟩
      · exact hkeep id (h.waits hrec id hw) fun hid => by rwa [Debt.next_other hstore]
      · exact absurd hop (hstore _)
    · rintro c n earlier heq
      cases heq
      exact absurd rfl (hstore _)

/-- A call begins, and no other of its kind is under way. -/
theorem began {call : Call} (h : Owed st log) (hnew : ¬ Begun c log) (hdb : st'.db = st.db)
    (hok : call.foreground = true → ∀ d s, ¬ Busy d s log)
    (hrec : call.processes = true → recovered log = true) : Owed st' (.began c call :: log) := by
  have hback : ∀ {d sd}, Busy d sd (.began c call :: log) →
      (d = c ∧ sd = { call } ∧ call.foreground = true) ∨ Busy d sd log := by
    rintro d sd ⟨hlive, hghost, hcall⟩
    rcases Decidable.em (d = c) with rfl | hd
    · cases hghost.symm.trans ghost_began_self
      exact .inl ⟨rfl, rfl, hcall⟩
    · rw [ghost_began_ne (Ne.symm hd)] at hghost
      exact .inr ⟨hlive.resolve_left (Ne.symm hd), hghost, hcall⟩
  refine ⟨hdb ▸ h.settled, ?_, ?_, fun hlog id hw => ?_, nofun, nofun⟩
  · intro d sd d' sd' hd hd'
    rcases hback hd with ⟨rfl, -, hcall⟩ | hold <;> rcases hback hd' with ⟨rfl, -, hcall'⟩ | hold'
    · rfl
    · exact absurd hold' (hok hcall _ _)
    · exact absurd hold (hok hcall' _ _)
    · exact h.one _ _ _ _ hold hold'
  · intro d sd hd hprocesses
    rcases hback hd with ⟨rfl, rfl, -⟩ | hold
    · exact hrec hprocesses
    · exact h.sure d sd hold hprocesses
  · obtain ⟨d, sd, ⟨hlive, hghost, hcall⟩, howes⟩ := h.waits hlog id (hdb ▸ hw)
    have hd : c ≠ d := by
      rintro rfl
      exact hnew hlive.begun
    exact ⟨d, sd, ⟨.inr hlive, (ghost_began_ne hd).trans hghost, hcall⟩, howes⟩

/-- A call ends that owes nothing. -/
theorem ended {r : Except Exc Result} (h : Owed st log) (hlive : Live c log)
    (hghost : ghost (fun _ => debts) c log = some s) (hsettles : Settles s r) :
    Owed st (.ended c r :: log) where
  settled := h.settled
  one _ _ _ _ hc hd := h.one _ _ _ _ ⟨hc.1.2, hc.2⟩ ⟨hd.1.2, hd.2⟩
  sure _ _ hd hprocesses := h.sure _ _ ⟨hd.1.2, hd.2⟩ hprocesses
  waits hrec id hw := by
    obtain ⟨d, sd, ⟨hlive', hghost', hcall⟩, howes⟩ := h.waits hrec id hw
    refine ⟨d, sd, ⟨⟨?_, hlive'⟩, hghost', hcall⟩, howes⟩
    rintro rfl
    cases hghost.symm.trans hghost'
    rw [hsettles.owes] at howes
    cases howes
  clean := nofun
  quiet d result earlier heq id hw := by
    cases heq
    have hprocesses := hsettles.processes result rfl
    have hbusy : Busy c s log := ⟨hlive, hghost, Call.foreground_of_processes hprocesses⟩
    obtain ⟨d, sd, hd, howes⟩ := h.waits (h.sure c s hbusy hprocesses) id hw
    obtain rfl := h.one _ _ _ _ hbusy hd
    cases hghost.symm.trans hd.2.1
    rw [hsettles.owes] at howes
    cases howes

/-- The process crashes that runs. -/
theorem crashed {p : Nat} (h : Owed st log) (hok : ∀ c, Live c log → c.proc = p) :
    Owed (st.crash p env) (.crashed p :: log) where
  settled := by
    have hdb : (st.crash p env).db = st.db := by
      unfold State.crash
      split <;> rfl
    rw [hdb]
    exact h.settled
  one _ _ _ _ hc hd := h.one _ _ _ _ ⟨hc.1.2, hc.2⟩ ⟨hd.1.2, hd.2⟩
  sure d _ hd _ := absurd (hok d hd.1.2) hd.1.1
  waits hrec := by cases hrec
  clean := nofun
  quiet := nofun

/-- Rows that wait are owed for, in every run. -/
theorem invariant (cfg : Nat → Config) :
    Invariant (gate cfg) (fun _ => debts) (fun _ => Settles) Sequential Owed where
  obeys w c call s' _ hok _ := call.program_obeys_debts c (cfg c.proc) (hok.imp_right And.left)
  began w c call s' _ h hok hnew haccept := by
    refine h.began hnew (accept_admitted haccept).db (fun hcall => ?_) fun hcall => ?_
    · rcases hok with hback | hfore
      · rw [Call.foreground_of_background hback] at hcall
        cases hcall
      · exact hfore.2.1
    · rcases hok with hback | hfore
      · cases (Call.foreground_of_processes hcall).symm.trans (Call.foreground_of_background hback)
      · exact hfore.2.2.resolve_right (by simp [hcall])
  did w c env e k s r s' _ h hok hrun hlive hghost hallow hexec :=
    ⟨⟨Eff.possible_of_exec hexec, hok e k r s' hrun hexec⟩, h.did hlive hghost hallow hexec⟩
  ended w c s r _ h hlive hghost hsettles := h.ended hlive hghost hsettles
  crashed w p env _ h hok := h.crashed hok

end Owed

/-- The delivery may send a row that is pending and does not wait. -/
theorem sendable_of_settled {row : OutboxRow} (h : row.Settled)
    (hstate : row.sendState ≠ .awaitingTelemetry) (hpending : row.completedAt = none) :
    sendable row = true := by
  cases hs : row.sendState with
  | awaitingTelemetry => exact absurd hs hstate
  | localOnly => exact absurd hs h.shared
  | _ => simp [sendable, pending, hpending, hs]

/-- After a call of the processor that returns, no row of the outbox waits for a trace, and
after a recovery none that is pending does: the delivery may send every one of these. -/
theorem no_row_left_waiting (cfg : Nat → Config) (db : Db) (boot : Option String)
    (hdb : ∀ id row, db.outbox.find? id = some row →
      row.sendState ≠ .awaitingTelemetry ∧ row.sendState ≠ .localOnly)
    (l : List (Choice Env Call)) (hok : (gate cfg).Admits Sequential (gateInit db boot) l) :
    (∀ c result earlier, ((gate cfg).run (gateInit db boot) l).log =
        .ended c (.ok (.processing result)) :: earlier →
      ∀ id row, ((gate cfg).run (gateInit db boot) l).state.db.outbox.find? id = some row →
        row.sendState ≠ .awaitingTelemetry ∧ (row.completedAt = none → sendable row = true)) ∧
    ∀ c n earlier, ((gate cfg).run (gateInit db boot) l).log =
        .did c (.store .recoverInterruptedActuations) (.ok n) :: earlier →
      ∀ id row, ((gate cfg).run (gateInit db boot) l).state.db.outbox.find? id = some row →
        row.completedAt = none → row.sendState ≠ .awaitingTelemetry ∧ sendable row = true := by
  have hinit : Owed (gateInit db boot).state (gateInit db boot).log := by
    refine ⟨fun id row hrow => ?_, ?_, ?_, ?_, nofun, nofun⟩
    · exact ⟨fun hstate => absurd hstate (hdb id row hrow).1, (hdb id row hrow).2⟩
    · exact fun _ _ _ _ hc => hc.1.elim
    · exact fun _ _ hc => hc.1.elim
    · rintro - e ⟨id, row, hrow, -, -, hstate⟩
      exact absurd hstate (hdb id row hrow).1
  obtain ⟨-, h⟩ := (Owed.invariant cfg).run (Sound.init _ _ _) hinit hok
  constructor
  · intro c result earlier hlog id row hrow
    have hstate := h.settled.quiet (h.quiet c result earlier hlog) id row hrow
    exact ⟨hstate, sendable_of_settled (h.settled id row hrow) hstate⟩
  · intro c n earlier hlog id row hrow hpending
    have hstate : row.sendState ≠ .awaitingTelemetry := fun hstate =>
      h.clean c n earlier hlog row.eventId ⟨id, row, hrow, rfl, hpending, hstate⟩
    exact ⟨hstate, sendable_of_settled (h.settled id row hrow) hstate hpending⟩

/-! ### An event without a trace -/

namespace Untraced

/-- What `_outbox_payload` begins with where the outbox prepares nothing. -/
def plain : Fields := [("event_id", .null)]

/-- Whether the fields are `plain`. -/
def isPlain : Fields → Bool
  | [("event_id", .null)] => true
  | _ => false

theorem eq_plain {payload : Fields} (h : isPlain payload = true) : payload = plain := by
  unfold isPlain at h
  split at h
  · rfl
  · cases h

/-- `Eff.Mild`, computed. -/
def mild : (e : Eff) → Except Exc e.Ans → Bool
  | .store (.releaseOutboxWithoutTelemetry _), r => r.isOk
  | .env (.preparePayload _), .ok payload => isPlain payload
  | _, .ok _ => true
  | _, .error x => x.isException

theorem mild_of_check {e : Eff} {r : Except Exc e.Ans} (h : mild e r = true) : e.Mild r := by
  cases e with
  | store op =>
      cases op with
      | releaseOutboxWithoutTelemetry id =>
          cases r with
          | ok u => rfl
          | error x => cases h
      | _ =>
          rintro x rfl
          exact h
  | env op =>
      cases op with
      | preparePayload path =>
          cases r with
          | ok payload =>
              refine ⟨fun payload' heq => ?_, fun y hy => ?_⟩
              · cases heq
                exact .inl (eq_plain h)
              · cases hy
          | error x =>
              refine ⟨fun payload hp => ?_, fun y hy => ?_⟩
              · cases hp
              · cases hy
                exact h
      | _ =>
          rintro x rfl
          exact h
  | _ =>
      rintro x rfl
      exact h

/-- Whether all calls of the log are ones that nobody waits for. -/
def idleLog (log : Log) : Bool :=
  log.all fun
    | .began _ call => call.background
    | _ => true

theorem not_busy_of_idleLog {c : CallId} {s : Debt} {log : Log} (h : idleLog log = true) :
    ¬ Busy c s log := by
  have hcall : ∀ (log : Log) (s : Debt), idleLog log = true →
      ghost (fun _ => debts) c log = some s → s.call.background = true := by
    intro log
    induction log with
    | nil =>
        intro s _ hghost
        cases hghost
    | cons ev log ih =>
        intro s h hghost
        obtain ⟨hev, hlog⟩ := Bool.and_eq_true_iff.1 h
        cases ev with
        | began d call =>
            rcases Decidable.em (d = c) with rfl | hd
            · cases hghost.symm.trans ghost_began_self
              exact hev
            · exact ih s hlog ((ghost_began_ne hd).symm.trans hghost)
        | did d e r =>
            rcases Decidable.em (d = c) with rfl | hd
            · simp only [ghost, if_true] at hghost
              obtain ⟨s', hs', rfl⟩ := Option.map_eq_some_iff.1 hghost
              rw [debts_next, Debt.next_call]
              exact ih s' hlog hs'
            · exact ih s hlog ((ghost_did_ne hd).symm.trans hghost)
        | ended d r => exact ih s hlog hghost
        | crashed p => exact ih s hlog hghost
  rintro ⟨-, hghost, hforeground⟩
  have hbackground := hcall log s h hghost
  rw [Call.foreground_of_background hbackground] at hforeground
  cases hforeground

/-- `Sequential`, computed. -/
def sequential (w : GateWorld) : Choice Env Call → Bool
  | .begin _ call => call.background || (call.foreground && idleLog w.log && recovered w.log)
  | .step c env =>
      match w.running c with
      | some (.call e _) =>
          match e.exec c env w.state with
          | some (r, _) => mild e r
          | none => true
      | _ => true
  | .crash _ _ => false

theorem sequential_of_check {w : GateWorld} {ch : Choice Env Call} (h : sequential w ch = true) :
    Sequential w ch := by
  cases ch with
  | begin c call =>
      simp only [sequential, Bool.or_eq_true, Bool.and_eq_true] at h
      rcases h with h | ⟨⟨h, hidle⟩, hrec⟩
      · exact .inl h
      · exact .inr ⟨h, fun _ _ => not_busy_of_idleLog hidle, .inl hrec⟩
  | step c env =>
      intro e k r s' hrun hexec
      simp only [sequential, hrun, hexec] at h
      exact mild_of_check h
  | crash p env => cases h

/-- `sequential`, along a run. -/
def sequentialAll (cfg : Nat → Config) (w : GateWorld) : List (Choice Env Call) → Bool
  | [] => true
  | ch :: rest => sequential w ch && sequentialAll cfg ((gate cfg).step w ch) rest

theorem admits_of_sequentialAll {cfg : Nat → Config} {l : List (Choice Env Call)} :
    ∀ {w : GateWorld}, sequentialAll cfg w l = true → (gate cfg).Admits Sequential w l := by
  induction l with
  | nil => exact fun _ => trivial
  | cons ch rest ih =>
      intro w h
      obtain ⟨hfirst, hrest⟩ := Bool.and_eq_true_iff.1 h
      exact ⟨sequential_of_check hfirst, ih hrest⟩

/-- The outside, which gives no trace. -/
def env : Env where
  answer
    | .clock => .ok datetimeMin
    | .contentDigest path => .ok path
    | .preparePayload _ => .ok plain
    | .finishTrace => .error .other
    | _ => .error .other

/-- A process is started and records a burst that was skipped. -/
def skipped : List (Choice Env Call) :=
  .begin ⟨0, 0⟩ .start :: List.replicate 10 (.step ⟨0, 0⟩ env) ++
    .begin ⟨0, 1⟩ (.recordSkipped { paths := ["a.jpg"], reason := "stale_burst" }) ::
      List.replicate 10 (.step ⟨0, 1⟩ env)

/-- The run of it. -/
def world : GateWorld := (gate fun _ => {}).run (gateInit Db.fresh) skipped

theorem no_row_left_waiting_skipped :
    (∀ c result earlier, world.log = .ended c (.ok (.processing result)) :: earlier →
      ∀ id row, world.state.db.outbox.find? id = some row →
        row.sendState ≠ .awaitingTelemetry ∧ (row.completedAt = none → sendable row = true)) ∧
    ∀ c n earlier, world.log =
        .did c (.store .recoverInterruptedActuations) (.ok n) :: earlier →
      ∀ id row, world.state.db.outbox.find? id = some row →
        row.completedAt = none → row.sendState ≠ .awaitingTelemetry ∧ sendable row = true :=
  no_row_left_waiting (fun _ => {}) Db.fresh none nofun skipped
    (admits_of_sequentialAll (by decide +kernel))

end Untraced

end GateController

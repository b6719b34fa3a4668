import GateController.Delivery.Worker

/-!
# What is prepared is sent

A payload that `run_once` has prepared is offered to the cloud before the worker does anything
else, unless its values cannot be logged, it does not name its evidence by a digest, or the
evidence cannot be loaded.  `sendWatch` holds the worker to this: the payload that is prepared
and not yet sent is owed, and while one is owed only it and its evidence are touched.
-/

namespace GateController

open Data Effects

namespace OutboxWorker

/-! ## What is owed -/

/-- The payload can be logged, and names its evidence by a digest if it has any. -/
def offerable (payload : Fields) : Bool :=
  match loggedSend payload, imageDigest payload with
  | .ok (), none => true
  | .ok (), some (.str _) => true
  | _, _ => false

/-- The payload is sent, whatever becomes of it, or its evidence cannot be loaded. -/
def Offers (payload : Fields) : (e : DeliveryEff) → Except Exc e.Ans → Prop
  | .send sent _, _ => sent = payload
  | .load digest, .error _ => imageDigest payload = some (.str digest)
  | _, _ => False

/-- What is owed after an operation. -/
def owed (s : Option Fields) : (e : DeliveryEff) → Except Exc e.Ans → Option Fields
  | .store (.prepareOutboxAttempt _ _), .ok (some payload) =>
      if offerable payload then some payload else none
  | .send _ _, _ => none
  | .load _, .error _ => none
  | _, _ => s

/-- What may be done while something is owed. -/
def mayDo (s : Option Fields) : DeliveryEff → Prop
  | .send payload _ => s = some payload
  | .load digest => ∃ payload, s = some payload ∧ imageDigest payload = some (.str digest)
  | _ => s = none

/-- What is prepared is sent. -/
def sendWatch : Protocol DeliveryEff DeliveryEff.Ans Exc DeliveryCall (Option Fields) where
  start _ := none
  next := owed
  allow := mayDo
  expect _ _ _ := True

/-! ## The worker keeps to it -/

/-- Nothing is owed before the program, and nothing after it. -/
def Clear {α : Type} (p : DeliveryProg α) : Prop :=
  Obeys sendWatch (fun s _ => s = none) none p

/-- An operation that has nothing to do with what is sent. -/
def Plain : DeliveryEff → Prop
  | .store (.prepareOutboxAttempt _ _) | .send _ _ | .load _ => False
  | _ => True

section Programs

variable {α β : Type} {p q : DeliveryProg α} {f : α → DeliveryProg β}

theorem Clear.ret (a : α) : Clear (.ret a : DeliveryProg α) := rfl

theorem Clear.raise (x : Exc) : Clear (.raise x : DeliveryProg α) := rfl

theorem Clear.bind (hp : Clear p) (hf : ∀ a, Clear (f a)) : Clear (p >>= f) := by
  refine Obeys.bind hp (fun s a hs => ?_) fun s x hs => hs
  rw [show s = none from hs]
  exact hf a

theorem Clear.attempt (hp : Clear p) : Clear p.attempt := Obeys.attempt_iff.2 hp

theorem Clear.of_only (hp : p.Only Plain) : Clear p := by
  refine Obeys.of_only hp fun e he => ?_
  cases e with
  | store op =>
      cases op with
      | prepareOutboxAttempt itemId attemptedAt => exact he.elim
      | _ => exact ⟨rfl, fun r => by cases r <;> rfl⟩
  | send payload evidence => exact he.elim
  | load digest => exact he.elim
  | _ => exact ⟨rfl, fun r => by cases r <;> rfl⟩

theorem Clear.op {e : DeliveryEff} (he : Plain e) : Clear (op e) :=
  Clear.of_only (Prog.Only.perform_iff.2 he)

theorem Clear.exceptException (hp : Clear p) (hq : Clear q) : Clear (exceptException p q) := by
  refine hp.attempt.bind fun r => ?_
  cases r with
  | ok a => exact Clear.ret a
  | error x =>
      dsimp only
      split
      · exact hq
      · exact Clear.raise x

end Programs

theorem clear_send {payload : Fields} {evidence : Option String} :
    Obeys sendWatch (fun s _ => s = none) (some payload) (op (.send payload evidence)) :=
  Obeys.perform rfl fun _ _ => rfl

/-- What is owed is sent. -/
theorem clear_sendItem {payload : Fields} (h : offerable payload = true) :
    Obeys sendWatch (fun s _ => s = none) (some payload) (sendItem payload) := by
  unfold sendItem
  cases hdigest : imageDigest payload with
  | none => exact clear_send
  | some digest =>
      cases digest with
      | str digest =>
          refine Obeys.bind (R := fun s r => r.isOk = true ∧ s = some payload ∨
            r.isOk = false ∧ s = none) (Obeys.perform ⟨payload, rfl, hdigest⟩ fun r _ => ?_) ?_ ?_
          · cases r with
            | ok evidence => exact .inl ⟨rfl, rfl⟩
            | error x => exact .inr ⟨rfl, rfl⟩
          · rintro s evidence (⟨-, rfl⟩ | ⟨hok, -⟩)
            · exact clear_send
            · cases hok
          · rintro s x (⟨hok, -⟩ | ⟨-, hs⟩)
            · cases hok
            · exact hs
      | _ =>
          rw [offerable, hdigest] at h
          cases hlog : loggedSend payload <;> rw [hlog] at h <;> cases h

/-- A payload that cannot be offered is not sent. -/
theorem clear_unoffered {payload : Fields} (h : offerable payload = false) :
    Clear (do
      Prog.ofExcept (loggedSend payload)
      sendItem payload
      return some payload) := by
  unfold sendItem
  cases hlog : loggedSend payload with
  | error x => exact Clear.raise x
  | ok u =>
      cases hdigest : imageDigest payload with
      | none =>
          rw [offerable, hlog, hdigest] at h
          cases h
      | some digest =>
          cases digest with
          | str digest =>
              rw [offerable, hlog, hdigest] at h
              cases h
          | _ => exact Clear.raise _

theorem clear_attemptItem (itemId : Nat) : Clear (attemptItem itemId) := by
  refine Clear.bind (Clear.op trivial) fun attemptedAt => ?_
  refine Obeys.bind (R := fun s r => s = none ∧ (∀ p, r = .ok (some p) → offerable p = false) ∨
    ∃ p, r = .ok (some p) ∧ offerable p = true ∧ s = some p) (Obeys.perform rfl fun r _ => ?_) ?_ ?_
  · cases r with
    | error x => exact .inl ⟨rfl, fun p hp => by cases hp⟩
    | ok answer =>
        cases answer with
        | none => exact .inl ⟨rfl, fun p hp => by cases hp⟩
        | some payload =>
            cases hoffer : offerable payload with
            | true => exact .inr ⟨payload, rfl, hoffer, if_pos hoffer⟩
            | false =>
                refine .inl ⟨if_neg (by simp [hoffer]), fun p hp => ?_⟩
                cases hp
                exact hoffer
  · rintro s answer (⟨rfl, hunoffered⟩ | ⟨payload, heq, hoffer, rfl⟩)
    · cases answer with
      | none => exact Clear.ret none
      | some payload => exact clear_unoffered (hunoffered payload rfl)
    · cases heq
      have hlog : loggedSend payload = .ok () := by
        unfold offerable at hoffer
        split at hoffer
        · assumption
        · assumption
        · cases hoffer
      change Obeys _ _ _ (Prog.ofExcept (loggedSend payload) >>= fun _ => _)
      rw [hlog]
      change Obeys _ _ _ (sendItem payload >>= fun _ => _)
      exact Obeys.bind (R := fun s _ => s = none) (clear_sendItem hoffer) (fun s _ hs => hs)
        fun s x hs => hs
  · rintro s x (⟨rfl, -⟩ | ⟨p, heq, -⟩)
    · rfl
    · cases heq

theorem only_releaseEvidence (payload : Fields) : (releaseEvidence payload).Only Plain := by
  unfold releaseEvidence
  split
  · refine Prog.Only.bind (Prog.Only.bind (Prog.Only.perform_iff.2 trivial) fun _ =>
      Prog.Only.bind (Prog.Only.perform_iff.2 trivial) fun _ => trivial) fun pending => ?_
    split
    · trivial
    · refine Prog.Only.bind (Prog.Only.attempt (Prog.Only.perform_iff.2 trivial)) fun r => ?_
      cases r with
      | ok a => trivial
      | error x =>
          dsimp only
          split <;> trivial
  · trivial

theorem clear_acknowledge (itemId : Nat) (payload : Fields) :
    Clear (acknowledge itemId payload) := by
  refine Clear.bind (Clear.attempt (Clear.bind (Clear.op trivial) fun _ => Clear.op trivial))
    fun r => ?_
  cases r with
  | ok u => exact (Clear.of_only (only_releaseEvidence payload)).bind fun _ => Clear.ret _
  | error x =>
      dsimp only
      split
      · exact Clear.ret _
      · exact Clear.raise x

theorem clear_deliverItem (itemId : Nat) : Clear (deliverItem itemId) := by
  refine Clear.bind (Clear.op trivial) fun _ => ?_
  refine (clear_attemptItem itemId).attempt.bind fun r => ?_
  cases r with
  | error x =>
      dsimp only
      split
      · have hretry : Clear (op (.store (.markOutboxRetry itemId))) := Clear.op trivial
        exact (hretry.exceptException (Clear.ret ())).bind fun _ => Clear.ret _
      · exact Clear.raise x
  | ok answer =>
      cases answer with
      | none => exact Clear.ret _
      | some payload => exact clear_acknowledge itemId payload

theorem clear_deliverAll (items : List Nat) : Clear (deliverAll items) := by
  induction items with
  | nil => exact Clear.ret _
  | cons itemId rest ih =>
      exact (clear_deliverItem itemId).bind fun _ => ih.bind fun _ => Clear.ret _

theorem clear_runRetention (cfg : DeliveryConfig) (now : DateTime) :
    Clear (runRetention cfg now) := by
  refine Clear.bind (Clear.op trivial) fun last => ?_
  split
  · exact Clear.ret ()
  · refine Clear.bind (Clear.op trivial) fun _ => ?_
    refine Clear.exceptException ?_ (Clear.ret ())
    refine Clear.bind (Clear.of_only (Prog.Only.ofExcept_iff.2 trivial)) fun cutoff => ?_
    exact Clear.bind (Clear.op trivial) fun _ => Clear.ret ()

theorem clear_runOnce (cfg : DeliveryConfig) : Clear (runOnce cfg) :=
  Clear.bind (Clear.op trivial) fun _ => (clear_runRetention cfg _).bind fun _ =>
    Clear.bind (Clear.op trivial) fun _ => Clear.bind (Clear.op trivial) fun _ =>
      clear_deliverAll _

/-! ## Every call -/

theorem only_cleanup (pending spooled : List String) : (cleanup pending spooled).Only Plain := by
  induction spooled with
  | nil => trivial
  | cons digest rest ih =>
      unfold cleanup
      split
      · exact ih
      · exact Prog.Only.bind (Prog.Only.perform_iff.2 trivial) fun _ => ih

theorem clear_construct (cfg : DeliveryConfig) : Clear (construct cfg) := by
  refine Clear.exceptException ?_ (Clear.ret ())
  refine Clear.bind (Clear.op trivial) fun rows => Clear.bind (Clear.op trivial) fun _ => ?_
  refine Clear.bind ?_ fun pending => Clear.bind (Clear.op trivial) fun spooled =>
    Clear.of_only (only_cleanup pending spooled)
  exact Clear.bind (Clear.op trivial) fun _ => Clear.bind (Clear.op trivial) fun _ => Clear.ret _

theorem clear_submit (digest : Option String) {call : DeliveryOp} (h : call.isWorkers = false) :
    Clear (submit digest call) := by
  refine Clear.bind ?_ fun _ => Clear.bind (Clear.op ?_) fun _ => Clear.ret ()
  · cases digest with
    | none => exact Clear.ret ()
    | some digest => exact Clear.op trivial
  · cases call with
    | prepareOutboxAttempt itemId attemptedAt => cases h
    | _ => trivial

theorem clear_program (cfg : DeliveryConfig) {call : DeliveryCall} {st st' : DeliveryState}
    (haccept : accept st call = some st') : Clear (program cfg call) := by
  cases call with
  | construct => exact (clear_construct cfg).bind fun _ => Clear.ret _
  | runOnce => exact (clear_runOnce cfg).bind fun _ => Clear.ret _
  | submit digest call =>
      refine (clear_submit digest ?_).bind fun _ => Clear.ret _
      change (if call.isWorkers then none else some st) = some st' at haccept
      split at haccept
      · cases haccept
      · next h => simpa using h

/-! ## Runs -/

/-- The first thing the call does, but for loading the evidence, is to offer the payload. -/
def Offered (c : CallId) (payload : Fields) (later : DeliveryLog) : Prop :=
  ∃ after between e r, later = after ++ .did c e r :: between ∧ Offers payload e r ∧
    ∀ e' r', .did c e' r' ∈ between → ∃ digest, e' = .load digest

/-- Where a call stands with each payload that it has prepared. -/
def Owing (log : DeliveryLog) (c : CallId) (s : Option Fields) : Prop :=
  ∀ later earlier itemId attemptedAt payload,
    log = later ++ .did c (.store (.prepareOutboxAttempt itemId attemptedAt))
      (.ok (some payload)) :: earlier → offerable payload = true →
    Offered c payload later ∨
      s = some payload ∧ ∀ e' r', .did c e' r' ∈ later → ∃ digest, e' = .load digest

section Log

variable {log : DeliveryLog} {c d : CallId} {s : Option Fields}
  {ev : Event DeliveryEff DeliveryEff.Ans Exc DeliveryCall DeliveryResult}

theorem Offered.cons {payload : Fields} {later : DeliveryLog} (h : Offered c payload later) :
    Offered c payload (ev :: later) := by
  obtain ⟨after, between, e, r, rfl, hrest⟩ := h
  exact ⟨ev :: after, between, e, r, rfl, hrest⟩

/-- What another call does, or what is not an operation. -/
theorem Owing.cons (h : Owing log c s) (hev : ∀ e r, ev ≠ .did c e r) : Owing (ev :: log) c s := by
  intro later earlier itemId attemptedAt payload heq hoffer
  cases later with
  | nil =>
      cases heq
      exact absurd rfl (hev _ _)
  | cons ev' later =>
      obtain ⟨rfl, rfl⟩ := List.cons.inj heq
      refine (h later earlier itemId attemptedAt payload rfl hoffer).imp Offered.cons
        fun hs => ⟨hs.1, fun e' r' hmem => ?_⟩
      rcases List.mem_cons.1 hmem with heq | hmem
      · exact absurd heq.symm (hev e' r')
      · exact hs.2 e' r' hmem

/-- What the call does itself. -/
theorem Owing.did {e : DeliveryEff} {r : Except Exc e.Ans} (h : Owing log c s)
    (hallow : mayDo s e) : Owing (.did c e r :: log) c (owed s e r) := by
  intro later earlier itemId attemptedAt payload heq hoffer
  cases later with
  | nil =>
      cases heq
      exact .inr ⟨if_pos hoffer, fun e' r' hmem => by cases hmem⟩
  | cons ev' later =>
      obtain ⟨rfl, rfl⟩ := List.cons.inj heq
      rcases h later earlier itemId attemptedAt payload rfl hoffer with hoffered | ⟨rfl, hloads⟩
      · exact .inl hoffered.cons
      · cases e with
        | send sent evidence =>
            exact .inl ⟨[], later, _, r, rfl, (Option.some.inj hallow).symm, hloads⟩
        | load digest =>
            obtain ⟨_, ⟨⟩, hdigest⟩ := hallow
            cases r with
            | error x => exact .inl ⟨[], later, _, .error x, rfl, hdigest, hloads⟩
            | ok evidence =>
                refine .inr ⟨rfl, fun e' r' hmem => ?_⟩
                rcases List.mem_cons.1 hmem with heq | hmem
                · cases heq
                  exact ⟨digest, rfl⟩
                · exact hloads e' r' hmem
        | _ => cases hallow

/-- Wherever a run stands, each call owes at most what it has prepared last. -/
theorem owing_of_lawful {Q : CallId → Option Fields → Except Exc DeliveryResult → Prop}
    (h : Lawful (fun _ => sendWatch) Q log) : Ever (fun _ => sendWatch) (Owing log) log := by
  induction log with
  | nil => exact fun d s hghost => by cases hghost
  | cons ev log ih =>
      have hlog := ih h.2
      cases ev with
      | began c call =>
          refine hlog.began ?_ fun d s _ _ hs => hs.cons fun e r heq => by cases heq
          -- A call that begins now has done nothing before.
          intro later earlier itemId attemptedAt payload heq
          cases later with
          | nil => cases heq
          | cons ev' later =>
              obtain ⟨-, rfl⟩ := List.cons.inj heq
              have hlawful : Lawful (fun _ => sendWatch) Q (later ++ _) := h.2
              obtain ⟨-, s, hghost, -⟩ := hlawful.did ⟨later, rfl⟩
              obtain ⟨s', hs', -⟩ :=
                hlawful.steps ((List.suffix_cons _ _).trans ⟨later, rfl⟩) hghost
              exact absurd (ghost_isSome.1 (Option.isSome_of_mem hs')) h.1
      | did c e r =>
          obtain ⟨-, s, hghost, hallow, -⟩ := h.1
          refine hlog.did hghost ((hlog c s hghost).did hallow) fun d s' hd _ hs' => ?_
          exact hs'.cons fun e' r' heq => hd (by cases heq; rfl)
      | ended c r => exact fun d s hghost => (hlog d s hghost).cons fun e r heq => by cases heq
      | crashed p => exact fun d s hghost => (hlog d s hghost).cons fun e r heq => by cases heq

end Log

/-- The calls of a run keep to it. -/
theorem sendWatch_lawful (cfg : DeliveryConfig) (st : DeliveryState)
    (l : List (Choice DeliveryEnv DeliveryCall)) :
    Lawful (fun _ => sendWatch) (fun _ s _ => s = none)
      ((delivery cfg).run (World.init st) l).log := by
  have hinv : Invariant (delivery cfg) (fun _ => sendWatch) (fun _ s _ => s = none)
      (fun _ _ => True) fun _ _ => True :=
    { obeys := fun w c call s' _ _ haccept => clear_program cfg haccept
      began := fun _ _ _ _ _ _ _ _ _ => trivial
      did := fun _ _ _ _ _ _ _ _ _ _ _ _ _ _ _ _ => ⟨trivial, trivial⟩
      ended := fun _ _ _ _ _ _ _ _ _ => trivial
      crashed := fun _ _ _ _ _ _ => trivial }
  exact (hinv.run (Sound.init _ _ st) trivial (Machine.admits_true _ l)).1.lawful

/-- In any run, a call that is over has offered each payload that it has prepared and that can be
offered. -/
theorem prepared_offered (cfg : DeliveryConfig) (st : DeliveryState)
    (l : List (Choice DeliveryEnv DeliveryCall)) {c : CallId} {r : Except Exc DeliveryResult}
    (hended : .ended c r ∈ ((delivery cfg).run (World.init st) l).log)
    {later earlier : DeliveryLog} {itemId : Nat} {attemptedAt : DateTime} {payload : Fields}
    (hlog : ((delivery cfg).run (World.init st) l).log =
      later ++ .did c (.store (.prepareOutboxAttempt itemId attemptedAt)) (.ok (some payload)) ::
        earlier)
    (hoffer : offerable payload = true) : Offered c payload later := by
  have hlawful := sendWatch_lawful cfg st l
  obtain ⟨after, before, heq⟩ := List.append_of_mem hended
  have hmem : Event.ended c r :: before <:+ ((delivery cfg).run (World.init st) l).log :=
    ⟨after, heq.symm⟩
  obtain ⟨-, s, hghost, rfl⟩ := hlawful.ended hmem
  have hghost' := (hlawful.settled hmem).1.trans hghost
  rcases owing_of_lawful hlawful c none hghost' later earlier itemId attemptedAt payload hlog
    hoffer with hoffered | ⟨hnone, -⟩
  · exact hoffered
  · cases hnone

end OutboxWorker

end GateController

import GateController.Delivery.Worker

/-!
# The worker keeps to its rounds

What is watched of a call: where its round begins, which rows of the round are
still to be taken, which row is under way and how far it has come.  A row is
prepared after it was taken, sent with the payload that was prepared for it, and
completed with the payload of a send that returned.
-/

namespace GateController

open Data Effects

/-! ## Rules -/

/-- What a call has done so far. -/
structure DeliveryWatch where
  call : DeliveryCall
  /-- The position that was read. -/
  cursor : Option (Option Nat) := none
  /-- The rows of the round that are still to be taken. -/
  plan : Option (List Nat) := none
  /-- The row that was taken, until it is prepared. -/
  taken : Option Nat := none
  /-- The row that was prepared last, with its payload. -/
  prepared : Option (Nat × Fields) := none
  /-- The row whose send returned, with what was sent. -/
  sent : Option (Nat × Fields) := none
  /-- A clock or a `SELECT` has failed, or something raised that is no `Exception`. -/
  troubled : Bool := false

/-- Whether the worker counts on an answer. -/
def DeliveryEff.counted : DeliveryEff → Bool
  | .clock | .pendingOutboxItems _ | .pendingPayloads | .outboxDigests | .claimDigests => true
  | _ => false

/-- An outcome that `run_once` does not deal with. -/
def DeliveryEff.trouble (e : DeliveryEff) : Except Exc e.Ans → Bool
  | .ok _ => false
  | .error x => e.counted || !x.isException

namespace DeliveryWatch

/-- The watch after an operation that answered. -/
def answered (s : DeliveryWatch) : (e : DeliveryEff) → e.Ans → DeliveryWatch
  | .lastItemId, cursor => { s with cursor := some cursor }
  | .pendingOutboxItems _, items => { s with plan := some (items.map Prod.fst) }
  | .setLastItemId itemId, _ =>
      { s with plan := s.plan.map List.tail, taken := some itemId, prepared := none, sent := none }
  | .store (.prepareOutboxAttempt itemId _), payload =>
      { s with taken := none, prepared := payload.map fun p => (itemId, p), sent := none }
  | .send _ _, _ => { s with sent := s.prepared }
  | _, _ => s

/-- The watch after an operation that raised. -/
def failed (s : DeliveryWatch) : DeliveryEff → DeliveryWatch
  | .store (.prepareOutboxAttempt _ _) => { s with taken := none, prepared := none, sent := none }
  | _ => s

/-- The watch after an operation. -/
def next (s : DeliveryWatch) (e : DeliveryEff) (r : Except Exc e.Ans) : DeliveryWatch :=
  let s' := match r with
    | .ok a => s.answered e a
    | .error _ => s.failed e
  { s' with troubled := s.troubled || e.trouble r }

/-- What a call may do next. -/
def allow (s : DeliveryWatch) : DeliveryEff → Prop
  | .pendingOutboxItems afterId => s.call = .runOnce ∧ s.plan = none ∧ s.cursor = some afterId
  | .setLastItemId itemId => s.call = .runOnce ∧ (∃ rest, s.plan = some (itemId :: rest)) ∧
      (s.taken = none ∨ s.troubled = true)
  | .store (.prepareOutboxAttempt itemId _) => s.call = .runOnce ∧ s.taken = some itemId
  | .send payload _ => ∃ itemId, s.prepared = some (itemId, payload)
  | .store (.completeOutboxItem itemId _ payload) =>
      ∃ p, payload = some p ∧ s.sent = some (itemId, p)
  | _ => True

/-- Memory always answers. -/
def expect : (e : DeliveryEff) → Except Exc e.Ans → Prop
  | .setLastItemId _, r => r = .ok ()
  | .setLastRetentionAt _, r => r = .ok ()
  | .lastItemId, r => ∃ a, r = .ok a
  | .lastRetentionAt, r => ∃ a, r = .ok a
  | _, _ => True

end DeliveryWatch

/-- The rules of the delivery. -/
def deliveryWatch : Protocol DeliveryEff DeliveryEff.Ans Exc DeliveryCall DeliveryWatch where
  start call := { call }
  next := DeliveryWatch.next
  allow := DeliveryWatch.allow
  expect _ := DeliveryWatch.expect

@[simp] theorem deliveryWatch_next (s : DeliveryWatch) (e : DeliveryEff) (r : Except Exc e.Ans) :
    deliveryWatch.next s e r = s.next e r := rfl

@[simp] theorem DeliveryWatch.next_troubled (s : DeliveryWatch) (e : DeliveryEff)
    (r : Except Exc e.Ans) : (s.next e r).troubled = (s.troubled || e.trouble r) := rfl

namespace OutboxWorker

variable {α : Type} {s : DeliveryWatch} {rest : List Nat} {itemId : Nat}

/-- An operation that tells the watch no more than whether there is trouble. -/
def Quiet (e : DeliveryEff) : Prop :=
  (∀ s : DeliveryWatch, s.allow e) ∧ (∀ s : DeliveryWatch, ∀ a, s.answered e a = s) ∧
    ∀ s : DeliveryWatch, s.failed e = s

theorem Quiet.next {e : DeliveryEff} (h : Quiet e) (r : Except Exc e.Ans) :
    s.next e r = { s with troubled := s.troubled || e.trouble r } := by
  cases r with
  | ok a => simp only [DeliveryWatch.next, h.2.1]
  | error x => simp only [DeliveryWatch.next, h.2.2]

/-- The second watch is the first, with more trouble at most. -/
def Same (s s' : DeliveryWatch) : Prop :=
  ∃ more, s' = { s with troubled := s.troubled || more }

theorem Same.refl (s : DeliveryWatch) : Same s s := ⟨false, by simp⟩

theorem Same.trans {s₁ s₂ s₃ : DeliveryWatch} (h₁ : Same s₁ s₂) (h₂ : Same s₂ s₃) : Same s₁ s₃ := by
  obtain ⟨m₁, rfl⟩ := h₁
  obtain ⟨m₂, rfl⟩ := h₂
  exact ⟨m₁ || m₂, by simp [Bool.or_assoc]⟩

/-- What a program of quiet operations comes to: an outcome that is not an answer and
is no `Exception` means trouble. -/
def Calm (s s' : DeliveryWatch) (r : Except Exc α) : Prop :=
  Same s s' ∧ ∀ x, r = .error x → x.isException = false → s'.troubled = true

theorem obeys_quiet {e : DeliveryEff} (h : Quiet e) :
    Obeys deliveryWatch (fun s' r => Calm s s' r) s (op e) := by
  refine Obeys.perform (h.1 s) fun r _ => ?_
  rw [deliveryWatch_next, h.next]
  refine ⟨⟨_, rfl⟩, ?_⟩
  rintro x rfl hx
  simp [DeliveryEff.trouble, hx]

/-- An answer that is counted on, where nothing catches its failure. -/
theorem obeys_counted {e : DeliveryEff} (h : Quiet e) (hcounted : e.counted = true) :
    Obeys deliveryWatch (fun s' r => Same s s' ∧ ∀ x, r = .error x → s'.troubled = true) s (op e) := by
  refine Obeys.perform (h.1 s) fun r _ => ?_
  rw [deliveryWatch_next, h.next]
  refine ⟨⟨_, rfl⟩, ?_⟩
  rintro x rfl
  simp [DeliveryEff.trouble, hcounted]

theorem quiet_clock : Quiet .clock := ⟨fun _ => trivial, fun _ _ => rfl, fun _ => rfl⟩

theorem quiet_delete (digest : String) : Quiet (.delete digest) :=
  ⟨fun _ => trivial, fun _ _ => rfl, fun _ => rfl⟩

theorem quiet_load (digest : String) : Quiet (.load digest) :=
  ⟨fun _ => trivial, fun _ _ => rfl, fun _ => rfl⟩

theorem quiet_outboxDigests : Quiet .outboxDigests :=
  ⟨fun _ => trivial, fun _ _ => rfl, fun _ => rfl⟩

theorem quiet_claimDigests : Quiet .claimDigests :=
  ⟨fun _ => trivial, fun _ _ => rfl, fun _ => rfl⟩

theorem quiet_purge (cutoff : DateTime) : Quiet (.store (.purgeDeliveredTelemetry cutoff)) :=
  ⟨fun _ => trivial, fun _ _ => rfl, fun _ => rfl⟩

theorem quiet_retry (itemId : Nat) : Quiet (.store (.markOutboxRetry itemId)) :=
  ⟨fun _ => trivial, fun _ _ => rfl, fun _ => rfl⟩

/-- What `except Exception` lets through means trouble. -/
theorem obeys_exceptException {p : DeliveryProg α} {a : α}
    (h : Obeys deliveryWatch (fun s' r => Calm s s' r) s p) :
    Obeys deliveryWatch (fun s' r => Same s s' ∧ ∀ x, r = .error x → s'.troubled = true) s
      (exceptException p (return a)) := by
  unfold exceptException
  rw [Obeys.bind_iff, Obeys.attempt_iff]
  refine h.mono fun s' r hr => ?_
  cases r with
  | ok a => exact ⟨hr.1, fun x hx => by cases hx⟩
  | error x =>
      dsimp only
      cases hx : x.isException with
      | true => exact ⟨hr.1, fun x hx => by cases hx⟩
      | false => exact ⟨hr.1, fun _ _ => hr.2 x rfl hx⟩

/-! ## A round of the loop -/

/-- The worker has come to its next row, and these are left. -/
structure Ready (rest : List Nat) (s : DeliveryWatch) : Prop where
  call : s.call = .runOnce
  plan : s.plan = some rest
  taken : s.taken = none ∨ s.troubled = true

/-- What a part of the loop comes to. -/
def Went (rest : List Nat) (s : DeliveryWatch) (r : Except Exc α) : Prop :=
  Ready rest s ∧ ∀ x, r = .error x → s.troubled = true

theorem Ready.same {s' : DeliveryWatch} (h : Ready rest s) (hs : Same s s') : Ready rest s' := by
  obtain ⟨more, rfl⟩ := hs
  refine ⟨h.call, h.plan, h.taken.imp_right fun ht => ?_⟩
  simp [ht]

theorem Same.sent {s' : DeliveryWatch} (hs : Same s s') : s'.sent = s.sent := by
  obtain ⟨more, rfl⟩ := hs
  rfl

theorem Same.prepared {s' : DeliveryWatch} (hs : Same s s') : s'.prepared = s.prepared := by
  obtain ⟨more, rfl⟩ := hs
  rfl

/-- What is logged raises at most an `AttributeError`. -/
theorem loggedSend_isException {payload : Fields} {x : Exc} (h : loggedSend payload = .error x) :
    x.isException = true := by
  have hget : ∀ value name default y, getOf value name default = .error y →
      y.isException = true := by
    intro value name default y hy
    cases value <;> cases hy <;> rfl
  simp only [loggedSend, bind, Except.bind] at h
  repeat' split at h
  all_goals first
    | (cases h; exact hget _ _ _ _ ‹_›)
    | cases h

/-- What a row comes to before it is acknowledged. -/
def Attempted (rest : List Nat) (itemId : Nat) (s : DeliveryWatch) (r : Except Exc (Option Fields)) :
    Prop :=
  Ready rest s ∧ (∀ p, r = .ok (some p) → s.sent = some (itemId, p)) ∧
    ∀ x, r = .error x → x.isException = false → s.troubled = true

theorem send_obeys {payload : Fields} {evidence : Option String} (h : Ready rest s)
    (hprepared : s.prepared = some (itemId, payload)) :
    Obeys deliveryWatch (fun s' r => Ready rest s' ∧
      (r = .ok () → s'.sent = some (itemId, payload)) ∧
        ∀ x, r = .error x → x.isException = false → s'.troubled = true) s
      (op (.send payload evidence)) := by
  refine Obeys.perform ⟨itemId, hprepared⟩ fun r _ => ?_
  cases r with
  | ok a =>
      refine ⟨⟨h.call, h.plan, h.taken.imp_right fun ht => ?_⟩, fun _ => hprepared, nofun⟩
      simp [ht]
  | error x =>
      refine ⟨⟨h.call, h.plan, h.taken.imp_right fun ht => ?_⟩, nofun, ?_⟩
      · simp [ht]
      · rintro y ⟨⟩ hx
        simp [DeliveryEff.trouble, hx]

theorem sendItem_obeys {payload : Fields} (h : Ready rest s)
    (hprepared : s.prepared = some (itemId, payload)) :
    Obeys deliveryWatch (fun s' r => Ready rest s' ∧
      (r = .ok () → s'.sent = some (itemId, payload)) ∧
        ∀ x, r = .error x → x.isException = false → s'.troubled = true) s (sendItem payload) := by
  unfold sendItem
  cases imageDigest payload with
  | none => exact send_obeys h hprepared
  | some digest =>
      dsimp only
      rw [Obeys.bind_iff]
      cases digest with
      | str digest =>
          refine Obeys.mono (obeys_quiet (quiet_load digest)) fun s' r hr => ?_
          have hready := h.same hr.1
          cases r with
          | error x => exact ⟨hready, nofun, fun y hy => by cases hy; exact hr.2 x rfl⟩
          | ok evidence => exact send_obeys hready (hr.1.prepared.trans hprepared)
      | _ => exact ⟨h, nofun, fun y hy => by cases hy; exact nofun⟩

theorem attemptItem_obeys (hcall : s.call = .runOnce) (hplan : s.plan = some rest)
    (htaken : s.taken = some itemId) :
    Obeys deliveryWatch (Attempted rest itemId) s (attemptItem itemId) := by
  unfold attemptItem
  rw [Obeys.bind_iff]
  refine (obeys_counted quiet_clock rfl).mono fun s₁ r hr => ?_
  obtain ⟨more, rfl⟩ := hr.1
  cases r with
  | error x => exact ⟨⟨hcall, hplan, .inr (hr.2 x rfl)⟩, nofun, fun _ _ _ => hr.2 x rfl⟩
  | ok attemptedAt =>
      dsimp only
      rw [Obeys.bind_iff]
      refine Obeys.perform ⟨hcall, htaken⟩ fun r _ => ?_
      cases r with
      | error x =>
          refine ⟨⟨hcall, hplan, .inl rfl⟩, nofun, ?_⟩
          rintro y ⟨⟩ hx
          simp [DeliveryEff.trouble, hx]
      | ok payload =>
          cases payload with
          | none => exact ⟨⟨hcall, hplan, .inl rfl⟩, nofun, nofun⟩
          | some payload =>
              dsimp only
              rw [Obeys.bind_iff, Obeys.ofExcept_iff]
              cases hlog : loggedSend payload with
              | error x =>
                  refine ⟨⟨hcall, hplan, .inl rfl⟩, nofun, ?_⟩
                  rintro y ⟨⟩ hx
                  rw [loggedSend_isException hlog] at hx
                  cases hx
              | ok u =>
                  dsimp only
                  rw [Obeys.bind_iff]
                  refine Obeys.mono (sendItem_obeys ⟨hcall, hplan, .inl rfl⟩ rfl) ?_
                  rintro s' (x | ⟨⟩) ⟨hready, hok, herror⟩
                  · exact ⟨hready, nofun, fun y hy => by cases hy; exact herror x rfl⟩
                  · exact ⟨hready, fun p hp => by cases hp; exact hok rfl, nofun⟩

theorem completeItem_obeys {payload : Fields} (hsent : s.sent = some (itemId, payload)) :
    Obeys deliveryWatch (fun s' r => Calm s s' r) s (completeItem itemId payload) := by
  unfold completeItem
  rw [Obeys.bind_iff]
  refine Obeys.mono (obeys_quiet quiet_clock) fun s₁ r hr => ?_
  cases r with
  | error x => exact ⟨hr.1, fun y hy => by cases hy; exact hr.2 x rfl⟩
  | ok acknowledgedAt =>
      refine Obeys.perform ⟨payload, rfl, hr.1.sent.trans hsent⟩ fun r _ => ?_
      refine ⟨hr.1.trans ⟨(DeliveryEff.store _).trouble r, ?_⟩, ?_⟩
      · cases r <;> rfl
      · rintro x rfl hx
        simp [DeliveryEff.trouble, hx]

theorem releaseEvidence_obeys (payload : Fields) :
    Obeys deliveryWatch (fun s' r => Same s s' ∧ ∀ x, r = .error x → s'.troubled = true) s
      (releaseEvidence payload) := by
  unfold releaseEvidence
  split
  · next digest hdigest =>
    unfold pendingEvidenceDigests
    rw [Obeys.bind_iff, Obeys.bind_iff]
    refine Obeys.mono (obeys_counted quiet_outboxDigests rfl) fun s₁ r h₁ => ?_
    cases r with
    | error x => exact ⟨h₁.1, fun _ _ => h₁.2 x rfl⟩
    | ok rows =>
        dsimp only
        rw [Obeys.bind_iff]
        refine Obeys.mono (obeys_counted quiet_claimDigests rfl) fun s₂ r h₂ => ?_
        cases r with
        | error x => exact ⟨h₁.1.trans h₂.1, fun _ _ => h₂.2 x rfl⟩
        | ok claims =>
            change Obeys _ _ _ (if digest ∈ rows ++ claims then _ else _)
            split
            · exact ⟨h₁.1.trans h₂.1, nofun⟩
            · refine Obeys.mono (obeys_exceptException (obeys_quiet (quiet_delete digest))) ?_
              exact fun s₃ r h₃ => ⟨(h₁.1.trans h₂.1).trans h₃.1, h₃.2⟩
  · exact ⟨.refl s, nofun⟩

theorem acknowledge_obeys {payload : Fields} (h : Ready rest s)
    (hsent : s.sent = some (itemId, payload)) :
    Obeys deliveryWatch (Went rest) s (acknowledge itemId payload) := by
  unfold acknowledge
  rw [Obeys.bind_iff, Obeys.attempt_iff]
  refine Obeys.mono (completeItem_obeys hsent) fun s₁ r h₁ => ?_
  have hready := h.same h₁.1
  cases r with
  | error x =>
      dsimp only
      cases hx : x.isException with
      | true => exact ⟨hready, nofun⟩
      | false => exact ⟨hready, fun _ _ => h₁.2 x rfl hx⟩
  | ok u =>
      dsimp only
      rw [Obeys.bind_iff]
      refine Obeys.mono (releaseEvidence_obeys payload) fun s₂ r h₂ => ?_
      cases r with
      | error x => exact ⟨hready.same h₂.1, fun _ _ => h₂.2 x rfl⟩
      | ok u => exact ⟨hready.same h₂.1, nofun⟩

theorem deliverItem_obeys (h : Ready (itemId :: rest) s) :
    Obeys deliveryWatch (Went rest) s (deliverItem itemId) := by
  unfold deliverItem
  rw [Obeys.bind_iff]
  refine Obeys.perform ⟨h.call, ⟨rest, h.plan⟩, h.taken⟩ fun r hr => ?_
  cases (show r = .ok () from hr)
  dsimp only
  rw [Obeys.bind_iff, Obeys.attempt_iff]
  have hplan : s.plan.map List.tail = some rest := by rw [h.plan]; rfl
  refine Obeys.mono (attemptItem_obeys h.call hplan rfl) fun s₁ r h₁ => ?_
  obtain ⟨hready, hsent, herror⟩ := h₁
  cases r with
  | error x =>
      dsimp only
      cases hx : x.isException with
      | true =>
          rw [if_pos rfl, Obeys.bind_iff]
          refine Obeys.mono (obeys_exceptException (obeys_quiet (quiet_retry itemId))) ?_
          rintro s₂ (x | u) h₂
          · exact ⟨hready.same h₂.1, fun _ _ => h₂.2 x rfl⟩
          · exact ⟨hready.same h₂.1, nofun⟩
      | false => exact ⟨hready, fun _ _ => herror x rfl hx⟩
  | ok payload =>
      cases payload with
      | none => exact ⟨hready, nofun⟩
      | some payload => exact acknowledge_obeys hready (hsent payload rfl)

theorem deliverAll_obeys (items : List Nat) (h : Ready items s) :
    Obeys deliveryWatch (fun s' r => (r.toOption.isSome → Ready [] s') ∧
      ∀ x, r = .error x → s'.troubled = true) s (deliverAll items) := by
  induction items generalizing s with
  | nil => exact ⟨fun _ => h, nofun⟩
  | cons itemId rest ih =>
      rw [deliverAll, Obeys.bind_iff]
      refine Obeys.mono (deliverItem_obeys h) fun s₁ r h₁ => ?_
      cases r with
      | error x => exact ⟨nofun, fun _ _ => h₁.2 x rfl⟩
      | ok completed =>
          dsimp only
          rw [Obeys.bind_iff]
          refine Obeys.mono (ih h₁.1) fun s₂ r h₂ => ?_
          cases r with
          | error x => exact ⟨nofun, fun _ _ => h₂.2 x rfl⟩
          | ok more => exact ⟨fun _ => h₂.1 rfl, nofun⟩

/-! ## Calls -/

theorem quiet_store {op : DeliveryOp} (h : op.isWorkers = false) : Quiet (.store op) := by
  cases op with
  | prepareOutboxAttempt itemId attemptedAt => cases h
  | markOutboxRetry itemId => cases h
  | completeOutboxItem itemId completedAt prepared => cases h
  | _ => exact ⟨fun _ => trivial, fun _ _ => rfl, fun _ => rfl⟩

/-- What a call owes at its end. -/
structure Concludes (s : DeliveryWatch) (r : Except Exc DeliveryResult) : Prop where
  /-- The rows of the round were all taken and prepared. -/
  passed : ∀ n, r = .ok (.passed n) → Ready [] s
  done : r = .ok .done → s.call ≠ .runOnce
  /-- `run_once` raises only if there was trouble. -/
  error : ∀ x, r = .error x → s.call = .runOnce → s.troubled = true

/-- A date may be too early, which is an `OverflowError`. -/
theorem minus_isException {value : DateTime} {delta : Int} {x : Exc}
    (h : DateTime.minus value delta = .error x) : x.isException = true := by
  unfold DateTime.minus at h
  split at h <;> cases h
  rfl

theorem runRetention_obeys (cfg : DeliveryConfig) (now : DateTime) :
    Obeys deliveryWatch (fun s' r => Same s s' ∧ ∀ x, r = .error x → s'.troubled = true) s
      (runRetention cfg now) := by
  unfold runRetention
  rw [Obeys.bind_iff]
  refine Obeys.perform trivial fun r hr => ?_
  obtain ⟨last, rfl⟩ := hr
  have hsame : Same s (deliveryWatch.next s .lastRetentionAt (.ok last)) := ⟨false, rfl⟩
  dsimp only
  split
  · exact ⟨hsame, nofun⟩
  · rw [Obeys.bind_iff]
    refine Obeys.perform trivial fun r hr => ?_
    cases (show r = .ok () from hr)
    have hsame' : Same s (deliveryWatch.next _ (.setLastRetentionAt now) (.ok ())) :=
      hsame.trans ⟨false, rfl⟩
    refine Obeys.mono (obeys_exceptException ?_) fun s₁ r h₁ => ⟨hsame'.trans h₁.1, h₁.2⟩
    rw [Obeys.bind_iff, Obeys.ofExcept_iff]
    cases hminus : DateTime.minus now (cfg.telemetryRetentionDays * 86400000000) with
    | error x =>
        refine ⟨.refl _, fun y hy hx => ?_⟩
        cases hy
        rw [minus_isException hminus] at hx
        cases hx
    | ok cutoff =>
        dsimp only
        rw [Obeys.bind_iff]
        refine Obeys.mono (obeys_quiet (quiet_purge cutoff)) ?_
        rintro s₁ (x | u) h₁
        · exact ⟨h₁.1, fun y hy => by cases hy; exact h₁.2 x rfl⟩
        · exact ⟨h₁.1, nofun⟩

theorem runOnce_obeys (cfg : DeliveryConfig) :
    Obeys deliveryWatch (fun s r => (r.toOption.isSome → Ready [] s) ∧
      ∀ x, r = .error x → s.troubled = true) { call := .runOnce } (runOnce cfg) := by
  unfold runOnce
  rw [Obeys.bind_iff]
  refine (obeys_counted quiet_clock rfl).mono fun s₁ r h₁ => ?_
  cases r with
  | error x => exact ⟨nofun, fun _ _ => h₁.2 x rfl⟩
  | ok now =>
      dsimp only
      rw [Obeys.bind_iff]
      refine (runRetention_obeys cfg now).mono fun s₂ r h₂ => ?_
      obtain ⟨more, rfl⟩ := h₁.1.trans h₂.1
      cases r with
      | error x => exact ⟨nofun, fun _ _ => h₂.2 x rfl⟩
      | ok u =>
          dsimp only
          rw [Obeys.bind_iff]
          refine Obeys.perform trivial fun r hr => ?_
          obtain ⟨cursor, rfl⟩ := hr
          dsimp only
          rw [Obeys.bind_iff]
          refine Obeys.perform ⟨rfl, rfl, rfl⟩ fun r _ => ?_
          cases r with
          | error x => exact ⟨nofun, fun _ _ => by simp [DeliveryEff.trouble, DeliveryEff.counted]⟩
          | ok items => exact deliverAll_obeys _ ⟨rfl, rfl, .inl rfl⟩

/-- A call made of quiet operations only. -/
theorem obeys_quietly {p : DeliveryProg α} (h : p.Only Quiet) :
    Obeys deliveryWatch (fun s' _ => s'.call = s.call) s p := by
  induction p generalizing s with
  | ret a => rfl
  | raise x => rfl
  | call e k ih =>
      refine ⟨h.1.1 s, fun r _ => ?_⟩
      rw [deliveryWatch_next, h.1.next]
      exact Obeys.mono (ih r (h.2 r)) fun _ _ hs => hs

theorem Only.exceptException {F : DeliveryEff → Prop} {p q : DeliveryProg α} (hp : p.Only F)
    (hq : q.Only F) : (exceptException p q).Only F := by
  refine (Prog.Only.attempt hp).bind fun r => ?_
  cases r with
  | ok a => trivial
  | error x =>
      dsimp only
      split
      · exact hq
      · trivial

theorem cleanup_quiet (pending spooled : List String) : (cleanup pending spooled).Only Quiet := by
  induction spooled with
  | nil => trivial
  | cons digest rest ih =>
      unfold cleanup
      split
      · exact ih
      · exact Prog.Only.bind (Prog.Only.perform_iff.2 (quiet_delete digest)) fun _ => ih

theorem construct_quiet (cfg : DeliveryConfig) : (construct cfg).Only Quiet := by
  have hquiet : Quiet .pendingPayloads ∧ Quiet .spooled :=
    ⟨⟨fun _ => trivial, fun _ _ => rfl, fun _ => rfl⟩,
      fun _ => trivial, fun _ _ => rfl, fun _ => rfl⟩
  refine Only.exceptException ?_ trivial
  refine Prog.Only.bind (Prog.Only.perform_iff.2 hquiet.1) fun rows => ?_
  refine Prog.Only.bind (Prog.Only.perform_iff.2 (quiet_store rfl)) fun _ => ?_
  refine Prog.Only.bind ?_ fun pending => ?_
  · refine Prog.Only.bind (Prog.Only.perform_iff.2 quiet_outboxDigests) fun _ => ?_
    exact Prog.Only.bind (Prog.Only.perform_iff.2 quiet_claimDigests) fun _ => trivial
  · refine Prog.Only.bind (Prog.Only.perform_iff.2 hquiet.2) fun spooled => ?_
    exact cleanup_quiet pending spooled

theorem submit_quiet (digest : Option String) {call : DeliveryOp} (h : call.isWorkers = false) :
    (submit digest call).Only Quiet := by
  refine Prog.Only.bind ?_ fun _ => ?_
  · cases digest with
    | none => trivial
    | some digest =>
        exact Prog.Only.perform_iff.2 ⟨fun _ => trivial, fun _ _ => rfl, fun _ => rfl⟩
  · exact Prog.Only.bind (Prog.Only.perform_iff.2 (quiet_store h)) fun _ => trivial

/-- Every call keeps to the rules. -/
theorem program_obeys (cfg : DeliveryConfig) {call : DeliveryCall} {st st' : DeliveryState}
    (haccept : accept st call = some st') :
    Obeys deliveryWatch Concludes { call } (program cfg call) := by
  have hquiet : ∀ {p : DeliveryProg Unit}, call ≠ .runOnce → p.Only Quiet →
      Obeys deliveryWatch Concludes { call } (do
        p
        return DeliveryResult.done) := by
    intro p hcall hp
    rw [Obeys.bind_iff]
    refine Obeys.mono (obeys_quietly hp) fun s r hs => ?_
    have hne : s.call ≠ .runOnce := fun h => hcall (hs.symm.trans h)
    cases r with
    | error x => exact ⟨nofun, nofun, fun _ _ h => absurd h hne⟩
    | ok u => exact ⟨nofun, fun _ => hne, nofun⟩
  cases call with
  | construct => exact hquiet nofun (construct_quiet cfg)
  | runOnce =>
      unfold program
      rw [Obeys.bind_iff]
      refine (runOnce_obeys cfg).mono ?_
      rintro s (x | n) h
      · exact ⟨nofun, nofun, fun _ _ _ => h.2 x rfl⟩
      · exact ⟨fun _ _ => h.1 rfl, nofun, nofun⟩
  | submit digest call =>
      refine hquiet nofun (submit_quiet digest ?_)
      change (if call.isWorkers then none else some st) = some st' at haccept
      split at haccept
      · cases haccept
      · next h => simpa using h

end OutboxWorker

end GateController

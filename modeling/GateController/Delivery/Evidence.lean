import GateController.Delivery.Acknowledged
import GateController.Store.Frame

/-!
# What keeps a frame in the spool

The spool is addressed by content, so two events whose frames are the same share one file.
The worker deletes a file after it has read which digests are still needed.  That reading and
the deletion are two steps, and so are the staging of a frame and the transaction that stores
its digest.  A transaction that falls between the reading and the deletion, or a deletion that
falls between the staging and the transaction, leaves a row without its frame.

`Careful` is the condition on a step that rules out both.  It looks back in the log only as
far as the reading, or the staging.  Along a run whose steps meet it, every digest that is
needed has its file (`needed_files_kept`).
-/

namespace GateController

open Data Effects LocalStore Delivery OutboxWorker

/-! ## Digests -/

/-- The digest that a call of the store is given. -/
def StoreOp.evidence (op : StoreOp) : Option String :=
  op.carried.bind fun payload => evidenceDigest (.json (.obj payload))

/-- The digest that a call is given. -/
def DeliveryOp.evidence : DeliveryOp → Option String
  | .store op _ => op.evidence
  | _ => none

/-- Whether a call queues what interrupted calls have left behind. -/
def DeliveryOp.recovers : DeliveryOp → Bool
  | .store .recoverInterruptedActuations _ => true
  | _ => false

/-- What the rows and the claims need. -/
def neededDigests (t : Tables) : List String := outboxDigests t ++ claimDigests t

section Digests

variable {t t' : Tables} {d : String} {payload : Fields} {value : Json}

/-- The digest of a payload does not depend on its trace. -/
theorem evidenceDigest_of_content {p q : Fields} (h : content p = content q) :
    evidenceDigest (.json (.obj p)) = evidenceDigest (.json (.obj q)) := by
  simp only [evidenceDigest, get?_of_content_eq h (by decide : "image_sha256" ≠ "telemetry")
    (by decide)]

theorem mem_outboxDigests : d ∈ outboxDigests t ↔ ∃ id row, t.db.outbox.find? id = some row ∧
    row.completedAt = none ∧ evidenceDigest row.payload = some d := by
  unfold outboxDigests
  rw [List.mem_filterMap]
  constructor
  · rintro ⟨⟨id, row⟩, hmem, h⟩
    unfold pending at h
    split at h
    next hpending =>
      exact ⟨id, row, Table.find?_eq_some_iff.2 hmem, Option.isNone_iff_eq_none.1 hpending, h⟩
    next => cases h
  · rintro ⟨id, row, hrow, hpending, h⟩
    refine ⟨(id, row), Table.find?_eq_some_iff.1 hrow, ?_⟩
    rw [pending, if_pos (Option.isNone_iff_eq_none.2 hpending)]
    exact h

theorem mem_claimDigests : d ∈ claimDigests t ↔ ∃ id row, t.db.claims.find? id = some row ∧
    row.state = .claimed ∧ row.pendingOutboxPayload.bind evidenceDigest = some d := by
  unfold claimDigests
  rw [List.mem_filterMap]
  constructor
  · rintro ⟨⟨id, row⟩, hmem, h⟩
    split at h
    next hclaimed => exact ⟨id, row, Table.find?_eq_some_iff.2 hmem, hclaimed, h⟩
    next => cases h
  · rintro ⟨id, row, hrow, hclaimed, h⟩
    refine ⟨(id, row), Table.find?_eq_some_iff.1 hrow, ?_⟩
    rw [if_pos hclaimed]
    exact h

/-- A new row needs what was put over its event. -/
theorem digest_outboxPayload {db : Db} {eventId : Nat} (h : (payload.map Prod.fst).Nodup) :
    evidenceDigest (.json (.obj (outboxPayload db eventId payload))) =
      evidenceDigest (.json (.obj payload)) := by
  have hevent : Fields.get? ((eventPayload db eventId).getD []) "image_sha256" = none := by
    unfold eventPayload
    cases db.events.find? eventId <;> rfl
  have hencoded : Fields.get? (Fields.update ((eventPayload db eventId).getD [])
      (Fields.erase payload "_awaiting_telemetry")) "image_sha256" =
        Fields.get? payload "image_sha256" := by
    rw [Fields.get?_update _ (Fields.nodup_erase h _), hevent, Option.or_none,
      Fields.get?_erase_ne (by decide)]
  have hget : Fields.get? (outboxPayload db eventId payload) "image_sha256" =
      Fields.get? payload "image_sha256" := by
    unfold outboxPayload
    dsimp only
    split
    · rw [Fields.get?_set_ne (by decide), hencoded]
    · rw [Fields.get?_set_ne (by decide), hencoded]
    · exact hencoded
  simp only [evidenceDigest, hget]

end Digests

/-! ## What a call makes of the digests -/

/-- The payload that a call is given is a `dict`. -/
def DeliveryOp.CarriesDict : DeliveryOp → Prop
  | .store op _ => ∀ payload ∈ op.carried, (payload.map Prod.fst).Nodup
  | _ => True

instance : (op : DeliveryOp) → Decidable op.CarriesDict
  | .store op _ => inferInstanceAs (Decidable (∀ payload ∈ op.carried, _))
  | .attachEventTelemetry _ _ | .prepareOutboxAttempt _ _ | .markOutboxRetry _
  | .completeOutboxItem _ _ _ | .purgeDeliveredTelemetry _ | .purgeUnqueuedTelemetry _
  | .bindPendingOutboxController _ | .rebindRows _ _ => isTrue trivial

/-- A claim keeps a payload while it is open, and the payload is a `dict`. -/
def ClaimsKeepDicts (t : Tables) : Prop :=
  ∀ id row payload, t.db.claims.find? id = some row →
    row.pendingOutboxPayload = some (.json (.obj payload)) →
    row.state = .claimed ∧ (payload.map Prod.fst).Nodup

section Calls

variable {w : Weather} {t : Tables} {op : DeliveryOp} {d : String}

/-- A row that waits after a call needs what it needed before, or what the call was given, or
what recovery found in a claim. -/
theorem DeliveryOp.run_outboxDigests (hbinds : op.binds = false) (hdict : op.CarriesDict)
    (hclaims : ClaimsKeepDicts t) (h : d ∈ outboxDigests (op.run w t).2) :
    d ∈ outboxDigests t ∨ op.evidence = some d ∨ op.recovers = true ∧ d ∈ claimDigests t := by
  obtain ⟨id, row', hrow', hpending', hd⟩ := mem_outboxDigests.1 h
  cases hstore : op.isStore with
  | false =>
      have hevolves := DeliveryOp.run_evolves (w := w) (t := t) hstore
      cases hold : t.db.outbox.find? id with
      | none =>
          rw [hevolves.absent id hold] at hrow'
          cases hrow'
      | some row =>
          obtain ⟨row₁, hrow₁, hchange⟩ := hevolves.row id row hold
          cases hrow'.symm.trans hrow₁
          refine .inl (mem_outboxDigests.2 ⟨id, row, hold, ?_⟩)
          cases hchange with
          | kept => exact ⟨hpending', hd⟩
          | @traced payload base telemetry _ _ hpending hpayload hbase =>
              have hcontent : content (traced base telemetry) = content payload := by
                rw [content_traced, hbase]
              rw [hpayload, ← evidenceDigest_of_content hcontent]
              exact ⟨hpending, hd⟩
          | @untraced payload hpending hpayload =>
              rw [hpayload, ← evidenceDigest_of_content (content_untraced payload)]
              exact ⟨hpending, hd⟩
          | completed => cases hpending'
          | settled hdone => exact absurd hpending' hdone
          | purged _ hdone => exact absurd hpending' hdone
          | bound hselected =>
              cases op with
              | rebindRows controllerId rows => cases hbinds
              | bindPendingOutboxController controllerId => cases hbinds
              | _ => exact hselected.elim
  | true =>
      cases op with
      | store op other =>
          obtain ⟨hstep, -⟩ := DeliveryOp.run_store (w := w) (t := t)
          cases hold : t.db.outbox.find? id with
          | some row =>
              refine .inl (mem_outboxDigests.2 ⟨id, row, hold, ?_⟩)
              rcases hstep.row id row hold with hsame | ⟨hpending, -, hready⟩
              · cases hrow'.symm.trans hsame
                exact ⟨hpending', hd⟩
              · cases hrow'.symm.trans hready
                exact ⟨hpending, hd⟩
          | none =>
              obtain ⟨payload, hnew⟩ := hstep.new id row' hold hrow'
              rw [hnew.text] at hd
              have hgiven : ∀ p, op.carried = some p → p = payload →
                  (DeliveryOp.store op other).evidence = some d := by
                rintro p hp rfl
                rw [digest_outboxPayload (hdict p hp)] at hd
                rw [DeliveryOp.evidence, StoreOp.evidence, hp]
                exact hd
              have hsupplied := hnew.supplied
              refine .inr ?_
              cases op with
              | finalizeActuation a => exact .inl (hgiven _ hsupplied rfl)
              | recordTerminalOutcome a => exact .inl (hgiven _ hsupplied rfl)
              | recordEventWithOutbox event p => exact .inl (hgiven _ hsupplied rfl)
              | ensureOutbox id p => exact .inl (hgiven _ hsupplied.2 rfl)
              | recoverInterruptedActuations =>
                  obtain ⟨i, claim, event, ack, hclaim, hpending⟩ := hsupplied
                  have htext := pendingOutboxPayload_of_pendingOf hpending
                  obtain ⟨hopen, hnodup⟩ := hclaims i claim payload hclaim htext
                  rw [digest_outboxPayload hnodup] at hd
                  refine .inr ⟨rfl, mem_claimDigests.2 ⟨i, claim, hclaim, hopen, ?_⟩⟩
                  rw [htext]
                  exact hd
              | _ => exact hsupplied.elim
      | _ => cases hstore

/-- The claims after a call. -/
theorem DeliveryOp.run_claims {id : Nat} {row : ClaimRow}
    (h : (op.run w t).2.db.claims.find? id = some row) :
    t.db.claims.find? id = some row ∨ row.pendingOutboxPayload = none ∨ row.state = .claimed ∧
      ∃ sop other, op = .store sop other ∧
        row.pendingOutboxPayload = encodeOptionalJson sop.carried := by
  cases op with
  | store op other =>
      rcases StoreOp.run_pendingPayload Prod.mk.eta.symm h with hold | hnone | ⟨hopen, hcarried⟩
      · exact .inl hold
      · exact .inr (.inl hnone)
      · exact .inr (.inr ⟨hopen, op, other, rfl, hcarried⟩)
  | _ =>
      rw [(DeliveryOp.run_evolves (w := w) (t := t) rfl).others] at h
      exact .inl h

/-- An open claim needs after a call what it needed before, or what the call was given. -/
theorem DeliveryOp.run_claimDigests (h : d ∈ claimDigests (op.run w t).2) :
    d ∈ claimDigests t ∨ op.evidence = some d := by
  obtain ⟨id, row, hrow, hopen, hd⟩ := mem_claimDigests.1 h
  rcases DeliveryOp.run_claims hrow with hold | hnone | ⟨-, sop, other, rfl, hcarried⟩
  · exact .inl (mem_claimDigests.2 ⟨id, row, hold, hopen, hd⟩)
  · rw [hnone] at hd
    cases hd
  · refine .inr ?_
    rw [hcarried] at hd
    rw [DeliveryOp.evidence, StoreOp.evidence]
    cases hp : sop.carried with
    | none =>
        rw [hp] at hd
        cases hd
    | some payload =>
        rw [hp] at hd
        exact hd

theorem ClaimsKeepDicts.run (h : ClaimsKeepDicts t) (hdict : op.CarriesDict) :
    ClaimsKeepDicts (op.run w t).2 := by
  intro id row payload hrow htext
  rcases DeliveryOp.run_claims hrow with hold | hnone | ⟨hopen, sop, other, rfl, hcarried⟩
  · exact h id row payload hold htext
  · rw [hnone] at htext
    cases htext
  · rw [hcarried] at htext
    obtain ⟨p, hp, heq⟩ := Option.map_eq_some_iff.1 htext
    cases heq
    exact ⟨hopen, hdict payload hp⟩

/-- The claim that a call is for. -/
def DeliveryOp.claim : DeliveryOp → Option ActuationClaim
  | .store (.markActuationAttempt a) _ => some a.claim
  | .store (.finalizeActuation a) _ => some a.claim
  | _ => none

/-- The claim is open and keeps the digest, or it is not open any more. -/
def keepsDigest (t : Tables) (d : String) (claim : ActuationClaim) : Bool :=
  match claim.claimId.bind t.db.claims.find? with
  | some row => row.state != .claimed || row.pendingOutboxPayload.bind evidenceDigest == some d
  | none => true

theorem mem_claimDigests_of_keepsDigest {claim : ActuationClaim} {id : Nat} {row : ClaimRow}
    (h : keepsDigest t d claim = true) (hid : claim.claimId = some id)
    (hrow : t.db.claims.find? id = some row) (hopen : row.state = .claimed) :
    d ∈ claimDigests t := by
  simp only [keepsDigest, hid, Option.bind_some, hrow, hopen, bne_self_eq_false, Bool.false_or,
    beq_iff_eq] at h
  exact mem_claimDigests.2 ⟨id, row, hrow, hopen, h⟩

/-- A call that goes through for an open claim is given what the claim keeps. -/
theorem DeliveryOp.run_claim {claim : ActuationClaim} {a : op.Ans} (hclaim : op.claim = some claim)
    (h : keepsDigest t d claim = true) (hok : (op.run w t).1 = .ok a) : d ∈ claimDigests t := by
  have hrun : ∀ {sop : StoreOp} {answer : sop.Ans}, (sop.run w.now w.fault t.db).1 = .ok answer →
      sop.txn w.now t.db = (.ok answer, (sop.txn w.now t.db).2) := by
    intro sop answer hanswer
    cases hfault : w.fault with
    | some x =>
        rw [hfault] at hanswer
        cases hanswer
    | none =>
        rw [hfault] at hanswer
        exact Prod.ext hanswer rfl
  cases op with
  | store op other =>
      cases op with
      | markActuationAttempt args =>
          cases hclaim
          obtain ⟨id, row, _, -, hid, hrow, hopen, -⟩ := markActuationAttempt_ok (hrun hok)
          exact mem_claimDigests_of_keepsDigest h hid hrow hopen
      | finalizeActuation args =>
          cases hclaim
          obtain ⟨id, row, _, _, -, -, hid, hrow, hopen, -⟩ := finalizeActuation_ok (hrun hok)
          exact mem_claimDigests_of_keepsDigest h hid hrow hopen
      | _ => cases hclaim
  | _ => cases hclaim

/-- A call of the store that fails changes nothing. -/
theorem DeliveryOp.run_store_error {sop : StoreOp} {other : sop.attaches = false} {x : Exc}
    (h : ((DeliveryOp.store sop other).run w t).1 = .error x) :
    ((DeliveryOp.store sop other).run w t).2 = t := by
  have hdb : (sop.run w.now w.fault t.db).2 = t.db := sop.run_error (Prod.ext h rfl)
  exact congrArg (fun db => { t with db }) hdb

end Calls

/-! ## Looking back -/

/-- An entry with `p` stands in front of the newest one with `stop`. -/
def since {α : Type} (stop p : α → Bool) (log : List α) : Bool :=
  (log.takeWhile fun x => !stop x).any p

theorem since_cons {α : Type} (stop p : α → Bool) (x : α) (log : List α) :
    since stop p (x :: log) = (!stop x && (p x || since stop p log)) := by
  unfold since
  rw [List.takeWhile_cons]
  cases stop x <;> simp

/-- An entry of the log of the delivery. -/
abbrev DeliveryEvent := Event DeliveryEff DeliveryEff.Ans Exc DeliveryCall DeliveryResult

/-- The entry stores the digest, or may do so. -/
def stores (d : String) : DeliveryEvent → Bool
  | .did _ (.store op) (.ok _) => op.recovers || op.evidence == some d
  | _ => false

/-- The call begins to read which digests are needed. -/
def reads (c : CallId) : DeliveryEvent → Bool
  | .did c' .outboxDigests (.ok _) => c' == c
  | _ => false

/-- The entry puts the file into the spool. -/
def stages (d : String) : DeliveryEvent → Bool
  | .did _ (.stage d') (.ok _) => d' == d
  | _ => false

/-- The entry takes the file out of the spool. -/
def deletes (d : String) : DeliveryEvent → Bool
  | .did _ (.delete d') (.ok _) => d' == d
  | _ => false

/-- The operation that a call performs next. -/
def nextOp (w : DeliveryWorld) (c : CallId) : Option DeliveryEff :=
  match w.running c with
  | some (.call e _) => some e
  | _ => none

theorem nextOp_of_running {w : DeliveryWorld} {c : CallId} {e : DeliveryEff}
    {k : Except Exc e.Ans → DeliveryProg DeliveryResult} (h : w.running c = some (.call e k)) :
    nextOp w c = some e := by
  rw [nextOp, h]

/-- The file of the digest was staged and not deleted since, or the open claim that the call is
for keeps the digest. -/
def Spooled (w : DeliveryWorld) (op : DeliveryOp) (d : String) : Prop :=
  since (deletes d) (stages d) w.log = true ∨
    op.claim.any (keepsDigest w.state.tables d) = true

/-- A transaction stores a digest only while its file is spooled, and a file is deleted only if
no transaction has stored its digest since the worker began to read which are needed. -/
def TakesCare (w : DeliveryWorld) (c : CallId) : DeliveryEff → Prop
  | .store op => op.CarriesDict ∧ ∀ d ∈ op.evidence, Spooled w op d
  | .delete d => since (reads c) (stores d) w.log = false
  | _ => True

/-- No worker is constructed, and every operation takes care of the files. -/
def Careful (w : DeliveryWorld) : Choice DeliveryEnv DeliveryCall → Prop
  | .begin _ .construct => False
  | .begin _ .runOnce => True
  | .begin _ (.submit _ op) => op.binds = false
  | .step c _ => ∀ e ∈ nextOp w c, TakesCare w c e
  | .crash _ _ => True

instance (w : DeliveryWorld) (op : DeliveryOp) (d : String) : Decidable (Spooled w op d) :=
  inferInstanceAs (Decidable (_ ∨ _))

instance (w : DeliveryWorld) (c : CallId) : (e : DeliveryEff) → Decidable (TakesCare w c e)
  | .store op => inferInstanceAs (Decidable (op.CarriesDict ∧ ∀ d ∈ op.evidence, Spooled w op d))
  | .delete d => inferInstanceAs (Decidable (since (reads c) (stores d) w.log = false))
  | .clock | .pendingOutboxItems _ | .pendingPayloads | .outboxDigests | .claimDigests
  | .lastItemId | .setLastItemId _ | .lastRetentionAt | .setLastRetentionAt _ | .stage _
  | .load _ | .spooled | .send _ _ => isTrue trivial

instance (w : DeliveryWorld) : (ch : Choice DeliveryEnv DeliveryCall) → Decidable (Careful w ch)
  | .begin _ .construct => isFalse id
  | .begin _ .runOnce => isTrue trivial
  | .begin _ (.submit _ op) => inferInstanceAs (Decidable (op.binds = false))
  | .step c _ => inferInstanceAs (Decidable (∀ e ∈ nextOp w c, TakesCare w c e))
  | .crash _ _ => isTrue trivial

theorem Careful.atWork {w : DeliveryWorld} {ch : Choice DeliveryEnv DeliveryCall}
    (h : Careful w ch) : AtWork w ch := by
  cases ch with
  | begin c call => cases call <;> exact h
  | _ => trivial

/-! ## What the worker reads before it deletes -/

/-- What a call has read of the digests that are needed. -/
structure NeedsWatch where
  rows : Option (List String) := none
  claims : Option (List String) := none

/-- The claims are read after the rows. -/
def NeedsWatch.next (s : NeedsWatch) : (e : DeliveryEff) → Except Exc e.Ans → NeedsWatch
  | .outboxDigests, .ok rows => ⟨some rows, none⟩
  | .claimDigests, .ok claims => { s with claims := some claims }
  | _, _ => s

/-- A file is deleted only if neither reading has its digest. -/
def NeedsWatch.allow (s : NeedsWatch) : DeliveryEff → Prop
  | .delete d => ∃ rows claims, s.rows = some rows ∧ s.claims = some claims ∧
      d ∉ rows ∧ d ∉ claims
  | _ => True

/-- The rules of the release of evidence. -/
def needsWatch : Protocol DeliveryEff DeliveryEff.Ans Exc DeliveryCall NeedsWatch where
  start _ := {}
  next := NeedsWatch.next
  allow := NeedsWatch.allow
  expect _ _ _ := True

namespace OutboxWorker

section Obeys

variable {α : Type} {s : NeedsWatch}

/-- Nothing is said of how a program ends. -/
def Anyhow (_ : NeedsWatch) (_ : Except Exc α) : Prop := True

theorem ignores_routine {e : DeliveryEff} (h : Routine e) : needsWatch.Ignores s e := by
  cases e with
  | outboxDigests => exact h.elim
  | claimDigests => exact h.elim
  | delete digest => exact h.elim
  | _ => exact ⟨trivial, fun _ => rfl⟩

theorem routine_needs {p : DeliveryProg α} (hp : p.Only Routine) :
    Obeys needsWatch Anyhow s p :=
  (Obeys.of_only hp fun _ => ignores_routine).mono fun _ _ _ => trivial

theorem bind_needs {β : Type} {p : DeliveryProg α} {f : α → DeliveryProg β}
    (hp : Obeys needsWatch Anyhow s p) (hf : ∀ s a, Obeys needsWatch Anyhow s (f a)) :
    Obeys needsWatch Anyhow s (p >>= f) :=
  hp.bind (fun s a _ => hf s a) fun _ _ _ => trivial

theorem pendingEvidenceDigests_needs :
    Obeys needsWatch (fun s' r => ∀ pending, r = .ok pending → ∃ rows claims,
      s'.rows = some rows ∧ s'.claims = some claims ∧ pending = rows ++ claims) s
      pendingEvidenceDigests := by
  refine Obeys.bind (R := fun s' r => ∀ rows, r = .ok rows → s'.rows = some rows)
    (Obeys.perform trivial ?_) (fun s' rows hs' => ?_) fun s' x _ pending h => by cases h
  · rintro r - rows rfl
    rfl
  · refine Obeys.bind (R := fun s'' r => ∀ claims, r = .ok claims →
      s''.rows = some rows ∧ s''.claims = some claims)
      (Obeys.perform trivial ?_) (fun s'' claims hs'' => ?_) fun s' x _ pending h => by cases h
    · rintro r - claims rfl
      exact ⟨hs' rows rfl, rfl⟩
    · obtain ⟨hrows, hclaims⟩ := hs'' claims rfl
      rintro pending ⟨⟩
      exact ⟨rows, claims, hrows, hclaims, rfl⟩

theorem releaseEvidence_needs (payload : Fields) :
    Obeys needsWatch Anyhow s (releaseEvidence payload) := by
  unfold releaseEvidence
  split
  next digest _ =>
    refine pendingEvidenceDigests_needs.bind (fun s' pending hs' => ?_) fun _ _ _ => trivial
    split
    next => trivial
    next hfree =>
      obtain ⟨rows, claims, hrows, hclaims, rfl⟩ := hs' pending rfl
      rw [List.mem_append, not_or] at hfree
      refine bind_needs (Obeys.attempt_iff.2 (Obeys.perform ?_ fun _ _ => trivial)) fun s r => ?_
      · exact ⟨rows, claims, hrows, hclaims, hfree.1, hfree.2⟩
      · cases r with
        | ok u => trivial
        | error x =>
            dsimp only
            split <;> trivial
  next => trivial

theorem acknowledge_needs (itemId : Nat) (payload : Fields) :
    Obeys needsWatch Anyhow s (acknowledge itemId payload) := by
  refine bind_needs (Obeys.attempt_iff.2 (routine_needs (completeItem_routine itemId payload)))
    fun s r => ?_
  cases r with
  | ok u => exact bind_needs (releaseEvidence_needs payload) fun _ _ => trivial
  | error x =>
      dsimp only
      split <;> trivial

theorem deliverItem_needs (itemId : Nat) : Obeys needsWatch Anyhow s (deliverItem itemId) := by
  refine bind_needs (routine_needs (op_routine trivial)) fun s _ => ?_
  refine bind_needs (Obeys.attempt_iff.2 (routine_needs (attemptItem_routine itemId)))
    fun s r => ?_
  rcases r with x | (_ | payload)
  · dsimp only
    split
    · exact bind_needs (routine_needs (retryItem_routine itemId)) fun _ _ => trivial
    · trivial
  · trivial
  · exact acknowledge_needs itemId payload

theorem deliverAll_needs (items : List Nat) : Obeys needsWatch Anyhow s (deliverAll items) := by
  induction items generalizing s with
  | nil => trivial
  | cons itemId rest ih =>
      refine bind_needs (deliverItem_needs itemId) fun s _ => ?_
      exact bind_needs ih fun _ _ => trivial

theorem runOnce_needs (cfg : DeliveryConfig) :
    Obeys needsWatch Anyhow s (runOnce cfg) := by
  refine bind_needs (routine_needs (op_routine trivial)) fun s now => ?_
  refine bind_needs (routine_needs (runRetention_routine cfg now)) fun s _ => ?_
  refine bind_needs (routine_needs (op_routine trivial)) fun s afterId => ?_
  exact bind_needs (routine_needs (op_routine trivial)) fun s items => deliverAll_needs _

/-- The calls of a run at work keep to the rules. -/
theorem program_needs (cfg : DeliveryConfig) {w : DeliveryWorld} {c : CallId}
    {call : DeliveryCall} (hok : AtWork w (.begin c call)) :
    Obeys needsWatch Anyhow s (program cfg call) := by
  cases call with
  | construct => exact hok.elim
  | runOnce => exact bind_needs (runOnce_needs cfg) fun _ _ => trivial
  | submit digest op =>
      refine bind_needs (bind_needs ?_ fun s _ => ?_) fun _ _ => trivial
      · cases digest with
        | none => trivial
        | some digest => exact routine_needs (op_routine trivial)
      · exact bind_needs (routine_needs (op_routine hok)) fun _ _ => trivial

end Obeys

end OutboxWorker

/-! ## Careful runs -/

/-- The runs are watched by the rules of the release of evidence, for calls that bind
nothing. -/
def evidenceWatch : Protocol DeliveryEff DeliveryEff.Ans Exc DeliveryCall NeedsWatch :=
  needsWatch.restrict Unbinding

/-- What a call has read is what is needed now, but for what was stored since it began to
read. -/
structure UpToDate (t : Tables) (log : DeliveryLog) (c : CallId) (s : NeedsWatch) : Prop where
  rows : ∀ rows, s.rows = some rows → ∀ d ∈ outboxDigests t,
    d ∈ rows ∨ since (reads c) (stores d) log = true
  claims : ∀ claims, s.claims = some claims → ∀ d ∈ claimDigests t,
    d ∈ claims ∨ since (reads c) (stores d) log = true

/-- Every digest that is needed has its file. -/
def FilesKept (st : DeliveryState) : Prop := ∀ d ∈ neededDigests st.tables, d ∈ st.spool

/-- What a careful run keeps. -/
structure EvidenceKept (st : DeliveryState) (log : DeliveryLog) : Prop where
  dicts : ClaimsKeepDicts st.tables
  files : FilesKept st
  staged : ∀ d, since (deletes d) (stages d) log = true → d ∈ st.spool
  read : Ever (fun _ => evidenceWatch) (UpToDate st.tables log) log

section Steps

variable {t : Tables} {st : DeliveryState} {log : DeliveryLog} {c c' : CallId} {s : NeedsWatch}
  {ev : DeliveryEvent} {w : Weather} {op : DeliveryOp} {d : String}

theorem since_of_passed {stop p : DeliveryEvent → Bool} (hstop : stop ev = false)
    (h : p ev = true ∨ since stop p log = true) : since stop p (ev :: log) = true := by
  rw [since_cons, hstop]
  simpa using h

/-- An entry that changes neither the tables nor what the call has read. -/
theorem UpToDate.idle (h : UpToDate t log c s) (hreads : reads c ev = false) :
    UpToDate t (ev :: log) c s where
  rows rows hrows d hd :=
    (h.rows rows hrows d hd).imp_right fun hs => since_of_passed hreads (.inr hs)
  claims claims hclaims d hd :=
    (h.claims claims hclaims d hd).imp_right fun hs => since_of_passed hreads (.inr hs)

/-- What is needed after a call was needed before, or the call has stored it. -/
theorem needed_or_stores (hbinds : op.binds = false) (hdict : op.CarriesDict)
    (hdicts : ClaimsKeepDicts t) :
    (d ∈ outboxDigests (op.run w t).2 →
      d ∈ outboxDigests t ∨ stores d (.did c (.store op) (op.run w t).1) = true) ∧
    (d ∈ claimDigests (op.run w t).2 →
      d ∈ claimDigests t ∨ stores d (.did c (.store op) (op.run w t).1) = true) := by
  have hstores : ∀ {t' : Tables}, (op.run w t).2 = t' →
      op.evidence = some d ∨ op.recovers = true →
      t' = t ∨ stores d (.did c (.store op) (op.run w t).1) = true := by
    rintro _ rfl hgiven
    cases op with
    | store sop other =>
        cases hr : ((DeliveryOp.store sop other).run w t).1 with
        | error x => exact .inl (DeliveryOp.run_store_error hr)
        | ok a =>
            refine .inr ?_
            simp only [stores, Bool.or_eq_true, beq_iff_eq]
            exact hgiven.symm
    | _ => rcases hgiven with hgiven | hgiven <;> cases hgiven
  constructor
  · intro hd
    rcases DeliveryOp.run_outboxDigests hbinds hdict hdicts hd with hold | hgiven | ⟨hrec, -⟩
    · exact .inl hold
    · rcases hstores rfl (.inl hgiven) with hsame | hs
      · exact .inl (hsame ▸ hd)
      · exact .inr hs
    · rcases hstores rfl (.inr hrec) with hsame | hs
      · exact .inl (hsame ▸ hd)
      · exact .inr hs
  · intro hd
    rcases DeliveryOp.run_claimDigests hd with hold | hgiven
    · exact .inl hold
    · rcases hstores rfl (.inl hgiven) with hsame | hs
      · exact .inl (hsame ▸ hd)
      · exact .inr hs

/-- A call of the store, for what any call has read before. -/
theorem UpToDate.stored (h : UpToDate t log c s) (hbinds : op.binds = false)
    (hdict : op.CarriesDict) (hdicts : ClaimsKeepDicts t) :
    UpToDate (op.run w t).2 (.did c' (.store op) (op.run w t).1 :: log) c s where
  rows rows hrows d hd := by
    rcases (needed_or_stores hbinds hdict hdicts).1 hd with hold | hs
    · exact (h.rows rows hrows d hold).imp_right fun hs => since_of_passed rfl (.inr hs)
    · exact .inr (since_of_passed rfl (.inl hs))
  claims claims hclaims d hd := by
    rcases (needed_or_stores hbinds hdict hdicts).2 hd with hold | hs
    · exact (h.claims claims hclaims d hold).imp_right fun hs => since_of_passed rfl (.inr hs)
    · exact .inr (since_of_passed rfl (.inl hs))

/-- A call of the store leaves every needed file where it is. -/
theorem FilesKept.stored (h : FilesKept st) (hdicts : ClaimsKeepDicts st.tables)
    (hbinds : op.binds = false) (hdict : op.CarriesDict)
    (hspooled : ∀ d ∈ op.evidence, d ∈ st.spool ∨
      op.claim.any (keepsDigest st.tables d) = true) :
    FilesKept { st with tables := (op.run w st.tables).2 } := by
  intro d hd
  have hgiven : d ∈ neededDigests (op.run w st.tables).2 → op.evidence = some d →
      d ∈ st.spool := by
    intro hneeded he
    rcases hspooled d he with hspool | hkeeps
    · exact hspool
    · obtain ⟨claim, hclaim, hkeeps⟩ := (Option.any_eq_true _ _).1 hkeeps
      cases hr : (op.run w st.tables).1 with
      | ok a =>
          exact h d (List.mem_append_right _ (DeliveryOp.run_claim hclaim hkeeps hr))
      | error x =>
          cases op with
          | store sop other =>
              rw [DeliveryOp.run_store_error hr] at hneeded
              exact h d hneeded
          | _ => cases hclaim
  rcases List.mem_append.1 hd with hrow | hclaim
  · rcases DeliveryOp.run_outboxDigests hbinds hdict hdicts hrow with hold | he | ⟨-, hold⟩
    · exact h d (List.mem_append_left _ hold)
    · exact hgiven hd he
    · exact h d (List.mem_append_right _ hold)
  · rcases DeliveryOp.run_claimDigests hclaim with hold | he
    · exact h d (List.mem_append_right _ hold)
    · exact hgiven hd he

end Steps

/-- Nothing is said of how a call ends. -/
def EndsAnyhow (_ : CallId) (_ : NeedsWatch) (_ : Except Exc DeliveryResult) : Prop := True

namespace EvidenceKept

variable {st : DeliveryState} {log : DeliveryLog} {c : CallId} {s : NeedsWatch} {op : DeliveryOp}
  {w : Weather} {d : String}

/-- What every call has read, after an operation of one of them. -/
theorem read_did {t : Tables} {e : DeliveryEff} {r : Except Exc e.Ans} (h : EvidenceKept st log)
    (hghost : ghost (fun _ => evidenceWatch) c log = some s)
    (hself : UpToDate st.tables log c s → UpToDate t (.did c e r :: log) c (s.next e r))
    (hothers : ∀ c' s', c' ≠ c → UpToDate st.tables log c' s' →
      UpToDate t (.did c e r :: log) c' s') :
    Ever (fun _ => evidenceWatch) (UpToDate t (.did c e r :: log)) (.did c e r :: log) :=
  h.read.did hghost (hself (h.read c s hghost)) fun c' s' hne _ hs' => hothers c' s' hne hs'

/-- An entry that stages nothing. -/
theorem staged_cons {ev : DeliveryEvent} (h : EvidenceKept st log)
    (hev : ∀ d, stages d ev = false) (hd : since (deletes d) (stages d) (ev :: log) = true) :
    d ∈ st.spool ∧ deletes d ev = false := by
  rw [since_cons, hev, Bool.false_or, Bool.and_eq_true, Bool.not_eq_true'] at hd
  exact ⟨h.staged d hd.2, hd.1⟩

/-- An operation that changes nothing that counts. -/
theorem idle {e : DeliveryEff} {r : Except Exc e.Ans} {st' : DeliveryState}
    (h : EvidenceKept st log) (hghost : ghost (fun _ => evidenceWatch) c log = some s)
    (htables : st'.tables = st.tables) (hspool : st'.spool = st.spool) (hsame : s.next e r = s)
    (hreads : ∀ c', reads c' (.did c e r) = false) (hstages : ∀ d, stages d (.did c e r) = false) :
    EvidenceKept st' (.did c e r :: log) where
  dicts := htables ▸ h.dicts
  files d hd := by
    rw [hspool]
    exact h.files d (htables ▸ hd)
  staged d hd := by
    rw [hspool]
    exact (h.staged_cons hstages hd).1
  read := by
    rw [htables]
    refine h.read_did hghost (fun hself => ?_) fun c' s' _ hs' => hs'.idle (hreads c')
    rw [hsame]
    exact hself.idle (hreads c)

/-- A call of the store. -/
theorem stored (h : EvidenceKept st log) (hghost : ghost (fun _ => evidenceWatch) c log = some s)
    (hbinds : op.binds = false) (hdict : op.CarriesDict)
    (hspooled : ∀ d ∈ op.evidence, since (deletes d) (stages d) log = true ∨
      op.claim.any (keepsDigest st.tables d) = true) :
    EvidenceKept { st with tables := (op.run w st.tables).2 }
      (.did c (.store op) (op.run w st.tables).1 :: log) where
  dicts := h.dicts.run hdict
  files := h.files.stored h.dicts hbinds hdict fun d hd => (hspooled d hd).imp_left (h.staged d)
  staged _ hd := (h.staged_cons (fun _ => rfl) hd).1
  read := h.read_did hghost (fun hself => hself.stored hbinds hdict h.dicts)
    fun _ _ _ hs' => hs'.stored hbinds hdict h.dicts

/-- The first reading of what is needed. -/
theorem readRows (h : EvidenceKept st log)
    (hghost : ghost (fun _ => evidenceWatch) c log = some s) :
    EvidenceKept st (.did c .outboxDigests (.ok (outboxDigests st.tables)) :: log) where
  dicts := h.dicts
  files := h.files
  staged d hd := (h.staged_cons (fun _ => rfl) hd).1
  read := by
    refine h.read_did hghost (fun _ => ⟨fun rows hrows _ hd => .inl ?_, nofun⟩)
      fun _ _ hne hs' => hs'.idle (beq_eq_false_iff_ne.2 (Ne.symm hne))
    cases hrows
    exact hd

/-- The second reading. -/
theorem readClaims (h : EvidenceKept st log)
    (hghost : ghost (fun _ => evidenceWatch) c log = some s) :
    EvidenceKept st (.did c .claimDigests (.ok (claimDigests st.tables)) :: log) where
  dicts := h.dicts
  files := h.files
  staged d hd := (h.staged_cons (fun _ => rfl) hd).1
  read := by
    refine h.read_did hghost (fun hself => ?_) fun c' s' _ hs' => hs'.idle rfl
    have hidle : UpToDate st.tables
        (.did c .claimDigests (.ok (claimDigests st.tables)) :: log) c s := hself.idle rfl
    refine ⟨hidle.rows, fun claims hclaims d hd => .inl ?_⟩
    cases hclaims
    exact hd

/-- A frame is staged. -/
theorem staged_did (h : EvidenceKept st log)
    (hghost : ghost (fun _ => evidenceWatch) c log = some s) (digest : String) :
    EvidenceKept { st with spool := digest :: st.spool } (.did c (.stage digest) (.ok ()) :: log)
    where
  dicts := h.dicts
  files d hd := List.mem_cons_of_mem digest (h.files d hd)
  staged d hd := by
    rw [since_cons, Bool.and_eq_true, Bool.or_eq_true] at hd
    rcases hd.2 with hnew | hold
    · rw [← eq_of_beq (show (digest == d) = true from hnew)]
      exact List.mem_cons_self
    · exact List.mem_cons_of_mem digest (h.staged d hold)
  read := h.read_did hghost (fun hself => hself.idle rfl) fun c' s' _ hs' => hs'.idle rfl

/-- A file is deleted whose digest no reading had and nobody has stored since. -/
theorem deleted (h : EvidenceKept st log)
    (hghost : ghost (fun _ => evidenceWatch) c log = some s) {digest : String}
    (hallow : s.allow (.delete digest))
    (hcareful : since (reads c) (stores digest) log = false) :
    EvidenceKept { st with spool := st.spool.filter (· ≠ digest) }
      (.did c (.delete digest) (.ok ()) :: log) where
  dicts := h.dicts
  files d hd := by
    refine List.mem_filter.2 ⟨h.files d hd, decide_eq_true ?_⟩
    rintro rfl
    obtain ⟨rows, claims, hrows, hclaims, hfreeRows, hfreeClaims⟩ := hallow
    have hread := h.read c s hghost
    rcases List.mem_append.1 hd with hrow | hclaim
    · rcases hread.rows rows hrows d hrow with hmem | hs
      · exact hfreeRows hmem
      · rw [hcareful] at hs
        cases hs
    · rcases hread.claims claims hclaims d hclaim with hmem | hs
      · exact hfreeClaims hmem
      · rw [hcareful] at hs
        cases hs
  staged d hd := by
    obtain ⟨hspool, hdeletes⟩ := h.staged_cons (fun _ => rfl) hd
    refine List.mem_filter.2 ⟨hspool, decide_eq_true ?_⟩
    rintro rfl
    rw [show deletes d (.did c (.delete d) (.ok ())) = (d == d) from rfl, beq_self_eq_true]
      at hdeletes
    cases hdeletes
  read := h.read_did hghost (fun hself => hself.idle rfl) fun c' s' _ hs' => hs'.idle rfl

/-- One operation of a careful run. -/
theorem exec {w : DeliveryWorld} {env : DeliveryEnv} {e : DeliveryEff}
    (h : EvidenceKept w.state w.log) (hok : Careful w (.step c env)) (hnext : nextOp w c = some e)
    (hghost : ghost (fun _ => evidenceWatch) c w.log = some s) (hallow : evidenceWatch.allow s e) :
    EvidenceKept (OutboxWorker.exec env w.state e).2
      (.did c e (OutboxWorker.exec env w.state e).1 :: w.log) := by
  replace hok : TakesCare w c e := hok e hnext
  cases e with
  | store op => exact h.stored hghost hallow.2 hok.1 hok.2
  | outboxDigests =>
      simp only [OutboxWorker.exec, selected]
      cases env.selectFault with
      | none => exact h.readRows hghost
      | some x => exact h.idle hghost rfl rfl rfl (fun _ => rfl) fun _ => rfl
  | claimDigests =>
      simp only [OutboxWorker.exec, selected]
      cases env.selectFault with
      | none => exact h.readClaims hghost
      | some x => exact h.idle hghost rfl rfl rfl (fun _ => rfl) fun _ => rfl
  | stage digest =>
      simp only [OutboxWorker.exec]
      cases env.stage with
      | ok u => exact h.staged_did hghost digest
      | error x => exact h.idle hghost rfl rfl rfl (fun _ => rfl) fun _ => rfl
  | delete digest =>
      simp only [OutboxWorker.exec]
      cases env.delete with
      | ok u => exact h.deleted hghost hallow.1 hok
      | error x => exact h.idle hghost rfl rfl rfl (fun _ => rfl) fun _ => rfl
  | _ => exact h.idle hghost rfl rfl rfl (fun _ => rfl) fun _ => rfl

end EvidenceKept

/-- A careful run keeps every file that is needed. -/
theorem careful_sound (cfg : DeliveryConfig) :
    Invariant (delivery cfg) (fun _ => evidenceWatch) EndsAnyhow Careful EvidenceKept where
  obeys w c call s' _ hok haccept :=
    ((program_needs cfg hok.atWork).restrict (program_unbinding cfg hok.atWork)).mono
      fun _ _ _ => trivial
  began w c call s' _ h hok _ haccept := by
    have htables := accept_tables haccept
    have hspool : s'.spool = w.state.spool := by
      cases call with
      | submit digest op =>
          simp only [delivery, accept] at haccept
          split at haccept
          next => cases haccept
          next =>
            cases haccept
            rfl
      | _ =>
          cases haccept
          rfl
    refine ⟨htables ▸ h.dicts, fun d hd => ?_, fun d hd => ?_, ?_⟩
    · rw [hspool]
      exact h.files d (htables ▸ hd)
    · rw [hspool]
      exact (h.staged_cons (fun _ => rfl) hd).1
    · rw [htables]
      exact h.read.began ⟨fun _ hrows => (by cases hrows), fun _ hclaims => by cases hclaims⟩
        fun c' s' _ _ hs' => hs'.idle rfl
  did w c env e k s r s' _ h hok hrun _ hghost hallow hexec := by
    obtain ⟨rfl, rfl⟩ : r = (exec env w.state e).1 ∧ s' = (exec env w.state e).2 := by
      rw [Option.some.inj hexec]
      exact ⟨rfl, rfl⟩
    exact ⟨trivial, h.exec hok (nextOp_of_running hrun) hghost hallow⟩
  ended w c s r _ h _ _ _ :=
    ⟨h.dicts, h.files, fun _ hd => (h.staged_cons (fun _ => rfl) hd).1,
      fun c' s' hghost => (h.read c' s' hghost).idle rfl⟩
  crashed w p env _ h _ :=
    ⟨h.dicts, h.files, fun _ hd => (h.staged_cons (fun _ => rfl) hd).1,
      fun c' s' hghost => (h.read c' s' hghost).idle rfl⟩

/-- Along any careful run of passes of the worker and calls of other threads, crashes included,
every digest that a waiting row or an open claim names has its file in the spool. -/
theorem needed_files_kept (cfg : DeliveryConfig) (st : DeliveryState)
    (l : List (Choice DeliveryEnv DeliveryCall)) (hdicts : ClaimsKeepDicts st.tables)
    (hfiles : FilesKept st) (hok : (delivery cfg).Admits Careful (World.init st) l) :
    FilesKept ((delivery cfg).run (World.init st) l).state := by
  have hstart : EvidenceKept (World.init st : DeliveryWorld).state
      (World.init st : DeliveryWorld).log :=
    ⟨hdicts, hfiles, fun _ hd => (by cases hd), fun _ _ hghost => by cases hghost⟩
  exact ((careful_sound cfg).run (Sound.init _ _ st) hstart hok).2.files

/-! ### Two events with one frame -/

namespace Shared

/-- The digest of the frame. -/
def frame : String := "4d1fe7e1f9979f93d5819d8399be0c8cfe526dce9bb51b80d9bdaf8176f2bbf2"

theorem record_other (key : String) (payload : Option Fields) :
    (StoreOp.recordEventWithOutbox (Unreachable.event key) payload).attaches = false := rfl

/-- An event is recorded with the frame. -/
def record (key : String) : DeliveryOp :=
  .store (.recordEventWithOutbox (Unreachable.event key)
    (some [("controller_id", .str "primary"), ("image_sha256", .str frame)])) (record_other key _)

/-- Nothing fails. -/
def env : DeliveryEnv where
  clock := .ok datetimeMin
  weather := { now := datetimeMin }

/-- Another thread stages the frame and records its event. -/
def queue (thread : Nat) (key : String) : List (Choice DeliveryEnv DeliveryCall) :=
  [.begin ⟨0, thread⟩ (.submit (some frame) (record key)), .step ⟨0, thread⟩ env,
    .step ⟨0, thread⟩ env]

/-- The first event is queued and sent, and the worker is about to delete its frame. -/
def upToDelete : List (Choice DeliveryEnv DeliveryCall) :=
  queue 1 "a" ++ .begin ⟨0, 0⟩ .runOnce :: List.replicate 14 (.step ⟨0, 0⟩ env)

/-- The worker deletes the frame, and then the second event is queued. -/
def careful : List (Choice DeliveryEnv DeliveryCall) :=
  upToDelete ++ .step ⟨0, 0⟩ env :: queue 2 "b"

/-- The second event is queued just before the worker deletes the frame. -/
def careless : List (Choice DeliveryEnv DeliveryCall) :=
  upToDelete ++ queue 2 "b" ++ [.step ⟨0, 0⟩ env]

/-- No row and no file yet. -/
def start : DeliveryState where
  tables := Tables.fresh

theorem needed_files_kept_careful :
    FilesKept ((delivery {}).run (World.init start) careful).state :=
  needed_files_kept {} start careful (fun _ _ _ h => by cases h) (fun _ h => by cases h)
    (by decide +kernel)

/-- The second row waits for a frame that is gone. -/
example : frame ∈ neededDigests ((delivery {}).run (World.init start) careless).state.tables ∧
    frame ∉ ((delivery {}).run (World.init start) careless).state.spool := by
  decide +kernel

end Shared

end GateController

import GateController.Runtime.Base
import GateController.Store.Frame

/-!
# Claims and the calls that own them

The row of a claim is what its own call has made of it, unless recovery has
closed it.  `RowOf` says what the columns are, from what the watch of the owner
has seen, and `Ledger` that this holds for every claim that was ever granted and
that no two calls own the same row.  Crashes, faults and other callers are all
in this one invariant.
-/

namespace GateController

open Data Effects Proc LocalStore ActuationCoordinator

variable {cfg : Nat → Config}

/-- The call has not stored the outcome of its claim. -/
def Watch.Unclosed (s : Watch) : Prop := ∀ a, s.store.finalized ≠ some (a, true)

/-- The mark that the row of a call still carries. -/
def Watch.marker (s : Watch) : Option MarkArgs :=
  match s.store.finalized with
  | some (a, true) => if a.keepAttempt then s.store.marked else none
  | _ => s.store.marked

theorem Watch.Unclosed.marker {s : Watch} (h : s.Unclosed) : s.marker = s.store.marked := by
  unfold Watch.marker
  split
  · next a hf => exact absurd hf (h a)
  · rfl

/-- What recovery reports of a call. -/
def Watch.interruption (s : Watch) : String :=
  if s.store.marked.isSome then "indeterminate_claim" else "interrupted_before_activation"

/-- The row of a claim, by what its owner has done. -/
structure RowOf (events : Table EventRow String EventRow.idempotencyKey) (a : ClaimArgs) (s : Watch)
    (row : ClaimRow) : Prop where
  key : row.idempotencyKey = a.idempotencyKey
  attempt : row.activationAttemptAt = s.marker.map fun m => timestamp m.attemptedAt
  monotonic : row.activationMonotonic = s.marker.bind MarkArgs.attemptedMonotonic
  bootId : row.bootId = s.marker.bind MarkArgs.bootId
  claimed : row.state = .claimed → s.Unclosed ∧
    row.pendingEvent = a.event.map encodePendingEvent ∧
    row.pendingOutboxPayload = encodeOptionalJson a.outboxPayload ∧
    row.pendingCommandId = a.commandAck.map Prod.fst ∧
    row.pendingCommandCreatedAt = a.commandAck.map fun ack => timestamp ack.2
  closed : row.state = .finalized →
    (∃ fa eventId, s.store.finalized = some (fa, true) ∧ row.terminalStatus = some fa.status ∧
      row.terminalDetail = fa.terminalDetail ∧ row.eventId = some eventId ∧
      events.find? eventId = some (eventRow fa.event)) ∨
    s.Unclosed ∧ row.terminalStatus = some "failed" ∧ row.terminalDetail = some s.interruption

/-- Only the mark and the outcome of the owner matter. -/
theorem RowOf.mono {events events' : Table EventRow String EventRow.idempotencyKey} {a : ClaimArgs}
    {s s' : Watch} {row : ClaimRow} (h : RowOf events a s row) (hext : events.Extends events')
    (hmarked : s'.store.marked = s.store.marked)
    (hfinal : s'.store.finalized = s.store.finalized) : RowOf events' a s' row := by
  have hmarker : s'.marker = s.marker := by
    simp only [Watch.marker, hmarked, hfinal]
  have hopen : s.Unclosed → s'.Unclosed := fun h a => by
    rw [hfinal]
    exact h a
  refine ⟨h.key, ?_, ?_, ?_, fun hs => ?_, fun hs => ?_⟩
  · rw [hmarker]
    exact h.attempt
  · rw [hmarker]
    exact h.monotonic
  · rw [hmarker]
    exact h.bootId
  · obtain ⟨hu, hrest⟩ := h.claimed hs
    exact ⟨hopen hu, hrest⟩
  · rcases h.closed hs with ⟨fa, eventId, hf, hst, hd, hid, he⟩ | ⟨hu, hst, hd⟩
    · exact .inl ⟨fa, eventId, hfinal.trans hf, hst, hd, hid, hext _ _ he⟩
    · refine .inr ⟨hopen hu, hst, ?_⟩
      rw [hd, Watch.interruption, Watch.interruption, hmarked]

/-- What recovery makes of a row that its owner left. -/
theorem RowOf.recover {events events' : Table EventRow String EventRow.idempotencyKey}
    {a : ClaimArgs} {s : Watch} {row : ClaimRow} (h : RowOf events a s row)
    (hstate : row.state = .claimed) (eventId : Nat) :
    RowOf events' a s (recoverRow (recoveryReason row) eventId row) := by
  have hu := (h.claimed hstate).1
  refine ⟨h.key, h.attempt, h.monotonic, h.bootId, fun hs => (by cases hs), fun _ => .inr ⟨hu, rfl, ?_⟩⟩
  have hattempt : row.activationAttemptAt.isSome = s.store.marked.isSome := by
    rw [h.attempt, hu.marker, Option.isSome_map]
  simp only [recoverRow, recoveryReason, Watch.interruption, hattempt]

/-- The row of an owner in the database. -/
def Recorded (db : Db) (s : Watch) : Prop :=
  ∀ a claim, s.store.Owns a claim → ∃ i row, claim.claimId = some i ∧
    db.claims.find? i = some row ∧ RowOf db.events a s row

/-- Every claim that was granted is recorded, and each for one call. -/
structure Ledger (cfg : Nat → Config) (st : State) (log : Log) : Prop where
  recorded : Ever (watch cfg) (fun _ s => Recorded st.db s) log
  distinct : ∀ c d s t a b ca cb, ghost (watch cfg) c log = some s →
    ghost (watch cfg) d log = some t → s.store.Owns a ca → t.store.Owns b cb →
    ca.claimId = cb.claimId → c = d

/-! ## Steps that leave the rows alone -/

/-- Operations other than store calls do not touch what a ledger is about. -/
theorem Watch.next_ledger (s : Watch) {e : Eff} (r : Except Exc e.Ans) (he : ∀ op, e ≠ .store op) :
    (s.next e r).store.claimed = s.store.claimed ∧ (s.next e r).store.marked = s.store.marked ∧
      (s.next e r).store.finalized = s.store.finalized := by
  cases e with
  | store op => exact absurd rfl (he op)
  | device op => cases op <;> cases r <;> exact ⟨rfl, rfl, rfl⟩
  | mem op => cases op <;> cases r <;> exact ⟨rfl, rfl, rfl⟩
  | mark m => cases m <;> exact ⟨rfl, rfl, rfl⟩
  | _ => exact ⟨rfl, rfl, rfl⟩

theorem Recorded.mono {db db' : Db} {s s' : Watch} (h : Recorded db s)
    (hclaims : ∀ i row, db.claims.find? i = some row → db'.claims.find? i = some row)
    (hevents : db.events.Extends db'.events) (hclaimed : s'.store.claimed = s.store.claimed)
    (hmarked : s'.store.marked = s.store.marked)
    (hfinal : s'.store.finalized = s.store.finalized) : Recorded db' s' := by
  rintro a claim ⟨hown, hstatus⟩
  obtain ⟨i, row, hid, hrow, hof⟩ := h a claim ⟨hclaimed ▸ hown, hstatus⟩
  exact ⟨i, row, hid, hclaims i row hrow, hof.mono hevents hmarked hfinal⟩

variable {st st' : State} {log : Log} {c : CallId} {s : Watch}

/-- A store call as a step. -/
theorem exec_store_run {env : Env} {op : StoreOp} {r : Except Exc op.Ans}
    (h : (Eff.store op).exec c env st = some (r, st')) :
    op.run env.now env.storeFault st.db = (r, st'.db) := by
  simp only [Eff.exec, Option.some.injEq, Prod.mk.injEq] at h
  rw [← h.2, ← h.1]

/-- Owners stay distinct where nothing new is claimed. -/
theorem Ledger.distinct_did {e : Eff} {r : Except Exc e.Ans} (h : Ledger cfg st log)
    (hghost : ghost (watch cfg) c log = some s)
    (hclaimed : (s.next e r).store.claimed = s.store.claimed) (d₁ d₂ : CallId) (t₁ t₂ : Watch)
    (a₁ a₂ : ClaimArgs) (c₁ c₂ : ActuationClaim)
    (hg₁ : ghost (watch cfg) d₁ (.did c e r :: log) = some t₁)
    (hg₂ : ghost (watch cfg) d₂ (.did c e r :: log) = some t₂) (ho₁ : t₁.store.Owns a₁ c₁)
    (ho₂ : t₂.store.Owns a₂ c₂) (hid : c₁.claimId = c₂.claimId) : d₁ = d₂ := by
  have hback : ∀ d t a claim, ghost (watch cfg) d (.did c e r :: log) = some t →
      t.store.Owns a claim → ∃ t', ghost (watch cfg) d log = some t' ∧ t'.store.Owns a claim := by
    intro d t a claim hg ho
    by_cases hd : d = c
    · subst hd
      cases hg.symm.trans (ghost_did_self hghost)
      exact ⟨s, hghost, hclaimed ▸ ho.1, ho.2⟩
    · rw [ghost_did_ne (Ne.symm hd)] at hg
      exact ⟨t, hg, ho⟩
  obtain ⟨t₁', hg₁', ho₁'⟩ := hback d₁ t₁ a₁ c₁ hg₁ ho₁
  obtain ⟨t₂', hg₂', ho₂'⟩ := hback d₂ t₂ a₂ c₂ hg₂ ho₂
  exact h.distinct d₁ d₂ t₁' t₂' a₁ a₂ c₁ c₂ hg₁' hg₂' ho₁' ho₂' hid

/-- A step after which every call owns what it owned, in the rows it had. -/
theorem Ledger.did_same {e : Eff} {r : Except Exc e.Ans} (h : Ledger cfg st log)
    (hghost : ghost (watch cfg) c log = some s)
    (hclaims : st.db.claims.Extends st'.db.claims) (hevents : st.db.events.Extends st'.db.events)
    (hclaimed : (s.next e r).store.claimed = s.store.claimed)
    (hmarked : (s.next e r).store.marked = s.store.marked)
    (hfinal : (s.next e r).store.finalized = s.store.finalized) :
    Ledger cfg st' (.did c e r :: log) where
  recorded := h.recorded.did hghost
    ((h.recorded c s hghost).mono hclaims hevents hclaimed hmarked hfinal)
    fun _ _ _ _ hd => hd.mono hclaims hevents rfl rfl rfl
  distinct := h.distinct_did hghost hclaimed

/-! ## Claiming -/

/-- A row that is inserted gets an id that no row had. -/
theorem Ledger.new_id {id : Nat} {row : ClaimRow} {claims} (h : Ledger cfg st log)
    (hins : st.db.claims.insert row = some (id, claims)) {d : CallId} {t : Watch} {a : ClaimArgs}
    {claim : ActuationClaim} (hg : ghost (watch cfg) d log = some t) (ho : t.store.Owns a claim) :
    claim.claimId ≠ some id := by
  intro hid
  obtain ⟨i, row', hid', hrow, -⟩ := h.recorded d t hg a claim ho
  rw [hid] at hid'
  cases hid'
  rw [Table.find?_of_insert hins] at hrow
  cases hrow

theorem Ledger.did_claim {env : Env} {a : ClaimArgs} {r : Except Exc ActuationClaim}
    (h : Ledger cfg st log) (hghost : ghost (watch cfg) c log = some s)
    (hcoh : s.Coherent (cfg c.proc)) (hallow : s.AllowClaim (cfg c.proc) a)
    (hexec : (Eff.store (.claimActuation a)).exec c env st = some (r, st')) :
    Ledger cfg st' (.did c (.store (.claimActuation a)) r :: log) := by
  have hrun := exec_store_run hexec
  have hext := StoreOp.run_claims hrun rfl
  have hev := StoreOp.run_events hrun
  obtain ⟨hunmarked, hunfinal⟩ := hcoh.unclaimed hallow.1
  cases r with
  | error x => exact h.did_same hghost hext hev rfl rfl rfl
  | ok claim =>
      by_cases hstatus : claim.status = .claimed
      · obtain ⟨id, claims, -, hins, hdb, hid⟩ := claim_inserted hrun hstatus
        refine ⟨h.recorded.did hghost ?_ fun d t _ _ hd => hd.mono hext hev rfl rfl rfl, ?_⟩
        · rintro a' claim' ⟨hown, -⟩
          cases hown
          refine ⟨id, a.row, hid, ?_, rfl, ?_, ?_, ?_, fun _ => ⟨fun fa => ?_, rfl, rfl, rfl, rfl⟩,
            fun hs => by cases hs⟩
          · rw [hdb]
            exact (Table.find?_insert hins id).trans (if_pos rfl)
          all_goals
            have hmarker : (s.next (.store (.claimActuation a)) (.ok claim)).marker = none := by
              simp [Watch.marker, Watch.next, StoreWatch.nextStore, hunmarked, hunfinal]
          · rw [watch_next, hmarker]
            rfl
          · rw [watch_next, hmarker]
            rfl
          · rw [watch_next, hmarker]
            rfl
          · rw [show ((watch cfg c).next s (.store (.claimActuation a)) (.ok claim)).store.finalized =
              s.store.finalized from rfl, hunfinal]
            simp
        · intro d₁ d₂ t₁ t₂ a₁ a₂ c₁ c₂ hg₁ hg₂ ho₁ ho₂ hsame
          by_cases h₁ : d₁ = c <;> by_cases h₂ : d₂ = c
          · rw [h₁, h₂]
          · subst h₁
            cases hg₁.symm.trans (ghost_did_self hghost)
            rw [ghost_did_ne (Ne.symm h₂)] at hg₂
            cases ho₁.1
            exact absurd (hsame.symm.trans hid) (h.new_id hins hg₂ ho₂)
          · subst h₂
            cases hg₂.symm.trans (ghost_did_self hghost)
            rw [ghost_did_ne (Ne.symm h₁)] at hg₁
            cases ho₂.1
            exact absurd (hsame.trans hid) (h.new_id hins hg₁ ho₁)
          · rw [ghost_did_ne (Ne.symm h₁)] at hg₁
            rw [ghost_did_ne (Ne.symm h₂)] at hg₂
            exact h.distinct d₁ d₂ t₁ t₂ a₁ a₂ c₁ c₂ hg₁ hg₂ ho₁ ho₂ hsame
      · -- A claim that was not granted is nobody's.
        have hnone : ∀ a' claim', ¬ ((watch cfg c).next s (.store (.claimActuation a))
            (.ok claim)).store.Owns a' claim' := by
          rintro a' claim' ⟨hown, hs, -⟩
          cases hown
          exact hstatus hs
        refine ⟨h.recorded.did hghost (fun a' claim' ho => absurd ho (hnone a' claim'))
          fun d t _ _ hd => hd.mono hext hev rfl rfl rfl, ?_⟩
        intro d₁ d₂ t₁ t₂ a₁ a₂ c₁ c₂ hg₁ hg₂ ho₁ ho₂ hsame
        have hne : ∀ d t a' claim', ghost (watch cfg) d
            (.did c (.store (.claimActuation a)) (.ok claim) :: log) = some t →
            t.store.Owns a' claim' → d ≠ c := by
          rintro d t a' claim' hg ho rfl
          cases hg.symm.trans (ghost_did_self hghost)
          exact hnone a' claim' ho
        rw [ghost_did_ne (hne d₁ t₁ a₁ c₁ hg₁ ho₁).symm] at hg₁
        rw [ghost_did_ne (hne d₂ t₂ a₂ c₂ hg₂ ho₂).symm] at hg₂
        exact h.distinct d₁ d₂ t₁ t₂ a₁ a₂ c₁ c₂ hg₁ hg₂ ho₁ ho₂ hsame

/-! ## Marking, finalizing, recovering -/

/-- A step that rewrites the row of the call itself. -/
theorem Ledger.did_own {e : Eff} {r : Except Exc e.Ans} {a : ClaimArgs} {claim : ActuationClaim}
    {id : Nat} (row' : ClaimRow) (h : Ledger cfg st log)
    (hghost : ghost (watch cfg) c log = some s) (hown : s.store.Owns a claim)
    (hid : claim.claimId = some id)
    (hclaims : ∀ i, st'.db.claims.find? i = if i = id then some row' else st.db.claims.find? i)
    (hevents : st.db.events.Extends st'.db.events)
    (hclaimed : (s.next e r).store.claimed = s.store.claimed)
    (hrow : RowOf st'.db.events a (s.next e r) row') : Ledger cfg st' (.did c e r :: log) where
  recorded := by
    refine h.recorded.did hghost ?_ fun d t hd hg hrec => ?_
    · rintro a' claim' ⟨hown', hs⟩
      rw [watch_next, hclaimed, hown.1] at hown'
      cases hown'
      exact ⟨id, row', hid, (hclaims id).trans (if_pos rfl), hrow⟩
    · rintro a' claim' hown'
      obtain ⟨i, row, hid', hfind, hof⟩ := hrec a' claim' hown'
      have hne : i ≠ id := by
        rintro rfl
        exact hd (h.distinct d c t s a' a claim' claim hg hghost hown' hown (hid'.trans hid.symm))
      exact ⟨i, row, hid', (hclaims i).trans ((if_neg hne).trans hfind), hof.mono hevents rfl rfl⟩
  distinct := h.distinct_did hghost hclaimed

theorem Ledger.did_mark {env : Env} {a : MarkArgs} {r : Except Exc Unit} (h : Ledger cfg st log)
    (hghost : ghost (watch cfg) c log = some s) (hallow : s.AllowMark (cfg c.proc) a)
    (hexec : (Eff.store (.markActuationAttempt a)).exec c env st = some (r, st')) :
    Ledger cfg st' (.did c (.store (.markActuationAttempt a)) r :: log) := by
  have hrun := exec_store_run hexec
  have hev := StoreOp.run_events hrun
  obtain ⟨-, hunmarked, -, hunfinal, -, ca, now, last, hown, he, hp, hack, -⟩ := hallow
  cases r with
  | error x =>
      refine h.did_same hghost ?_ hev rfl rfl rfl
      rw [StoreOp.run_error hrun]
      exact .refl _
  | ok u =>
      cases hf : env.storeFault with
      | some x =>
          rw [hf] at hrun
          cases hrun
      | none =>
          rw [hf] at hrun
          obtain ⟨id, row, claims, -, hid, hrow, hstate, -, hdb, hfind⟩ := markActuationAttempt_ok hrun
          obtain ⟨i, row', hid', hrow', hof⟩ := h.recorded c s hghost ca a.claim hown
          rw [hid] at hid'
          cases hid'
          rw [hrow] at hrow'
          cases hrow'
          have hmarker : (s.next (.store (.markActuationAttempt a)) (.ok u)).marker = some a := by
            simp [Watch.marker, Watch.next, StoreWatch.nextStore, hunfinal]
          refine h.did_own (a.mark row) hghost hown hid (fun i => ?_) hev rfl ?_
          · rw [hdb]
            exact hfind i
          · refine ⟨hof.key, ?_, ?_, ?_, fun _ => ⟨fun fa => ?_, ?_, ?_, ?_, ?_⟩, fun hs => ?_⟩
            · rw [hmarker]
              rfl
            · rw [hmarker]
              rfl
            · rw [hmarker]
              rfl
            · rw [show (s.next (.store (.markActuationAttempt a)) (.ok u)).store.finalized =
                s.store.finalized from rfl, hunfinal]
              simp
            · rw [he]
              rfl
            · rw [hp]
              rfl
            · rw [hack]
              rfl
            · rw [hack]
              rfl
            · rw [show (a.mark row).state = row.state from rfl, hstate] at hs
              cases hs

theorem Ledger.did_finalize {env : Env} {a : FinalizeArgs} {r : Except Exc Nat}
    (h : Ledger cfg st log) (hghost : ghost (watch cfg) c log = some s)
    (hallow : s.AllowFinalize (cfg c.proc) a)
    (hexec : (Eff.store (.finalizeActuation a)).exec c env st = some (r, st')) :
    Ledger cfg st' (.did c (.store (.finalizeActuation a)) r :: log) := by
  have hrun := exec_store_run hexec
  have hev := StoreOp.run_events hrun
  obtain ⟨-, hunfinal, ⟨ca, hown⟩, -⟩ := hallow
  have hopen : s.Unclosed := fun fa => by simp [hunfinal]
  obtain ⟨i, row, hid, hrow, hof⟩ := h.recorded c s hghost ca a.claim hown
  cases r with
  | error x =>
      have hdb := StoreOp.run_error hrun
      have hopen' : (s.next (.store (.finalizeActuation a)) (.error x)).Unclosed := fun fa => by
        simp [Watch.next, StoreWatch.nextStore, isOk]
      refine h.did_own row hghost hown hid (fun j => ?_) hev rfl ?_
      · rw [hdb]
        split
        · next hj => rw [hj, hrow]
        · rfl
      · rw [hdb]
        refine ⟨hof.key, ?_, ?_, ?_, fun hs => ⟨hopen', (hof.claimed hs).2⟩, fun hs => .inr ?_⟩
        · rw [hopen'.marker, hof.attempt, hopen.marker]
          rfl
        · rw [hopen'.marker, hof.monotonic, hopen.marker]
          rfl
        · rw [hopen'.marker, hof.bootId, hopen.marker]
          rfl
        · rcases hof.closed hs with ⟨fa, _, hf, -⟩ | ⟨-, hst, hd⟩
          · exact absurd hf (hopen fa)
          · exact ⟨hopen', hst, hd⟩
  | ok eventId =>
      cases hf : env.storeFault with
      | some x =>
          rw [hf] at hrun
          cases hrun
      | none =>
          rw [hf] at hrun
          obtain ⟨id, row', events, claims, -, -, hid', hrow', hstate, hins, hdb, hfind⟩ :=
            finalizeActuation_ok hrun
          rw [hid] at hid'
          cases hid'
          rw [hrow] at hrow'
          cases hrow'
          have hevent : st'.db.events.find? eventId = some (eventRow a.event) := by
            rw [hdb]
            exact (Table.find?_insert hins eventId).trans (if_pos rfl)
          have hmarker : (s.next (.store (.finalizeActuation a)) (.ok eventId)).marker =
              if a.keepAttempt then s.store.marked else none := rfl
          refine h.did_own (a.finalize eventId row) hghost hown hid (fun j => ?_) hev rfl ?_
          · rw [hdb]
            exact hfind j
          · refine ⟨hof.key, ?_, ?_, ?_, fun hs => (by cases hs), fun _ => .inl ⟨a, eventId, rfl, rfl,
              rfl, rfl, hevent⟩⟩
            all_goals
              rw [hmarker]
              simp only [FinalizeArgs.finalize, hof.attempt, hof.monotonic, hof.bootId, hopen.marker]
              split <;> rfl

theorem Ledger.did_recover {env : Env} {r : Except Exc Nat} (h : Ledger cfg st log)
    (hghost : ghost (watch cfg) c log = some s)
    (hexec : (Eff.store .recoverInterruptedActuations).exec c env st = some (r, st')) :
    Ledger cfg st' (.did c (.store .recoverInterruptedActuations) r :: log) := by
  have hrun := exec_store_run hexec
  have hev := StoreOp.run_events hrun
  cases r with
  | error x =>
      refine h.did_same hghost ?_ hev rfl rfl rfl
      rw [StoreOp.run_error hrun]
      exact .refl _
  | ok n =>
      cases hf : env.storeFault with
      | some x =>
          rw [hf] at hrun
          cases hrun
      | none =>
          rw [hf] at hrun
          obtain ⟨n', db', hrun', hrec⟩ := recover_recovers env.now st.db
          cases (show LocalStore.recoverInterruptedActuations env.now st.db = _ from hrun).symm.trans
            hrun'
          have hrecorded : ∀ t, Recorded st.db t → Recorded st'.db t := by
            intro t ht a claim hown
            obtain ⟨i, row, hid, hrow, hof⟩ := ht a claim hown
            rcases hrec.row i row hrow with ⟨-, hfind⟩ | ⟨hstate, _, _, _, eventId, _, -, hfind, -⟩
            · exact ⟨i, row, hid, hfind, hof.mono hev rfl rfl⟩
            · exact ⟨i, _, hid, hfind, hof.recover hstate eventId⟩
          exact ⟨h.recorded.did hghost (hrecorded s (h.recorded c s hghost))
            fun d t _ _ ht => hrecorded t ht, h.distinct_did hghost rfl⟩

/-! ## Every run -/

theorem Ledger.did_step {env : Env} {e : Eff} {r : Except Exc e.Ans} (h : Ledger cfg st log)
    (hghost : ghost (watch cfg) c log = some s) (hcoh : s.Coherent (cfg c.proc))
    (hallow : s.allow (cfg c.proc) e) (hexec : e.exec c env st = some (r, st')) :
    Ledger cfg st' (.did c e r :: log) := by
  by_cases he : ∃ op, e = .store op
  · obtain ⟨op, rfl⟩ := he
    have hother : op.rewrites = false → (s.store.nextStore op r).claimed = s.store.claimed →
        (s.store.nextStore op r).marked = s.store.marked →
        (s.store.nextStore op r).finalized = s.store.finalized →
        Ledger cfg st' (.did c (.store op) r :: log) := fun hop h₁ h₂ h₃ =>
      have hrun := exec_store_run hexec
      h.did_same hghost (StoreOp.run_claims hrun hop) (StoreOp.run_events hrun) h₁ h₂ h₃
    cases op with
    | claimActuation a => exact h.did_claim hghost hcoh hallow hexec
    | markActuationAttempt a => exact h.did_mark hghost hallow hexec
    | finalizeActuation a => exact h.did_finalize hghost hallow hexec
    | recoverInterruptedActuations => exact h.did_recover hghost hexec
    | terminalOutcome key => cases r <;> exact hother rfl rfl rfl rfl
    | eventId key => cases r <;> exact hother rfl rfl rfl rfl
    | _ => exact hother rfl rfl rfl rfl
  · have he' : ∀ op, e ≠ .store op := fun op h => he ⟨op, h⟩
    obtain ⟨h₁, h₂, h₃⟩ := s.next_ledger r he'
    have hdb := (exec_unmoved hexec).db he'
    refine h.did_same hghost ?_ ?_ h₁ h₂ h₃
    · rw [hdb]
      exact .refl _
    · rw [hdb]
      exact .refl _

theorem Ledger.began {call : Call} (h : Ledger cfg st log) (haccept : call.accept c st = some st') :
    Ledger cfg st' (.began c call :: log) := by
  have hnone : ∀ a claim, ¬ (Watch.start call).store.Owns a claim := by
    rintro a claim ⟨hown, -⟩
    cases hown
  have hdb := (accept_admitted haccept).db
  refine ⟨h.recorded.began (fun a claim ho => absurd ho (hnone a claim)) fun d t _ _ hd => ?_, ?_⟩
  · rw [hdb]
    exact hd
  · intro d₁ d₂ t₁ t₂ a₁ a₂ c₁ c₂ hg₁ hg₂ ho₁ ho₂ hid
    have hne : ∀ d t a claim, ghost (watch cfg) d (.began c call :: log) = some t →
        t.store.Owns a claim → d ≠ c := by
      rintro d t a claim hg ho rfl
      cases hg.symm.trans ghost_began_self
      exact hnone a claim ho
    rw [ghost_began_ne (hne d₁ t₁ a₁ c₁ hg₁ ho₁).symm] at hg₁
    rw [ghost_began_ne (hne d₂ t₂ a₂ c₂ hg₂ ho₂).symm] at hg₂
    exact h.distinct d₁ d₂ t₁ t₂ a₁ a₂ c₁ c₂ hg₁ hg₂ ho₁ ho₂ hid

theorem Ledger.crash (h : Ledger cfg st log) (p : Nat) (env : Env) :
    Ledger cfg (st.crash p env) (.crashed p :: log) := by
  refine ⟨fun d t hg => ?_, h.distinct⟩
  rw [crash_db]
  exact h.recorded d t hg

theorem Ledger.init (db : Db) (boot : Option String) : Ledger cfg { db, boot } [] where
  recorded d s h := by cases h
  distinct c d s t a b ca cb h := by cases h

/-- Two calls never own the same key. -/
theorem Ledger.key_unique (h : Ledger cfg st log) {c d : CallId} {s t : Watch} {a b : ClaimArgs}
    {ca cb : ActuationClaim} (hc : ghost (watch cfg) c log = some s)
    (hd : ghost (watch cfg) d log = some t) (ha : s.store.Owns a ca) (hb : t.store.Owns b cb)
    (hkey : a.idempotencyKey = b.idempotencyKey) : c = d := by
  obtain ⟨i, ri, hi, hri, hofi⟩ := h.recorded c s hc a ca ha
  obtain ⟨j, rj, hj, hrj, hofj⟩ := h.recorded d t hd b cb hb
  refine h.distinct c d s t a b ca cb hc hd ha hb (hi.trans (Eq.trans ?_ hj.symm))
  refine congrArg some (st.db.claims.keys _ (Table.find?_eq_some_iff.1 hri) _
    (Table.find?_eq_some_iff.1 hrj) a.idempotencyKey (congrArg some hofi.key) ?_)
  rw [hkey]
  exact congrArg some hofj.key

end GateController

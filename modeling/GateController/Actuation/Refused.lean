import GateController.Actuation.AtMostOnce
import GateController.Actuation.Authority

/-!
# A refused actuation and the cooldown

A call that is refused still writes: a claim, a mark that is committed before the
check is asked, an event.  `Refusal` names the ways in which a call is finalized
without the output having been energised, and `insertedRows` the rows that the call
has put into the two tables the cooldown query reads.  Once the call is
finalized, the query answers as if those rows were not there, and it goes on to do
so whatever happens afterwards.
-/

namespace GateController

open Data Effects Proc LocalStore ActuationCoordinator

/-! ## The database without some of its rows -/

/-- Rows of the two tables that the cooldown query reads, by id. -/
structure Rows where
  claims : List Nat := []
  events : List Nat := []

/-- The rows of both. -/
def Rows.append (r r' : Rows) : Rows := ⟨r.claims ++ r'.claims, r.events ++ r'.events⟩

/-- The database without these rows. -/
def Db.without (db : Db) (rows : Rows) : Db :=
  { db with
    claims := db.claims.delete fun id _ => decide (id ∈ rows.claims)
    events := db.events.delete fun id _ => decide (id ∈ rows.events) }

/-- A claim that carries no mark. -/
structure ClaimRow.Unmarked (row : ClaimRow) : Prop where
  attempt : row.activationAttemptAt = none
  monotonic : row.activationMonotonic = none
  bootId : row.bootId = none

/-- An event that does not report an opening. -/
structure EventRow.Dark (row : EventRow) : Prop where
  opened : row.opened = false
  activatedAt : row.relayActivatedAt = none

/-- The rows say nothing to the cooldown query. -/
structure Rows.Silent (db : Db) (rows : Rows) : Prop where
  claims : ∀ id ∈ rows.claims, ∀ row, db.claims.find? id = some row → row.Unmarked
  events : ∀ id ∈ rows.events, ∀ row, db.events.find? id = some row → row.Dark

/-- Rows that a predicate does not hold of may be left out. -/
theorem any_filter_of_implies {α : Type} {p q : α → Bool} {l : List α}
    (h : ∀ a ∈ l, q a = false → p a = false) : (l.filter q).any p = l.any p := by
  induction l with
  | nil => rfl
  | cons a l ih =>
      have ih := ih fun b hb => h b (List.mem_cons_of_mem a hb)
      cases hq : q a with
      | true => rw [List.filter_cons_of_pos hq, List.any_cons, List.any_cons, ih]
      | false =>
          rw [List.filter_cons_of_neg (by simp [hq]), List.any_cons, ih,
            h a List.mem_cons_self hq, Bool.false_or]

/-- Entries that a fold passes over may be left out. -/
theorem foldl_filter_of_fixed {α β : Type} {f : β → α → β} {q : α → Bool} {l : List α}
    (h : ∀ a ∈ l, q a = false → ∀ b, f b a = b) (b : β) :
    (l.filter q).foldl f b = l.foldl f b := by
  induction l generalizing b with
  | nil => rfl
  | cons a l ih =>
      have ih := ih fun c hc => h c (List.mem_cons_of_mem a hc)
      cases hq : q a with
      | true => rw [List.filter_cons_of_pos hq, List.foldl_cons, List.foldl_cons, ih]
      | false =>
          rw [List.filter_cons_of_neg (by simp [hq]), List.foldl_cons,
            h a List.mem_cons_self hq, ih]

variable {db db' : Db} {rows : Rows}

/-- A row that is left out carries no mark. -/
theorem Rows.Silent.unmarked (h : rows.Silent db) :
    ∀ p ∈ db.claims.rows, (!decide (p.1 ∈ rows.claims)) = false → p.2.Unmarked := by
  intro p hp hout
  exact h.claims p.1 (by simpa using hout) p.2 (Table.find?_eq_some_iff.2 hp)

theorem Rows.Silent.latestAttempt (h : rows.Silent db) :
    latestAttempt (db.without rows).claims.rows = latestAttempt db.claims.rows := by
  refine foldl_filter_of_fixed (fun p hp hout best => ?_) none
  rw [(h.unmarked p hp hout).attempt]

theorem Rows.Silent.monotonicAttempt (h : rows.Silent db) (boot : String) (cutoff : ℚ) :
    monotonicAttempt (db.without rows) boot cutoff = monotonicAttempt db boot cutoff := by
  refine any_filter_of_implies fun p hp hout => ?_
  rw [(h.unmarked p hp hout).monotonic]
  exact Bool.and_false _

theorem Rows.Silent.attemptedClaim (h : rows.Silent db) (cutoff : String) :
    attemptedClaim (db.without rows) cutoff = attemptedClaim db cutoff := by
  refine any_filter_of_implies fun p hp hout => ?_
  rw [(h.unmarked p hp hout).attempt]
  rfl

theorem Rows.Silent.openedEvent (h : rows.Silent db) (cutoff : String) :
    openedEvent (db.without rows) cutoff = openedEvent db cutoff := by
  refine any_filter_of_implies fun p hp hout => ?_
  have hdark := h.events p.1 (by simpa using hout) p.2 (Table.find?_eq_some_iff.2 hp)
  simp only [hdark.activatedAt, hdark.opened, Bool.false_and]

/-- The cooldown query does not see silent rows. -/
theorem Rows.Silent.wasOpenedSince (h : rows.Silent db) (cutoff : DateTime)
    (monotonicCutoff : Option ℚ) (bootId : Option String) :
    wasOpenedSince (db.without rows) cutoff monotonicCutoff bootId =
      wasOpenedSince db cutoff monotonicCutoff bootId := by
  simp only [LocalStore.wasOpenedSince, otherBootLatest, h.latestAttempt, h.monotonicAttempt,
    h.attemptedClaim, h.openedEvent]

/-! ## The rows of a call -/

/-- The ids that the second table has and the first does not. -/
def newIds {α κ : Type} {key : α → Option κ} (t t' : Table α κ key) : List Nat :=
  (t'.rows.map Prod.fst).filter fun id => (t.find? id).isNone

/-- The rows that have come into the database. -/
def newRows (db db' : Db) : Rows := ⟨newIds db.claims db'.claims, newIds db.events db'.events⟩

/-- The store operations of `actuate`. -/
def StoreOp.actuates : StoreOp → Bool
  | .terminalOutcome _ | .ensureOutbox _ _ | .queueCommandAck _ _ _ | .claimActuation _
  | .markActuationAttempt _ | .finalizeActuation _ | .recordTerminalOutcome _ => true
  | _ => false

/-- Whether the next operation of a call is one of those. -/
def actuatesNext : Option (Proc Result) → Bool
  | some (.call (.store op) _) => op.actuates
  | _ => false

variable (cfg : Nat → Config)

/-- The rows that one step puts into the tables for an actuation of the call. -/
def insertedBy (c : CallId) (w : GateWorld) (ch : Choice Env Call) : Rows :=
  match ch with
  | .step d _ =>
      if d = c ∧ actuatesNext (w.running c) then newRows w.state.db ((gate cfg).step w ch).state.db
      else {}
  | _ => {}

/-- The rows that an actuation of the call has put into the tables in a run, and
those it had put there before. -/
def insertedRows (c : CallId) (w : GateWorld) (rows : Rows) : List (Choice Env Call) → Rows
  | [] => rows
  | ch :: rest => insertedRows c ((gate cfg).step w ch) (rows.append (insertedBy cfg c w ch)) rest

/-- What the rows of a call may be: a claim is finalized without a mark or is the one
the call owns, and an event is dark if the call has not lit the output. -/
structure Placed (c : CallId) (db : Db) (log : Log) (rows : Rows) : Prop where
  claims : ∀ id ∈ rows.claims,
    (∃ row, db.claims.find? id = some row ∧ row.state = .finalized ∧ row.Unmarked) ∨
    ∃ s a claim, ghost (watch cfg) c log = some s ∧ s.store.Owns a claim ∧ claim.claimId = some id
  events : ∀ id ∈ rows.events, ∃ row, db.events.find? id = some row ∧
    (row.Dark ∨ ∃ s, ghost (watch cfg) c log = some s ∧
      (s.relay.lit = true ∨ ∃ b, s.call = .recordTerminalOutcome b))

variable {cfg} {c : CallId} {log log' : Log}

theorem Placed.empty (db : Db) (log : Log) : Placed cfg c db log {} where
  claims _ h := by cases h
  events _ h := by cases h

theorem Placed.append {rows' : Rows} (h : Placed cfg c db log rows)
    (h' : Placed cfg c db log rows') : Placed cfg c db log (rows.append rows') where
  claims id hid := (List.mem_append.1 hid).elim (h.claims id) (h'.claims id)
  events id hid := (List.mem_append.1 hid).elim (h.events id) (h'.events id)

/-- What has been placed stays where it is. -/
theorem Placed.mono (h : Placed cfg c db log rows)
    (hfinal : ∀ id row, db.claims.find? id = some row → row.state = .finalized →
      db'.claims.find? id = some row)
    (hevents : db.events.Extends db'.events)
    (hlater : ∀ s, ghost (watch cfg) c log = some s →
      ∃ s', ghost (watch cfg) c log' = some s' ∧ s.Later s') : Placed cfg c db' log' rows where
  claims id hid := by
    rcases h.claims id hid with ⟨row, hrow, hstate, hun⟩ | ⟨s, a, claim, hs, hown, hclaim⟩
    · exact .inl ⟨row, hfinal id row hrow hstate, hstate, hun⟩
    · obtain ⟨s', hs', hl⟩ := hlater s hs
      exact .inr ⟨s', a, claim, hs', hl.owns hown, hclaim⟩
  events id hid := by
    obtain ⟨row, hrow, hdark | ⟨s, hs, hwhy⟩⟩ := h.events id hid
    · exact ⟨row, hevents id row hrow, .inl hdark⟩
    · obtain ⟨s', hs', hl⟩ := hlater s hs
      refine ⟨row, hevents id row hrow, .inr ⟨s', hs', hwhy.imp hl.lit ?_⟩⟩
      rintro ⟨b, hb⟩
      exact ⟨b, hl.call.trans hb⟩

/-! ## What one operation places -/

theorem mem_newIds {α κ : Type} {key : α → Option κ} {t t' : Table α κ key} {id : Nat} :
    id ∈ newIds t t' ↔ (∃ row, t'.find? id = some row) ∧ t.find? id = none := by
  simp only [newIds, List.mem_filter, List.mem_map, Option.isNone_iff_eq_none]
  refine and_congr_left fun _ => ⟨?_, ?_⟩
  · rintro ⟨p, hp, rfl⟩
    exact ⟨p.2, Table.find?_eq_some_iff.2 hp⟩
  · rintro ⟨row, hrow⟩
    exact ⟨_, Table.find?_eq_some_iff.1 hrow, rfl⟩

/-- Nothing has come into a table whose rows were only changed. -/
theorem newIds_eq_nil {α κ : Type} {key : α → Option κ} {t t' : Table α κ key}
    (h : ∀ id, t.find? id = none → t'.find? id = none) : newIds t t' = [] := by
  refine List.eq_nil_iff_forall_not_mem.2 fun id hid => ?_
  obtain ⟨⟨row, hrow⟩, hfree⟩ := mem_newIds.1 hid
  rw [h id hfree] at hrow
  cases hrow

/-- An insert brings its row. -/
theorem newIds_insert {α κ : Type} {key : α → Option κ} [DecidableEq κ] {t t' : Table α κ key}
    {a : α} {id : Nat} (h : t.insert a = some (id, t')) {i : Nat} (hi : i ∈ newIds t t') : i = id := by
  obtain ⟨⟨row, hrow⟩, hfree⟩ := mem_newIds.1 hi
  rw [Table.find?_insert h] at hrow
  split at hrow
  · assumption
  · rw [hfree] at hrow
    cases hrow

/-- A row that is changed in place is not new. -/
theorem newIds_changed {α κ : Type} {key : α → Option κ} {t t' : Table α κ key} {id : Nat}
    {row row' : α} (hrow : t.find? id = some row)
    (h : ∀ i, t'.find? i = if i = id then some row' else t.find? i) : newIds t t' = [] := by
  refine newIds_eq_nil fun i hi => ?_
  rw [h, if_neg, hi]
  rintro rfl
  rw [hrow] at hi
  cases hi

theorem newIds_self {α κ : Type} {key : α → Option κ} (t : Table α κ key) : newIds t t = [] :=
  newIds_eq_nil fun _ h => h

section Operation

variable {s : Watch} {now : DateTime} {fault : Option Exc} {e : Eff}

/-- An event that a call inserts with its outcome. -/
theorem Placed.of_event {event : GateEvent} {eventId : Nat} {r : Except Exc e.Ans}
    {events : Table EventRow String EventRow.idempotencyKey} {rows : List Nat}
    (hghost : ghost (watch cfg) c log = some s)
    (hevent : (event.opened = false ∧ event.relayActivatedAt = none) ∨
      (s.next e r).relay.lit = true ∨ ∃ b, (s.next e r).call = .recordTerminalOutcome b)
    (hins : db.events.insert (eventRow event) = some (eventId, events))
    (hdb : db'.events = events)
    (hclaims : ∀ id ∈ rows,
      (∃ row, db'.claims.find? id = some row ∧ row.state = .finalized ∧ row.Unmarked)) :
    Placed cfg c db' (.did c e r :: log) ⟨rows, newIds db.events events⟩ where
  claims id hid := .inl (hclaims id hid)
  events id hid := by
    have hrow := Table.find?_insert hins id
    rw [if_pos (newIds_insert hins hid), ← hdb] at hrow
    refine ⟨eventRow event, hrow, hevent.imp (fun h => ⟨h.1, ?_⟩) fun h => ?_⟩
    · change optionalTimestamp event.relayActivatedAt = none
      rw [h.2]
      rfl
    · exact ⟨_, ghost_did_self hghost, h⟩

/-- No rows have come. -/
theorem Placed.of_nothing (hclaims : newIds db.claims db'.claims = [])
    (hevents : newIds db.events db'.events = []) : Placed cfg c db' log (newRows db db') := by
  rw [newRows, hclaims, hevents]
  exact .empty db' log

/-- A store operation of an actuation places its rows. -/
theorem placed_store {op : StoreOp} {r : Except Exc op.Ans} (hop : op.actuates = true)
    (hghost : ghost (watch cfg) c log = some s) (hallow : s.AllowStore (cfg c.proc) op)
    (hposs : (Eff.store op).Possible r) (hrun : op.run now fault db = (r, db')) :
    Placed cfg c db' (.did c (.store op) r :: log) (newRows db db') := by
  cases r with
  | error x =>
      rw [StoreOp.run_error hrun]
      exact .of_nothing (newIds_self _) (newIds_self _)
  | ok answer =>
      have hrun' := hrun
      cases fault with
      | some x => cases hrun
      | none =>
      replace hrun : op.txn now db = (.ok answer, db') := hrun
      cases op with
      | claimActuation a =>
          rcases claimActuation_cases a db with ⟨_, _, -, heq⟩ | ⟨-, -, heq⟩ | ⟨id, claims, -, hins, heq⟩
            <;> cases (show LocalStore.claimActuation a db = _ from hrun).symm.trans heq
          · exact .of_nothing (newIds_self _) (newIds_self _)
          · exact .of_nothing (newIds_self _) (newIds_self _)
          · refine ⟨fun i hi => .inr ⟨_, a, _, ghost_did_self hghost, ⟨rfl, rfl, rfl⟩, ?_⟩,
              fun i hi => ?_⟩
            · rw [newIds_insert hins hi]
            · have hnil : newIds db.events db.events = [] := newIds_self _
              rw [newRows, hnil] at hi
              cases hi
      | markActuationAttempt a =>
          obtain ⟨id, row, claims, -, -, hrow, -, -, rfl, hfind⟩ := markActuationAttempt_ok hrun
          exact .of_nothing (newIds_changed hrow hfind) (newIds_self _)
      | finalizeActuation a =>
          obtain ⟨id, row, events, claims, -, -, -, hrow, -, hins, rfl, hfind⟩ :=
            finalizeActuation_ok hrun
          obtain ⟨-, -, -, -, -, -, hdark, -⟩ := hallow
          have hnil : newIds db.claims claims = [] := newIds_changed hrow hfind
          refine .of_event hghost ?_ hins rfl fun i hi => ?_
          · cases hlit : s.relay.lit with
            | false => exact .inl (hdark hlit)
            | true => exact .inr (.inl hlit)
          · rw [hnil] at hi
            cases hi
      | recordTerminalOutcome a =>
          have hevent : (a.event.opened = false ∧ a.event.relayActivatedAt = none) ∨
              s.relay.lit = true ∨ ∃ b, s.call = .recordTerminalOutcome b := by
            rcases hallow with hcall | ⟨-, -, -, -, hdark⟩
            · exact .inr (.inr hcall)
            · exact .inl hdark
          rcases recordTerminalOutcome_ok hrun with ⟨eventId, -, hrec⟩ | ⟨key, hkey, hrec⟩
          · rcases recordEventWithOutbox_ok hrec with ⟨events, hins, rfl⟩ | ⟨_, _, -, -, rfl⟩
            · refine .of_event hghost hevent hins rfl fun i hi => ?_
              have hnil : newIds db.claims db.claims = [] := newIds_self _
              rw [hnil] at hi
              cases hi
            · exact .of_nothing (newIds_self _) (newIds_self _)
          · rcases recordTerminalOutcomeOf_ok hrec with
              ⟨_, _, _, -, -, -, rfl⟩ | ⟨eventId, events, id, claims, -, hins, hnew, rfl⟩
            · exact .of_nothing (newIds_self _) (newIds_self _)
            · refine .of_event hghost hevent hins rfl fun i hi => ⟨a.row key eventId, ?_, rfl, ?_⟩
              · exact (Table.find?_insert hnew i).trans (if_pos (newIds_insert hnew hi))
              · exact ⟨rfl, rfl, rfl⟩
      | terminalOutcome key =>
          cases hrun
          exact .of_nothing (newIds_self _) (newIds_self _)
      | ensureOutbox id payload =>
          cases hrun
          exact .of_nothing (newIds_self _) (newIds_self _)
      | queueCommandAck ack status detail =>
          cases hrun
          exact .of_nothing (newIds_self _) (newIds_self _)
      | _ => cases hop

end Operation

/-! ## Runs -/

/-- No step takes an event away or changes a finalized claim. -/
theorem step_tables (w : GateWorld) (ch : Choice Env Call) :
    (∀ id row, w.state.db.claims.find? id = some row → row.state = .finalized →
      ((gate cfg).step w ch).state.db.claims.find? id = some row) ∧
    w.state.db.events.Extends ((gate cfg).step w ch).state.db.events := by
  have hsame : ∀ st : State, st.db = w.state.db →
      (∀ id row, w.state.db.claims.find? id = some row → row.state = .finalized →
        st.db.claims.find? id = some row) ∧ w.state.db.events.Extends st.db.events := by
    intro st hst
    rw [hst]
    exact ⟨fun _ _ h _ => h, .refl _⟩
  have hmove := Machine.step_move (M := gate cfg) w ch
  generalize ((gate cfg).step w ch).state = st at hmove ⊢
  cases hmove with
  | stay => exact hsame _ rfl
  | begin d call haccept => exact hsame _ (accept_admitted haccept).db
  | crash p env => exact hsame _ (crash_db p env w.state)
  | did d env hrunning hexec =>
      next e k r =>
      by_cases he : ∃ op, e = .store op
      · obtain ⟨op, rfl⟩ := he
        have hrun := exec_store_run (c := d) hexec
        exact ⟨fun id row hrow hstate => StoreOp.run_finalized hrun hrow hstate,
          StoreOp.run_events hrun⟩
      · exact hsame _ ((exec_unmoved hexec).db fun op h => he ⟨op, h⟩)

/-- What a step inserts for the call. -/
theorem placed_inserted {w : GateWorld} (hsound : Sound (watch cfg) (Concluded cfg) w)
    (ch : Choice Env Call) :
    Placed cfg c ((gate cfg).step w ch).state.db ((gate cfg).step w ch).log
      (insertedBy cfg c w ch) := by
  cases ch with
  | begin d call => exact .empty _ _
  | crash p env => exact .empty _ _
  | step d env =>
      simp only [insertedBy]
      split
      · next hstep =>
        obtain ⟨rfl, hnext⟩ := hstep
        cases hrunning : w.running d with
        | none =>
            rw [hrunning] at hnext
            cases hnext
        | some p =>
            rw [hrunning] at hnext
            unfold actuatesNext at hnext
            split at hnext
            · next op k heq =>
              cases heq
              obtain ⟨s, hs, hallow, -⟩ := hsound.obeys d _ hrunning
              simp only [Machine.step, hrunning, Machine.advance]
              exact placed_store hnext hs hallow (Eff.possible_of_exec (c := d)
                (s := w.state) rfl) rfl
            · cases hnext
      · exact .empty _ _

theorem placed_step {w : GateWorld} {ch : Choice Env Call}
    (hsound : Sound (watch cfg) (Concluded cfg) w)
    (hsound' : Sound (watch cfg) (Concluded cfg) ((gate cfg).step w ch))
    (h : Placed cfg c w.state.db w.log rows) :
    Placed cfg c ((gate cfg).step w ch).state.db ((gate cfg).step w ch).log
      (rows.append (insertedBy cfg c w ch)) := by
  obtain ⟨hfinal, hevents⟩ := step_tables w ch
  refine (h.mono hfinal hevents fun s hs => ?_).append (placed_inserted hsound ch)
  exact later_of_suffix hsound'.lawful ((gate cfg).log_suffix_step w ch) hs

theorem placed_run {w : GateWorld} {l : List (Choice Env Call)}
    (hsound : Sound (watch cfg) (Concluded cfg) w) (hbase : Base cfg w.state w.log)
    (h : Placed cfg c w.state.db w.log rows) :
    Placed cfg c ((gate cfg).run w l).state.db ((gate cfg).run w l).log
      (insertedRows cfg c w rows l) := by
  induction l generalizing w rows with
  | nil => exact h
  | cons ch rest ih =>
      obtain ⟨hsound', hbase'⟩ := (base_invariant cfg).step hsound hbase trivial
      exact ih hsound' hbase' (placed_step hsound hsound' h)

/-! ## Refusals -/

/-- Whether a call comes to `actuate`. -/
def Call.actuates : Call → Bool
  | .actuate _ | .execute _ _ | .process _ => true
  | _ => false

/-- What a call has seen when it stores that it was refused. -/
inductive Watch.Refused (s : Watch) : StoreOp → Prop
  /-- The database's cooldown refused the claim. -/
  | claim {a : TerminalArgs} {ca : ClaimArgs} {claim : ActuationClaim}
      (hclaimed : s.store.claimed = some (ca, claim)) (hstatus : claim.status = .cooldown) :
      s.Refused (.recordTerminalOutcome a)
  /-- The cooldown in memory refused the call before it was marked. -/
  | lastAttempt {a : FinalizeArgs} (hmarked : s.store.marked = none)
      (hreturned : s.store.returned = none) : s.Refused (.finalizeActuation a)
  /-- The check objected, or the relay was latched. -/
  | trigger {a : FinalizeArgs} {result : RelayResult} (hreturned : s.store.returned = some result)
      (hreason : s.store.inhibition.isSome ∨ result.reason = "relay_latched") :
      s.Refused (.finalizeActuation a)

/-- The call has stored that it was refused. -/
def Refusal (cfg : Nat → Config) (c : CallId) (log : Log) : Prop :=
  ∃ s op r earlier, .did c (.store op) (.ok r) :: earlier <:+ log ∧
    ghost (watch cfg) c earlier = some s ∧ s.call.actuates = true ∧ s.Refused op

variable {s s' : Watch} {op : StoreOp} {r : Except Exc op.Ans}

theorem activationAttempted_eq_false {inhibition : Option Inhibition} {result : RelayResult}
    (h : inhibition.isSome ∨ result.reason = "relay_latched") :
    activationAttempted inhibition result = false := by
  rcases h with h | h
  · rw [activationAttempted, Option.isNone_eq_false_iff.2 h, Bool.false_and]
  · rw [activationAttempted, h]
    exact Bool.and_false _

/-- A call that is not marked has not lit the output. -/
theorem Watch.Coherent.unlit {cfg : Config} (h : s.Coherent cfg)
    (hcall : s.call.actuates = true) (hmarked : s.store.marked = none) : s.relay.lit = false := by
  rw [Bool.eq_false_iff]
  intro hlit
  rcases h.lit hlit with htrigger | hcalled
  · cases hs : s.call <;> simp [hs, Call.actuates, Call.isTrigger] at hcall htrigger
  · obtain ⟨m, hm⟩ := (h.called hcalled).1
    rw [hmarked] at hm
    cases hm

/-- What is left of a refusal at any later moment: the output was not lit, and what
the call owns carries no mark. -/
theorem Watch.Refused.later {cfg : Config} {answer : op.Ans} (h : s.Refused op)
    (hcoh : s.Coherent cfg) (hcoh' : s'.Coherent cfg) (hcall : s.call.actuates = true)
    (hallow : s.AllowStore cfg op) (hlater : (s.next (.store op) (.ok answer)).Later s') :
    s'.relay.lit = false ∧ ∀ a claim, s'.store.Owns a claim → s'.marker = none := by
  have hcall' : s'.call.actuates = true := by
    rw [hlater.call]
    exact hcall
  have hfinal : ∀ a, op = .finalizeActuation a → s.relay.lit = false →
      (a.keepAttempt = true → s.store.marked = none) →
      s'.relay.lit = false ∧ ∀ a claim, s'.store.Owns a claim → s'.marker = none := by
    rintro a rfl hlit hkeep
    obtain ⟨hmarked', hlit'⟩ := hlater.sealed rfl
    have hfin : s'.store.finalized = some (a, true) := hlater.finalized (a, true) rfl
    refine ⟨hlit'.trans hlit, fun _ _ _ => ?_⟩
    simp only [Watch.marker, hfin]
    split
    · next hk => exact hmarked'.trans (hkeep hk)
    · rfl
  cases h with
  | claim hclaimed hstatus =>
      have hclaimed' := hlater.claimed _ hclaimed
      have howns : ∀ a claim, ¬ s'.store.Owns a claim := by
        rintro a claim ⟨hown, hs, -⟩
        rw [hclaimed'] at hown
        cases hown
        rw [hstatus] at hs
        cases hs
      refine ⟨hcoh'.unlit hcall' ?_, fun a claim hown => absurd hown (howns a claim)⟩
      cases hm : s'.store.marked with
      | none => rfl
      | some m =>
          obtain ⟨-, ca, now, hown, -⟩ := hcoh'.marked m hm
          exact absurd hown (howns ca m.claim)
  | lastAttempt hmarked hreturned =>
      exact hfinal _ rfl (hcoh.unlit hcall hmarked) fun _ => hmarked
  | trigger hreturned hreason =>
      next a result =>
      obtain ⟨-, -, -, -, hlit, -, -, hretain⟩ := hallow
      have hnot := (hretain result hreturned).1.trans (activationAttempted_eq_false hreason)
      refine hfinal a rfl (Bool.eq_false_iff.2 fun h => ?_) fun hkeep => ?_
      · rw [(hlit h).1] at hnot
        cases hnot
      · rw [FinalizeArgs.keepAttempt, hnot] at hkeep
        cases hkeep

/-- A call that is refused has not stamped its attempt before, -/
theorem Watch.Refused.unstamped {cfg : Config} (h : s.Refused op) (hallow : s.AllowStore cfg op)
    (hstamped : s.store.stamped.isSome) (hreturned : s.store.returned.isSome) {ca : ClaimArgs}
    {claim : ActuationClaim} (hown : s.store.Owns ca claim) : False := by
  cases h with
  | claim hclaimed hstatus =>
      rw [hown.1] at hclaimed
      cases hclaimed
      cases hstatus.symm.trans hown.2.1
  | lastAttempt hmarked hnone =>
      rw [hnone] at hreturned
      cases hreturned
  | trigger hsome hreason =>
      next a result =>
      obtain ⟨-, -, -, -, -, -, -, hretain⟩ := hallow
      obtain ⟨heq, hkept⟩ := hretain result hsome
      rw [activationAttempted_eq_false hreason, hkept hstamped] at heq
      cases heq

/-- and it does not stamp it afterwards. -/
theorem Watch.Refused.no_stamp {cfg : Config} {answer : op.Ans} {value : ℚ} (h : s.Refused op)
    (hlater : (s.next (.store op) (.ok answer)).Later s')
    (hallow : s'.allow cfg (.mem (.setLastAttempt value))) : False := by
  obtain ⟨-, -, -, hfinal, ca, claim, hown⟩ := hallow
  cases h with
  | claim hclaimed hstatus =>
      have hclaimed' := hlater.claimed _ hclaimed
      rw [hown.1] at hclaimed'
      cases hclaimed'
      cases hstatus.symm.trans hown.2.1
  | lastAttempt =>
      rw [hlater.finalized _ rfl] at hfinal
      cases hfinal
  | trigger =>
      rw [hlater.finalized _ rfl] at hfinal
      cases hfinal

section Log

variable {Q : CallId → Watch → Except Exc Result → Prop}

/-- The watch of a refused call, whenever it is looked at. -/
theorem Refusal.settled (hlaw : Lawful (watch cfg) Q log) (h : Refusal cfg c log) :
    ∃ s, ghost (watch cfg) c log = some s ∧ s.call.actuates = true ∧ s.relay.lit = false ∧
      ∀ a claim, s.store.Owns a claim → s.marker = none := by
  obtain ⟨s, op, answer, earlier, hmem, hs, hcall, hrefused⟩ := h
  obtain ⟨t, s', ht, hallow, -, hs', hlater⟩ := later_of_did hlaw hmem
  cases hs.symm.trans ht
  have hcoh := coherent_of_lawful (hlaw.suffix ((List.suffix_cons _ _).trans hmem)) c s hs
  obtain ⟨hlit, hmarker⟩ :=
    hrefused.later hcoh (coherent_of_lawful hlaw c s' hs') hcall hallow hlater
  refine ⟨s', hs', ?_, hlit, hmarker⟩
  rw [hlater.call]
  exact hcall

/-- A refused call never stamps its attempt. -/
theorem Refusal.not_stamped (hlaw : Lawful (watch cfg) Q log) (h : Refusal cfg c log) (value : ℚ)
    (r : Except Exc (Eff.mem (.setLastAttempt value)).Ans) :
    .did c (.mem (.setLastAttempt value)) r ∉ log := by
  intro hstamp
  obtain ⟨s, op, answer, earlier, hmem, hs, hcall, hrefused⟩ := h
  obtain ⟨later, before, hsplit⟩ := List.append_of_mem hstamp
  have hset : .did c (.mem (.setLastAttempt value)) r :: before <:+ log := ⟨later, hsplit.symm⟩
  have hlaw₁ := hlaw.suffix ((List.suffix_cons _ _).trans hmem)
  have hlaw₂ := hlaw.suffix ((List.suffix_cons _ _).trans hset)
  obtain ⟨t, ht, hallow, -⟩ := (hlaw.did hmem).2
  cases hs.symm.trans ht
  obtain ⟨u, hu, hset', -⟩ := (hlaw.did hset).2
  have hallow' : u.allow (cfg c.proc) (.mem (.setLastAttempt value)) := hset'
  rcases List.suffix_or_suffix_of_suffix hmem hset with hfirst | hfirst <;>
    rcases List.suffix_cons_iff.1 hfirst with heq | hfirst
  · cases heq
  · -- The refusal was stored first.
    obtain ⟨s₁, u₁, hs₁, -, -, hu₁, hlate⟩ := later_of_did hlaw₂ hfirst
    cases hs.symm.trans hs₁
    cases hu.symm.trans hu₁
    exact hrefused.no_stamp hlate hallow'
  · cases heq
  · -- The attempt was stamped first.
    obtain ⟨u₁, s₁, hu₁, -, -, hs₁, hlate⟩ := later_of_did hlaw₁ hfirst
    cases hs.symm.trans hs₁
    cases hu.symm.trans hu₁
    obtain ⟨-, hreturned, -, -, ca, claim, hown⟩ := hallow'
    exact hrefused.unstamped hallow (hlate.stamped rfl) (hlate.returned hreturned)
      (hlate.owns hown)

end Log

/-- The rows that a refused call has placed say nothing to the cooldown query. -/
theorem Placed.silent {st : State} (h : Placed cfg c st.db log rows) (hledger : Ledger cfg st log)
    (hs : ghost (watch cfg) c log = some s) (hcall : s.call.actuates = true)
    (hlit : s.relay.lit = false) (hmarker : ∀ a claim, s.store.Owns a claim → s.marker = none) :
    rows.Silent st.db where
  claims id hid row hrow := by
    rcases h.claims id hid with ⟨row', hrow', -, hun⟩ | ⟨t, a, claim, ht, hown, hclaim⟩
    · cases hrow.symm.trans hrow'
      exact hun
    · cases hs.symm.trans ht
      obtain ⟨i, row', hi, hrow', hof⟩ := hledger.recorded c s hs a claim hown
      cases hclaim.symm.trans hi
      cases hrow.symm.trans hrow'
      have hnone := hmarker a claim hown
      exact ⟨by rw [hof.attempt, hnone]; rfl, by rw [hof.monotonic, hnone]; rfl,
        by rw [hof.bootId, hnone]; rfl⟩
  events id hid row hrow := by
    obtain ⟨row', hrow', hwhy⟩ := h.events id hid
    cases hrow.symm.trans hrow'
    rcases hwhy with hdark | ⟨t, ht, hbright | ⟨b, hb⟩⟩
    · exact hdark
    · cases hs.symm.trans ht
      cases hlit.symm.trans hbright
    · cases hs.symm.trans ht
      rw [hb] at hcall
      cases hcall

/-- In every run, from any database: if a call was refused, the cooldown query
answers at any later moment and for all cutoffs as if the rows that the call has put
into the database were not there.  The call never drives the output high, and it
never stamps the attempt in memory. -/
theorem refused_actuation_traceless (cfg : Nat → Config) (db : Db) (boot : Option String)
    (l : List (Choice Env Call)) (c : CallId)
    (h : Refusal cfg c ((gate cfg).run (gateInit db boot) l).log) :
    (∀ cutoff monotonicCutoff bootId,
      wasOpenedSince ((gate cfg).run (gateInit db boot) l).state.db cutoff monotonicCutoff bootId =
        wasOpenedSince (((gate cfg).run (gateInit db boot) l).state.db.without
          (insertedRows cfg c (gateInit db boot) {} l)) cutoff monotonicCutoff bootId) ∧
    (∀ r, .did c (.relay .high) r ∉ ((gate cfg).run (gateInit db boot) l).log) ∧
    ∀ value r, .did c (.mem (.setLastAttempt value)) r ∉
      ((gate cfg).run (gateInit db boot) l).log := by
  obtain ⟨hsound, -, hledger⟩ := gate_run (ledger_keeps cfg) (Ledger.init db boot)
    ((gate cfg).admits_true (gateInit db boot) l) rfl
  have hplaced : Placed cfg c ((gate cfg).run (gateInit db boot) l).state.db
      ((gate cfg).run (gateInit db boot) l).log (insertedRows cfg c (gateInit db boot) {} l) :=
    placed_run (Sound.init _ _ _) (Base.init db boot) (.empty _ _)
  obtain ⟨s, hs, hcall, hlit, hmarker⟩ := h.settled hsound.lawful
  have hsilent := hplaced.silent hledger hs hcall hlit hmarker
  refine ⟨fun cutoff monotonicCutoff bootId => ?_, fun r hhigh => ?_, fun value r => ?_⟩
  · exact (hsilent.wasOpenedSince cutoff monotonicCutoff bootId).symm
  · obtain ⟨later, before, hsplit⟩ := List.append_of_mem hhigh
    obtain ⟨t', t, -, -, -, ht, hlate⟩ := later_of_did hsound.lawful ⟨later, hsplit.symm⟩
    cases hs.symm.trans ht
    cases hlit.symm.trans (hlate.lit rfl)
  · exact h.not_stamped hsound.lawful value r

/-! ## A command that has expired -/

/-- An actuation whose check objects. -/
def expiredArgs : ActuateArgs where
  event := {
    source := "command"
    reason := "direct_command"
    opened := true
    idempotencyKey := some "k"
    receivedAt := noon }
  preActivationInhibit := some (return some ⟨"expired", "command_expired"⟩)

/-- It runs until its outcome is stored. -/
def expiredRun : List (Choice Env Call) := startThen (.actuate expiredArgs) 21

theorem expiredRun_refusal :
    Refusal (fun _ => {}) ⟨0, 1⟩ ((gate fun _ => {}).run (gateInit Db.fresh) expiredRun).log := by
  refine ⟨_, .finalizeActuation (finalArgs expiredArgs _ _ (some ⟨"expired", "command_expired"⟩)
    (some noon)), (1 : Nat), _, ⟨[], rfl⟩, rfl, rfl, ?_⟩
  exact .trigger rfl (.inl rfl)

theorem refused_actuation_traceless_expired :
    insertedRows (fun _ => {}) ⟨0, 1⟩ (gateInit Db.fresh) {} expiredRun = ⟨[1], [1]⟩ ∧
    (∀ cutoff monotonicCutoff bootId,
      wasOpenedSince ((gate fun _ => {}).run (gateInit Db.fresh) expiredRun).state.db
          cutoff monotonicCutoff bootId =
        wasOpenedSince (((gate fun _ => {}).run (gateInit Db.fresh) expiredRun).state.db.without
          ⟨[1], [1]⟩) cutoff monotonicCutoff bootId) ∧
    (∀ r, .did ⟨0, 1⟩ (.relay .high) r ∉
      ((gate fun _ => {}).run (gateInit Db.fresh) expiredRun).log) ∧
    ∀ value r, .did ⟨0, 1⟩ (.mem (.setLastAttempt value)) r ∉
      ((gate fun _ => {}).run (gateInit Db.fresh) expiredRun).log :=
  ⟨rfl, refused_actuation_traceless (fun _ => {}) Db.fresh none expiredRun ⟨0, 1⟩
    expiredRun_refusal⟩

end GateController

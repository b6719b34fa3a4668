import GateController.Delivery.Discipline
import GateController.Delivery.Sending
import GateController.Data.Cyclic

/-!
# No row starves

The sendable rows are visited in rounds, twenty at a time.  While nothing new
becomes sendable, the rows that were not yet attempted come next, in the order of
the round, whatever became of those that were (`Data.Cyclic.isPrefix_round`).  So
`k` passes attempt the first `20 * k` rows of the round, and a row that always
fails is only one of them.
-/

namespace GateController

open Data Effects Delivery OutboxWorker

/-! ## The sendable rows -/

/-- The ids of the sendable rows, in order. -/
def sendableIds (t : Tables) : List Nat :=
  ((t.db.outbox.rows.filter fun p => sendable p.2).map Prod.fst).insertionSort (· ≤ ·)

variable {t t' : Tables}

theorem mem_sendableIds {id : Nat} :
    id ∈ sendableIds t ↔ ∃ row, t.db.outbox.find? id = some row ∧ sendable row = true := by
  simp only [sendableIds, List.mem_insertionSort, List.mem_map, List.mem_filter]
  constructor
  · rintro ⟨p, ⟨hp, hs⟩, rfl⟩
    exact ⟨p.2, Table.find?_eq_some_iff.2 hp, hs⟩
  · rintro ⟨row, hrow, hs⟩
    exact ⟨(id, row), ⟨Table.find?_eq_some_iff.1 hrow, hs⟩, rfl⟩

theorem sendableIds_pairwise (t : Tables) : (sendableIds t).Pairwise (· < ·) := by
  have hnodup : (sendableIds t).Nodup :=
    (List.perm_insertionSort _ _).nodup_iff.2 (t.db.outbox.ids.sublist (List.filter_sublist.map _))
  have hle : (sendableIds t).Pairwise (· ≤ ·) := List.pairwise_insertionSort _ _
  exact (hle.and hnodup).imp fun h => lt_of_le_of_ne h.1 h.2

/-- Rows that are read one by one keep their ids. -/
theorem map_fst_of_mapM {rows : List (Nat × OutboxRow)} {items : List (Nat × Json)}
    (h : (rows.mapM fun p => do return (p.1, ← loads p.2.payload) : Except Exc _) = .ok items) :
    items.map Prod.fst = rows.map Prod.fst := by
  induction rows generalizing items with
  | nil => cases h; rfl
  | cons p rest ih =>
      rw [List.mapM_cons] at h
      cases hp : loads p.2.payload with
      | error x =>
          rw [hp] at h
          cases h
      | ok value =>
          cases hrest : (rest.mapM fun p => do return (p.1, ← loads p.2.payload) : Except Exc _) with
          | error x =>
              rw [hp, hrest] at h
              cases h
          | ok others =>
              rw [hp, hrest] at h
              cases h
              rw [List.map_cons, List.map_cons, ih hrest]

theorem mapM_loads_ok {rows : List (Nat × OutboxRow)}
    (h : ∀ p ∈ rows, ∃ value, p.2.payload = .json value) :
    ∃ items, (rows.mapM fun p => do return (p.1, ← loads p.2.payload) : Except Exc _) = .ok items := by
  induction rows with
  | nil => exact ⟨[], rfl⟩
  | cons p rest ih =>
      obtain ⟨value, hp⟩ := h p List.mem_cons_self
      obtain ⟨others, hrest⟩ := ih fun q hq => h q (List.mem_cons_of_mem _ hq)
      refine ⟨(p.1, value) :: others, ?_⟩
      rw [List.mapM_cons, hrest, hp]
      rfl

/-- The rows that `pending_outbox_items` takes. -/
def selectedRows (afterId : Option Nat) (t : Tables) : List (Nat × OutboxRow) :=
  let rows : List (Nat × OutboxRow) := t.db.outbox.rows.filter fun p => sendable p.2
  let sorted : List (Nat × OutboxRow) := rows.insertionSort fun a b => a.1 ≤ b.1
  match afterId with
  | none => sorted
  | some after =>
      sorted.filter (fun p => decide (after < p.1)) ++ sorted.filter fun p => decide (p.1 ≤ after)

theorem map_fst_selectedRows (afterId : Option Nat) (t : Tables) :
    (selectedRows afterId t).map Prod.fst = Cyclic.round afterId (sendableIds t) := by
  have hsorted : ((t.db.outbox.rows.filter fun p => sendable p.2).insertionSort
      fun a b => a.1 ≤ b.1).map Prod.fst = sendableIds t :=
    List.map_insertionSort (r := fun a b : Nat × OutboxRow => a.1 ≤ b.1) (· ≤ ·) Prod.fst _ fun _ _ _ _ => Iff.rfl
  cases afterId with
  | none =>
      rw [selectedRows, hsorted]
      change sendableIds t = (sendableIds t).filter (fun _ => true) ++
        (sendableIds t).filter fun _ => false
      rw [List.filter_true, List.filter_false, List.append_nil]
  | some after =>
      simp only [selectedRows, List.map_append, Cyclic.round, Cyclic.After, ← hsorted,
        List.filter_map, not_lt]
      rfl

theorem pendingOutboxItems_ids {afterId : Option Nat} {items : List (Nat × Json)}
    (h : pendingOutboxItems afterId t = .ok items) :
    items.map Prod.fst = (Cyclic.round afterId (sendableIds t)).take 20 := by
  rw [← map_fst_selectedRows, ← List.map_take]
  exact map_fst_of_mapM h

/-- The `SELECT` can be read if every payload is JSON. -/
theorem pendingOutboxItems_ok {afterId : Option Nat}
    (h : ∀ id row, t.db.outbox.find? id = some row → ∃ value, row.payload = .json value) :
    ∃ items, pendingOutboxItems afterId t = .ok items := by
  refine mapM_loads_ok fun p hp => ?_
  have hmem : p ∈ t.db.outbox.rows.filter fun p => sendable p.2 := by
    have hp := List.mem_of_mem_take hp
    cases afterId with
    | none => exact (List.mem_insertionSort _).1 hp
    | some after =>
        rcases List.mem_append.1 hp with hp | hp <;>
          exact (List.mem_insertionSort _).1 (List.mem_of_mem_filter hp)
  exact h p.1 p.2 (Table.find?_eq_some_iff.2 (List.mem_of_mem_filter hmem))

/-! ## What calls do to sendable rows -/

/-- The payload of a row can be read. -/
def Readable (row : OutboxRow) : Prop := ∃ value, row.payload = .json value

theorem Delivery.RowChange.readable {op : DeliveryOp} {id : Nat} {trace trace' : Option JsonText}
    {row row' : OutboxRow} (h : RowChange op id trace trace' row row') (hr : Readable row) :
    Readable row' := by
  cases h with
  | kept => exact hr
  | settled => exact hr
  | _ => exact ⟨_, rfl⟩

/-- A sendable row is sendable until it is completed. -/
theorem Delivery.RowChange.sendable {op : DeliveryOp} {id : Nat} {trace trace' : Option JsonText}
    {row row' : OutboxRow} (h : RowChange op id trace trace' row row')
    (hs : Delivery.sendable row = true) (hop : ∀ at_ p, op ≠ .completeOutboxItem id at_ p) :
    Delivery.sendable row' = true := by
  have hpending := sendable_pending hs
  cases h with
  | kept => exact hs
  | traced hstate =>
      rcases hstate with rfl | rfl
      · exact hs
      · simp [Delivery.sendable, Delivery.pending, withPayload, hpending]
  | untraced => exact hs
  | completed hop' => exact absurd hop' (hop _ _)
  | settled hdone => exact absurd hpending hdone
  | purged _ hdone => exact absurd hpending hdone
  | bound => exact hs

/-- What a call leaves of a row. -/
theorem DeliveryOp.run_row {w : Weather} {op : DeliveryOp} {id : Nat} {row : OutboxRow}
    (hrow : t.db.outbox.find? id = some row) :
    ∃ row', (op.run w t).2.db.outbox.find? id = some row' ∧ (Readable row → Readable row') ∧
      (Delivery.sendable row = true → (∀ at_ p, op ≠ .completeOutboxItem id at_ p) →
        Delivery.sendable row' = true) := by
  cases hop : op.isStore with
  | false =>
      obtain ⟨row', hrow', hchange⟩ := (DeliveryOp.run_evolves (w := w) (t := t) hop).row id row hrow
      exact ⟨row', hrow', hchange.readable, hchange.sendable⟩
  | true =>
      cases op with
      | store op other =>
          obtain ⟨hstep, -⟩ := DeliveryOp.run_store (w := w) (t := t)
          rcases hstep.row id row hrow with hsame | ⟨hpending, -, hready⟩
          · exact ⟨row, hsame, fun h => h, fun h _ => h⟩
          · refine ⟨_, hready, fun h => h, fun _ _ => ?_⟩
            simp [Delivery.sendable, pending, hpending]
      | _ => cases hop

/-- Every payload can be read. -/
def Legible (t : Tables) : Prop := ∀ id row, t.db.outbox.find? id = some row → Readable row

theorem legible_fresh : Legible Tables.fresh := by
  intro id row hrow
  cases hrow

/-- No call writes anything but JSON. -/
theorem DeliveryOp.run_legible {w : Weather} {op : DeliveryOp} (h : Legible t) :
    Legible (op.run w t).2 := by
  intro id row hrow
  cases hold : t.db.outbox.find? id with
  | some old =>
      obtain ⟨row', hrow', hread, -⟩ := DeliveryOp.run_row (w := w) hold
      cases hrow.symm.trans hrow'
      exact hread (h id old hold)
  | none =>
      cases hop : op.isStore with
      | false =>
          have hnone := (DeliveryOp.run_evolves (w := w) (t := t) hop).absent id hold
          cases hrow.symm.trans hnone
      | true =>
          cases op with
          | store op other =>
              obtain ⟨hstep, -⟩ := DeliveryOp.run_store (w := w) (t := t)
              obtain ⟨payload, hnew⟩ := hstep.new id row hold hrow
              exact ⟨_, hnew.text⟩
          | _ => cases hop

/-! ## What the log says of the passes -/

section Log

variable {log : DeliveryLog} {c d : CallId}

/-- The row that an entry of the log attempts. -/
def attempted : Event DeliveryEff DeliveryEff.Ans Exc DeliveryCall DeliveryResult →
    Option (CallId × Nat)
  | .did c (.store (.prepareOutboxAttempt itemId _)) _ => some (c, itemId)
  | _ => none

/-- The rows that were attempted, in their order, each with its call. -/
def attemptsBy (log : DeliveryLog) : List (CallId × Nat) := log.reverse.filterMap attempted

/-- The rows that were attempted, in their order. -/
def attempts (log : DeliveryLog) : List Nat := (attemptsBy log).map Prod.snd

/-- The rows that a call has attempted, in their order. -/
def attemptsOf (c : CallId) (log : DeliveryLog) : List Nat :=
  ((attemptsBy log).filter fun p => p.1 = c).map Prod.snd

/-- How many passes are over. -/
def passes (log : DeliveryLog) : Nat :=
  log.countP fun
    | .ended _ (.ok (.passed _)) => true
    | _ => false

variable {ev : Event DeliveryEff DeliveryEff.Ans Exc DeliveryCall DeliveryResult}

theorem attemptsBy_cons : attemptsBy (ev :: log) = attemptsBy log ++ (attempted ev).toList := by
  rw [attemptsBy, List.reverse_cons, List.filterMap_append]
  cases hev : attempted ev <;> simp [attemptsBy, hev]

theorem attemptsBy_cons_none (h : attempted ev = none) : attemptsBy (ev :: log) = attemptsBy log := by
  rw [attemptsBy_cons, h, Option.toList_none, List.append_nil]

theorem attempts_cons_none (h : attempted ev = none) : attempts (ev :: log) = attempts log := by
  rw [attempts, attemptsBy_cons_none h, attempts]

theorem attemptsOf_cons_none (h : attempted ev = none) :
    attemptsOf c (ev :: log) = attemptsOf c log := by
  rw [attemptsOf, attemptsBy_cons_none h, attemptsOf]

theorem attempts_cons_some {id : Nat} (h : attempted ev = some (c, id)) :
    attempts (ev :: log) = attempts log ++ [id] := by
  simp [attempts, attemptsBy_cons, h]

theorem attemptsOf_cons_self {id : Nat} (h : attempted ev = some (c, id)) :
    attemptsOf c (ev :: log) = attemptsOf c log ++ [id] := by
  simp [attemptsOf, attemptsBy_cons, h]

theorem attemptsOf_cons_ne {e : DeliveryEff} {r : Except Exc e.Ans} (hd : d ≠ c) :
    attemptsOf d (.did c e r :: log) = attemptsOf d log := by
  cases hev : attempted (.did c e r :
      Event DeliveryEff DeliveryEff.Ans Exc DeliveryCall DeliveryResult) with
  | none => exact attemptsOf_cons_none hev
  | some p =>
      have hp : p.1 = c := by
        unfold attempted at hev
        split at hev
        · next heq =>
          cases heq
          cases hev
          rfl
        · cases hev
      simp [attemptsOf, attemptsBy_cons, hev, hp, Ne.symm hd]

end Log

/-! ## Where a pass stands -/

section Passes

variable {cur last : Option Nat} {order done own ids plan : List Nat} {k itemId : Nat}
  {s s' : DeliveryWatch}

/-- Between two passes, `k` passes have attempted the rows `done`. -/
structure Between (cur : Option Nat) (order : List Nat) (last : Option Nat) (k : Nat)
    (done : List Nat) : Prop where
  visits : Cyclic.Visits 20 k order done
  cursor : last = Cyclic.position cur done

/-- A pass has its rows.  It has attempted `own` of them. -/
structure Batch (cur : Option Nat) (order : List Nat) (last : Option Nat) (k : Nat)
    (done own : List Nat) (taken : Option Nat) (plan : List Nat) : Prop where
  before : order.take (20 * k) <+: done
  visits : Cyclic.Visits 20 (k + 1) order (done ++ (taken.toList ++ plan))
  cursor : last = taken.or (Cyclic.position cur done)
  nodup : (own ++ (taken.toList ++ plan)).Nodup

/-- Where a pass stands that is watched like this. -/
structure Pass (cur : Option Nat) (order : List Nat) (last : Option Nat) (k : Nat)
    (done own : List Nat) (s : DeliveryWatch) : Prop where
  fresh : s.plan = none → Between cur order last k done ∧ s.taken = none ∧ own = [] ∧
    ∀ a, s.cursor = some a → a = last
  batch : ∀ plan, s.plan = some plan → Batch cur order last k done own s.taken plan

theorem Pass.same (h : Pass cur order last k done own s) (hplan : s'.plan = s.plan)
    (htaken : s'.taken = s.taken) (hcursor : s'.cursor = s.cursor) :
    Pass cur order last k done own s' := by
  constructor
  · rw [hplan, htaken, hcursor]
    exact h.fresh
  · rw [hplan, htaken]
    exact h.batch

/-- The position is read. -/
theorem Pass.read (h : Pass cur order last k done own s) :
    Pass cur order last k done own (s.next .lastItemId (.ok last)) := by
  refine ⟨fun hplan => ?_, h.batch⟩
  obtain ⟨hbetween, htaken, hown, -⟩ := h.fresh hplan
  exact ⟨hbetween, htaken, hown, fun a ha => (Option.some.inj ha).symm⟩

/-- The rows are selected. -/
theorem Pass.select {afterId : Option Nat} {items : List (Nat × Json)}
    (h : Pass cur order last k done own s) (hplan : s.plan = none)
    (hitems : items.map Prod.fst = (Cyclic.round last ids).take 20)
    (hids : ids.Pairwise (· < ·))
    (hnext : ∀ rest, done ++ rest = order → rest <+: Cyclic.round last ids) :
    Pass cur order last k done own (s.next (.pendingOutboxItems afterId) (.ok items)) := by
  obtain ⟨hbetween, htaken, rfl, -⟩ := h.fresh hplan
  refine ⟨fun hnone => (by cases hnone), fun plan heq => ?_⟩
  have hnext_taken : (s.next (.pendingOutboxItems afterId) (.ok items)).taken = none := htaken
  cases heq
  rw [hnext_taken]
  refine ⟨hbetween.visits.batches, ?_, hbetween.cursor, ?_⟩
  · rw [hitems]
    exact hbetween.visits.batch hnext
  · rw [hitems]
    exact (Cyclic.nodup_round hids).sublist (List.take_sublist _ _)

/-- The next row is taken. -/
theorem Pass.take (h : Pass cur order last k done own s) (hplan : s.plan = some (itemId :: plan))
    (htaken : s.taken = none) :
    Pass cur order (some itemId) k done own (s.next (.setLastItemId itemId) (.ok ())) := by
  have hbatch := h.batch _ hplan
  have hnext : (s.next (.setLastItemId itemId) (.ok ())).plan = some plan := by
    change s.plan.map List.tail = some plan
    rw [hplan]
    rfl
  refine ⟨fun hnone => (by rw [hnext] at hnone; cases hnone), fun plan' heq => ?_⟩
  cases hnext.symm.trans heq
  rw [htaken] at hbatch
  exact ⟨hbatch.before, hbatch.visits, rfl, hbatch.nodup⟩

/-- The row is attempted. -/
theorem Pass.attempt {attemptedAt : DateTime} {r : Except Exc (Option Fields)}
    (h : Pass cur order last k done own s) (htaken : s.taken = some itemId) :
    Pass cur order last k (done ++ [itemId]) (own ++ [itemId])
      (s.next (.store (.prepareOutboxAttempt itemId attemptedAt)) r) := by
  have hplan : (s.next (.store (.prepareOutboxAttempt itemId attemptedAt)) r).plan = s.plan := by
    cases r <;> rfl
  have hnext : (s.next (.store (.prepareOutboxAttempt itemId attemptedAt)) r).taken = none := by
    cases r <;> rfl
  constructor
  · intro hnone
    rw [(h.fresh (hplan.symm.trans hnone)).2.1] at htaken
    cases htaken
  · intro plan heq
    have hbatch := h.batch plan (hplan.symm.trans heq)
    rw [htaken] at hbatch
    rw [hnext]
    refine ⟨hbatch.before.trans (List.prefix_append _ _), ?_, ?_, ?_⟩
    · simpa using hbatch.visits
    · rw [Cyclic.position_append]
      exact hbatch.cursor
    · simpa using hbatch.nodup

/-- No row is attempted twice. -/
theorem Pass.nodup (h : Pass cur order last k done own s) : own.Nodup := by
  cases hplan : s.plan with
  | none =>
      rw [(h.fresh hplan).2.2.1]
      exact List.nodup_nil
  | some plan => exact (List.nodup_append.1 (h.batch plan hplan).nodup).1

/-- The passes that are over have done their part. -/
theorem Pass.covers (h : Pass cur order last k done own s) (hlen : order.length ≤ 20 * k) :
    order <+: done := by
  cases hplan : s.plan with
  | none => exact (h.fresh hplan).1.visits.covers hlen
  | some plan =>
      have hbefore := (h.batch plan hplan).before
      rwa [List.take_of_length_le hlen] at hbefore

/-- The row is still to be prepared in this pass. -/
def Ahead (s : DeliveryWatch) (id : Nat) : Prop :=
  s.taken = some id ∨ ∃ plan, s.plan = some plan ∧ id ∈ plan

/-- What was attempted is not ahead any more. -/
theorem Pass.not_ahead (h : Pass cur order last k done own s) {id : Nat} (hown : id ∈ own) :
    ¬ Ahead s id := by
  intro hahead
  cases hplan : s.plan with
  | none =>
      rw [(h.fresh hplan).2.2.1] at hown
      cases hown
  | some plan =>
      have hnodup := (List.nodup_append.1 (h.batch plan hplan).nodup).2.2
      refine hnodup id hown id ?_ rfl
      rcases hahead with htaken | ⟨plan', hplan', hmem⟩
      · simp [htaken]
      · cases hplan.symm.trans hplan'
        exact List.mem_append_right _ hmem

/-- The pass is over. -/
theorem Pass.over (h : Pass cur order last k done own s) (hready : Ready [] s)
    (hcalm : s.troubled = false) : Between cur order last (k + 1) done := by
  have hbatch := h.batch [] hready.plan
  have htaken : s.taken = none := hready.taken.resolve_right (by simp [hcalm])
  rw [htaken] at hbatch
  exact ⟨by simpa using hbatch.visits, hbatch.cursor⟩

end Passes

/-! ## Runs -/

variable {cfg : DeliveryConfig}

/-- The pass is under way, and is watched like this. -/
def Passing (c : CallId) (s : DeliveryWatch) (log : DeliveryLog) : Prop :=
  Live c log ∧ ghost (fun _ => deliveryWatch) c log = some s ∧ s.call = .runOnce

/-- A step that does not go wrong outside: the clock and the `SELECT`s answer, what
raises is an `Exception`, and no row becomes sendable. -/
structure Undisturbed (w : DeliveryWorld) (c : CallId) (env : DeliveryEnv) : Prop where
  clock : ∃ at_, env.clock = .ok at_
  select : env.selectFault = none
  step : ∀ e k, w.running c = some (.call e k) →
    (∀ x, (exec env w.state e).1 = .error x → x.isException = true) ∧
      sendableIds (exec env w.state e).2.tables ⊆ sendableIds w.state.tables

/-- What is assumed of a run: one worker makes its passes one after the other, among
calls of other threads. -/
def Steady (w : DeliveryWorld) : Choice DeliveryEnv DeliveryCall → Prop
  | .begin _ call => call ≠ .construct ∧ (call = .runOnce → ∀ d s, ¬ Passing d s w.log)
  | .step c env => Undisturbed w c env
  | .crash _ _ => False

/-- The rounds of a worker that began with these rows at this position. -/
structure Fair (ids : List Nat) (cur : Option Nat) (st : DeliveryState) (log : DeliveryLog) :
    Prop where
  legible : Legible st.tables
  within : sendableIds st.tables ⊆ ids
  /-- What is left of the round is still sendable. -/
  left : ∀ rest, attempts log ++ rest = Cyclic.round cur ids → rest ⊆ sendableIds st.tables
  calm : Ever (fun _ => deliveryWatch) (fun _ s => s.troubled = false) log
  prepared : Ever (fun _ => deliveryWatch)
    (fun c s => ∀ id p, s.prepared = some (id, p) ∨ s.sent = some (id, p) →
      s.call = .runOnce ∧ id ∈ attemptsOf c log) log
  one : ∀ c s d s', Passing c s log → Passing d s' log → c = d
  idle : (∀ c s, ¬ Passing c s log) →
    Between cur (Cyclic.round cur ids) st.lastItemId (passes log) (attempts log)
  pass : ∀ c s, Passing c s log →
    Pass cur (Cyclic.round cur ids) st.lastItemId (passes log) (attempts log) (attemptsOf c log) s
  once : ∀ c, (attemptsOf c log).Nodup
  /-- What is ahead of a pass is still sendable. -/
  waiting : ∀ c s, Passing c s log → ∀ id, Ahead s id → id ∈ sendableIds st.tables
  /-- No attempt finds its row gone. -/
  answered : ∀ c itemId attemptedAt,
    .did c (.store (.prepareOutboxAttempt itemId attemptedAt)) (.ok none) ∉ log

section Steps

variable {ids : List Nat} {cur : Option Nat} {st st' : DeliveryState} {log : DeliveryLog}
  {env : DeliveryEnv} {e : DeliveryEff} {c : CallId} {s : DeliveryWatch}

/-- What a step does to the tables. -/
theorem exec_tables (env : DeliveryEnv) (st : DeliveryState) (e : DeliveryEff) :
    (∃ op, e = .store op ∧ (exec env st e).2.tables = (op.run env.weather st.tables).2) ∨
      (exec env st e).2.tables = st.tables := by
  cases e with
  | store op => exact .inl ⟨op, rfl, rfl⟩
  | stage digest =>
      refine .inr ?_
      simp only [exec]
      split <;> rfl
  | delete digest =>
      refine .inr ?_
      simp only [exec]
      split <;> rfl
  | _ => exact .inr rfl

theorem exec_legible (h : Legible st.tables) : Legible (exec env st e).2.tables := by
  rcases exec_tables env st e with ⟨op, -, htables⟩ | htables
  · rw [htables]
    exact DeliveryOp.run_legible h
  · rw [htables]
    exact h

/-- A sendable row is sendable until the worker completes it. -/
theorem exec_sendable {id : Nat} (h : id ∈ sendableIds st.tables)
    (hne : ∀ at_ p, e ≠ .store (.completeOutboxItem id at_ p)) :
    id ∈ sendableIds (exec env st e).2.tables := by
  rcases exec_tables env st e with ⟨op, rfl, htables⟩ | htables
  · obtain ⟨row, hrow, hs⟩ := mem_sendableIds.1 h
    obtain ⟨row', hrow', -, hsend⟩ := DeliveryOp.run_row (w := env.weather) hrow
    rw [htables]
    refine mem_sendableIds.2 ⟨row', hrow', hsend hs fun at_ p heq => ?_⟩
    exact hne at_ p (by rw [heq])
  · rw [htables]
    exact h

theorem DeliveryWatch.next_call (s : DeliveryWatch) (e : DeliveryEff) (r : Except Exc e.Ans) :
    (s.next e r).call = s.call := by
  cases r with
  | ok a =>
      cases e with
      | store op => cases op <;> rfl
      | _ => rfl
  | error x =>
      cases e with
      | store op => cases op <;> rfl
      | _ => rfl

/-- An operation on the round of a pass. -/
def DeliveryEff.onRound : DeliveryEff → Bool
  | .lastItemId | .pendingOutboxItems _ | .setLastItemId _ => true
  | .store (.prepareOutboxAttempt _ _) => true
  | _ => false

/-- The other operations leave the round where it is. -/
theorem aside (h : e.onRound = false) (r : Except Exc e.Ans) :
    ((s.next e r).plan = s.plan ∧ (s.next e r).taken = s.taken ∧
      (s.next e r).cursor = s.cursor) ∧
    (exec env st e).2.lastItemId = st.lastItemId ∧
      attempted (.did c e r : Event DeliveryEff DeliveryEff.Ans Exc DeliveryCall DeliveryResult) =
        none := by
  cases e with
  | store op =>
      cases op with
      | prepareOutboxAttempt itemId attemptedAt => cases h
      | _ => cases r <;> exact ⟨⟨rfl, rfl, rfl⟩, rfl, rfl⟩
  | stage digest =>
      refine ⟨by cases r <;> exact ⟨rfl, rfl, rfl⟩, ?_, rfl⟩
      simp only [exec]
      split <;> rfl
  | delete digest =>
      refine ⟨by cases r <;> exact ⟨rfl, rfl, rfl⟩, ?_, rfl⟩
      simp only [exec]
      split <;> rfl
  | lastItemId => cases h
  | pendingOutboxItems afterId => cases h
  | setLastItemId itemId => cases h
  | _ => cases r <;> exact ⟨⟨rfl, rfl, rfl⟩, rfl, rfl⟩

/-- Only a pass works on the round. -/
theorem runOnce_of_onRound (h : e.onRound = true) (hallow : s.allow e) (he : e ≠ .lastItemId) :
    s.call = .runOnce := by
  cases e with
  | pendingOutboxItems afterId => exact hallow.1
  | setLastItemId itemId => exact hallow.1
  | lastItemId => exact absurd rfl he
  | store op =>
      cases op with
      | prepareOutboxAttempt itemId attemptedAt => exact hallow.1
      | _ => cases h
  | _ => cases h

/-- Attempts are not forgotten. -/
theorem attempts_mono (ev : Event DeliveryEff DeliveryEff.Ans Exc DeliveryCall DeliveryResult)
    (log : DeliveryLog) : attempts log ⊆ attempts (ev :: log) := by
  rw [attempts, attempts, attemptsBy_cons, List.map_append]
  exact List.subset_append_left _ _

theorem attemptsOf_mono (ev : Event DeliveryEff DeliveryEff.Ans Exc DeliveryCall DeliveryResult)
    (c : CallId) (log : DeliveryLog) : attemptsOf c log ⊆ attemptsOf c (ev :: log) := by
  rw [attemptsOf, attemptsOf, attemptsBy_cons, List.filter_append, List.map_append]
  exact List.subset_append_left _ _

theorem attemptsOf_subset (c : CallId) (log : DeliveryLog) : attemptsOf c log ⊆ attempts log :=
  List.map_subset _ (List.filter_subset_self _)

/-- What was prepared or sent was attempted by the same pass. -/
theorem prepared_next {r : Except Exc e.Ans} (hallow : s.allow e)
    (h : ∀ id p, s.prepared = some (id, p) ∨ s.sent = some (id, p) →
      s.call = .runOnce ∧ id ∈ attemptsOf c log) (id : Nat) (p : Fields)
    (hp : (s.next e r).prepared = some (id, p) ∨ (s.next e r).sent = some (id, p)) :
    (s.next e r).call = .runOnce ∧ id ∈ attemptsOf c (.did c e r :: log) := by
  rw [s.next_call]
  have hkeep : (s.prepared = some (id, p) ∨ s.sent = some (id, p)) →
      s.call = .runOnce ∧ id ∈ attemptsOf c (.did c e r :: log) := fun hp =>
    ⟨(h id p hp).1, attemptsOf_mono _ _ _ (h id p hp).2⟩
  cases e with
  | store op =>
      cases op with
      | prepareOutboxAttempt itemId attemptedAt =>
          rw [attemptsOf_cons_self rfl]
          refine ⟨hallow.1, List.mem_append_right _ (List.mem_singleton.2 ?_)⟩
          cases r with
          | error x => rcases hp with hp | hp <;> cases hp
          | ok payload =>
              cases payload with
              | none => rcases hp with hp | hp <;> cases hp
              | some payload =>
                  rcases hp with hp | hp
                  · exact (congrArg Prod.fst (Option.some.inj hp)).symm
                  · cases hp
      | _ => cases r <;> exact hkeep hp
  | setLastItemId itemId =>
      cases r with
      | ok u => rcases hp with hp | hp <;> cases hp
      | error x => exact hkeep hp
  | send payload evidence =>
      cases r with
      | ok u => exact hkeep (.inl (hp.elim (fun hp => hp) fun hp => hp))
      | error x => exact hkeep hp
  | _ => cases r <;> exact hkeep hp

/-- Undisturbed, the worker gets the answers that it counts on. -/
theorem no_trouble {w : DeliveryWorld} {k : Except Exc e.Ans → DeliveryProg DeliveryResult}
    (hok : Undisturbed w c env) (hrun : w.running c = some (.call e k))
    (hread : Legible w.state.tables) : e.trouble (exec env w.state e).1 = false := by
  have hselected : ∀ {α : Type} (answer : Except Exc α), selected env answer = answer := by
    intro α answer
    rw [selected, hok.select]
  cases hr : (exec env w.state e).1 with
  | ok a => rfl
  | error x =>
      have hcaught := ((hok.step e k hrun).1 x hr)
      simp only [DeliveryEff.trouble, hcaught, Bool.not_true, Bool.or_false]
      cases e with
      | clock =>
          obtain ⟨at_, hclock⟩ := hok.clock
          cases hr.symm.trans hclock
      | pendingOutboxItems afterId =>
          obtain ⟨items, hitems⟩ := pendingOutboxItems_ok hread
          cases hr.symm.trans ((hselected _).trans hitems)
      | pendingPayloads => cases hr.symm.trans (hselected _)
      | outboxDigests => cases hr.symm.trans (hselected _)
      | claimDigests => cases hr.symm.trans (hselected _)
      | _ => rfl

/-- Memory always answers. -/
theorem exec_expect : DeliveryWatch.expect e (exec env st e).1 := by
  cases e with
  | lastItemId => exact ⟨_, rfl⟩
  | lastRetentionAt => exact ⟨_, rfl⟩
  | setLastItemId itemId => rfl
  | setLastRetentionAt at_ => rfl
  | _ => trivial

/-- What is left of the round is not touched by a step. -/
theorem exec_left {rest : List Nat} (hids : ids.Pairwise (· < ·)) (hallow : s.allow e)
    (hleft : ∀ rest, attempts log ++ rest = Cyclic.round cur ids → rest ⊆ sendableIds st.tables)
    (hprepared : ∀ id p, s.prepared = some (id, p) ∨ s.sent = some (id, p) →
      s.call = .runOnce ∧ id ∈ attemptsOf c log)
    (hrest : attempts (.did c e (exec env st e).1 :: log) ++ rest = Cyclic.round cur ids) :
    rest ⊆ sendableIds (exec env st e).2.tables := by
  have hnodup := Cyclic.nodup_round (c := cur) hids
  rw [← hrest] at hnodup
  intro id hid
  -- The rest was left before the step, too.
  have hbefore : id ∈ sendableIds st.tables := by
    rw [attempts, attemptsBy_cons, List.map_append, List.append_assoc] at hrest
    exact hleft _ hrest (List.mem_append_right _ hid)
  refine exec_sendable hbefore fun at_ p heq => ?_
  subst heq
  obtain ⟨payload, -, hsent⟩ := hallow
  have hattempted := attemptsOf_subset c log (hprepared id payload (.inr hsent)).2
  exact List.disjoint_of_nodup_append hnodup (attempts_mono _ _ hattempted) hid

/-- A sendable row is prepared, unless the store fails. -/
theorem prepare_answers {t : Tables} {w : Weather} {itemId : Nat} {attemptedAt : DateTime}
    (h : itemId ∈ sendableIds t) :
    ((DeliveryOp.prepareOutboxAttempt itemId attemptedAt).run w t).1 ≠ .ok none := by
  intro hnone
  have hcases : Attempt t itemId attemptedAt
      ((DeliveryOp.prepareOutboxAttempt itemId attemptedAt).run w t).1
      ((DeliveryOp.prepareOutboxAttempt itemId attemptedAt).run w t).2 :=
    prepareOutboxAttempt_cases itemId attemptedAt t w.faults
  generalize (DeliveryOp.prepareOutboxAttempt itemId attemptedAt).run w t = answer at hnone hcases
  obtain ⟨r, t'⟩ := answer
  obtain ⟨row, hrow, hs⟩ := mem_sendableIds.1 h
  cases (show r = .ok none from hnone)
  cases hcases with
  | absent habsent =>
      rw [hrow, Option.filter_some, if_pos hs] at habsent
      cases habsent

end Steps

namespace Fair

variable {ids : List Nat} {cur : Option Nat} {st st' : DeliveryState} {log : DeliveryLog}
  {w : DeliveryWorld} {env : DeliveryEnv} {e : DeliveryEff} {c : CallId} {s : DeliveryWatch}

/-- A pass moves on with a step. -/
theorem pass_step (h : Fair ids cur w.state w.log) (hids : ids.Pairwise (· < ·))
    (hpassing : Passing c s w.log) (hallow : s.allow e)
    (hcalm : e.trouble (exec env w.state e).1 = false) (hselect : env.selectFault = none) :
    Pass cur (Cyclic.round cur ids) (exec env w.state e).2.lastItemId (passes w.log)
      (attempts (.did c e (exec env w.state e).1 :: w.log))
      (attemptsOf c (.did c e (exec env w.state e).1 :: w.log))
      (s.next e (exec env w.state e).1) := by
  have hpass := h.pass c s hpassing
  cases hround : e.onRound with
  | false =>
      obtain ⟨⟨hplan, htaken, hcursor⟩, hlast, hattempted⟩ :=
        aside (s := s) (c := c) hround (exec env w.state e).1
      rw [attempts_cons_none hattempted, attemptsOf_cons_none hattempted, hlast]
      exact hpass.same hplan htaken hcursor
  | true =>
      cases e with
      | lastItemId =>
          rw [attempts_cons_none rfl, attemptsOf_cons_none rfl]
          exact hpass.read
      | pendingOutboxItems afterId =>
          rw [attempts_cons_none rfl, attemptsOf_cons_none rfl]
          obtain ⟨-, hplan, hcursor⟩ := hallow
          obtain ⟨hbetween, -, -, hafter⟩ := hpass.fresh hplan
          obtain rfl := hafter afterId hcursor
          have hanswer : (exec env w.state (.pendingOutboxItems w.state.lastItemId)).1 =
              pendingOutboxItems w.state.lastItemId w.state.tables := by
            simp only [exec, selected, hselect]
          cases hitems : pendingOutboxItems w.state.lastItemId w.state.tables with
          | error x =>
              rw [hanswer, hitems] at hcalm
              cases hcalm
          | ok items =>
              rw [hanswer, hitems]
              refine hpass.select hplan (pendingOutboxItems_ids hitems)
                (sendableIds_pairwise _) fun rest hrest => ?_
              rw [hbetween.cursor]
              exact Cyclic.isPrefix_round hids (sendableIds_pairwise _) h.within hrest.symm
                (h.left rest hrest)
      | setLastItemId itemId =>
          rw [attempts_cons_none rfl, attemptsOf_cons_none rfl]
          obtain ⟨-, ⟨rest, hplan⟩, htaken⟩ := hallow
          refine hpass.take hplan (htaken.resolve_right ?_)
          rw [h.calm c s hpassing.2.1]
          exact Bool.false_ne_true
      | store op =>
          cases op with
          | prepareOutboxAttempt itemId attemptedAt =>
              rw [attempts_cons_some (c := c) rfl,
                attemptsOf_cons_self rfl]
              exact hpass.attempt hallow.2
          | _ => cases hround
      | _ => cases hround

/-- Other calls leave the round alone. -/
theorem other_step (hallow : s.allow e) (hcall : s.call ≠ .runOnce) :
    (exec env st e).2.lastItemId = st.lastItemId ∧
      attempted (.did c e (exec env st e).1 :
        Event DeliveryEff DeliveryEff.Ans Exc DeliveryCall DeliveryResult) = none := by
  cases hround : e.onRound with
  | false => exact (aside (s := s) hround _).2
  | true =>
      cases e with
      | lastItemId => exact ⟨rfl, rfl⟩
      | _ => exact absurd (runOnce_of_onRound hround hallow nofun) hcall

/-- What is ahead after a step was ahead before it or was just selected, and is sendable. -/
theorem ahead_step (h : Fair ids cur w.state w.log) (hpassing : Passing c s w.log)
    (hallow : s.allow e) {id : Nat} (hahead : Ahead (s.next e (exec env w.state e).1) id) :
    id ∈ sendableIds (exec env w.state e).2.tables := by
  have hpass := h.pass c s hpassing
  have hstill : Ahead s id → id ∈ sendableIds (exec env w.state e).2.tables := by
    intro hold
    refine exec_sendable (h.waiting c s hpassing id hold) fun at_ p heq => ?_
    subst heq
    obtain ⟨payload, -, hsent⟩ := hallow
    exact hpass.not_ahead (h.prepared c s hpassing.2.1 id payload (.inr hsent)).2 hold
  cases hround : e.onRound with
  | false =>
      obtain ⟨⟨hplan, htaken, -⟩, -⟩ := @aside w.state env e c s hround (exec env w.state e).1
      rw [Ahead, hplan, htaken] at hahead
      exact hstill hahead
  | true =>
      cases e with
      | lastItemId => exact hstill hahead
      | pendingOutboxItems afterId =>
          obtain ⟨-, hplan, -⟩ := hallow
          have htaken := (hpass.fresh hplan).2.1
          cases hanswer : (exec env w.state (.pendingOutboxItems afterId)).1 with
          | error x =>
              rw [hanswer] at hahead
              exact hstill hahead
          | ok items =>
              rw [hanswer] at hahead
              have hitems : pendingOutboxItems afterId w.state.tables = .ok items := by
                simp only [exec, selected] at hanswer
                split at hanswer
                · cases hanswer
                · exact hanswer
              rcases hahead with hnone | ⟨plan, ⟨⟩, hmem⟩
              · cases htaken.symm.trans hnone
              · rw [pendingOutboxItems_ids hitems] at hmem
                exact Cyclic.mem_round.1 (List.mem_of_mem_take hmem)
      | setLastItemId itemId =>
          obtain ⟨-, ⟨rest, hplan⟩, -⟩ := hallow
          refine hstill (.inr ⟨itemId :: rest, hplan, ?_⟩)
          rcases hahead with ⟨⟨⟩⟩ | ⟨plan, hnext, hmem⟩
          · exact List.mem_cons_self
          · change s.plan.map List.tail = some plan at hnext
            rw [hplan] at hnext
            cases hnext
            exact List.mem_cons_of_mem _ hmem
      | store op =>
          cases op with
          | prepareOutboxAttempt itemId attemptedAt =>
              refine hstill (.inr ?_)
              rcases hahead with htaken | ⟨plan, hplan, hmem⟩
              · cases hr : (exec env w.state
                  (.store (.prepareOutboxAttempt itemId attemptedAt))).1 <;>
                  rw [hr] at htaken <;> cases htaken
              · refine ⟨plan, ?_, hmem⟩
                cases hr : (exec env w.state
                  (.store (.prepareOutboxAttempt itemId attemptedAt))).1 <;>
                  rw [hr] at hplan <;> exact hplan
          | _ => cases hround
      | _ => cases hround

/-- Who is passing after a step was passing before it. -/
theorem passing_of_did {r : Except Exc e.Ans} {d : CallId} {s' : DeliveryWatch}
    (hghost : ghost (fun _ => deliveryWatch) c log = some s)
    (h : Passing d s' (.did c e r :: log)) :
    (d = c ∧ s' = s.next e r ∧ Passing c s log) ∨ (d ≠ c ∧ Passing d s' log) := by
  obtain ⟨hlive, hghost', hcall⟩ := h
  rcases Decidable.em (d = c) with rfl | hd
  · cases hghost'.symm.trans (ghost_did_self hghost)
    exact .inl ⟨rfl, rfl, hlive, hghost, (s.next_call e r).symm.trans hcall⟩
  · rw [ghost_did_ne (Ne.symm hd)] at hghost'
    exact .inr ⟨hd, hlive, hghost', hcall⟩

theorem passing_did {r : Except Exc e.Ans} (h : Passing c s log) :
    Passing c (s.next e r) (.did c e r :: log) :=
  ⟨h.1, ghost_did_self h.2.1, (s.next_call e r).trans h.2.2⟩

theorem passing_did_ne {r : Except Exc e.Ans} {d : CallId} {s' : DeliveryWatch} (hd : d ≠ c)
    (h : Passing d s' log) : Passing d s' (.did c e r :: log) :=
  ⟨h.1, (ghost_did_ne (Ne.symm hd)).trans h.2.1, h.2.2⟩

/-- One operation keeps to the rounds. -/
theorem did (h : Fair ids cur w.state w.log) (hids : ids.Pairwise (· < ·))
    {k : Except Exc e.Ans → DeliveryProg DeliveryResult} (hok : Undisturbed w c env)
    (hrun : w.running c = some (.call e k)) (hlive : Live c w.log)
    (hghost : ghost (fun _ => deliveryWatch) c w.log = some s) (hallow : s.allow e) :
    Fair ids cur (exec env w.state e).2 (.did c e (exec env w.state e).1 :: w.log) := by
  have hcalm := no_trouble hok hrun h.legible
  have hstep := (hok.step e k hrun).2
  have hprepared := h.prepared c s hghost
  refine ⟨exec_legible h.legible, fun id hid => h.within (hstep hid),
    fun rest => exec_left hids hallow h.left hprepared, ?_, ?_, ?_, ?_, ?_, ?_, ?_, ?_⟩
  · refine h.calm.did hghost ?_ fun _ _ _ _ hd => hd
    rw [deliveryWatch_next, DeliveryWatch.next_troubled, h.calm c s hghost, hcalm]
    rfl
  · refine h.prepared.did hghost (prepared_next hallow hprepared) ?_
    exact fun d _ _ _ hd id p hp => ⟨(hd id p hp).1, attemptsOf_mono _ d _ (hd id p hp).2⟩
  · intro d sd d' sd' hd hd'
    rcases passing_of_did hghost hd with ⟨rfl, -, hc⟩ | ⟨-, hc⟩ <;>
      rcases passing_of_did hghost hd' with ⟨rfl, -, hc'⟩ | ⟨-, hc'⟩ <;>
      exact h.one _ _ _ _ hc hc'
  · intro hidle
    have hcall : s.call ≠ .runOnce := fun hcall =>
      hidle c _ (passing_did ⟨hlive, hghost, hcall⟩)
    obtain ⟨hlast, hattempted⟩ :=
      other_step (c := c) hallow hcall
    rw [hlast, attempts_cons_none hattempted]
    refine h.idle fun d sd hd => ?_
    rcases Decidable.em (d = c) with rfl | hne
    · exact hidle d _ (passing_did hd)
    · exact hidle d _ (passing_did_ne hne hd)
  · intro d sd hd
    rcases passing_of_did hghost hd with ⟨rfl, rfl, hc⟩ | ⟨hne, hc⟩
    · exact h.pass_step hids hc hallow hcalm hok.select
    · have hcall : s.call ≠ .runOnce := fun hcall =>
        hne (h.one d sd c s hc ⟨hlive, hghost, hcall⟩)
      obtain ⟨hlast, hattempted⟩ :=
        other_step (c := c) hallow hcall
      rw [hlast, attempts_cons_none hattempted, attemptsOf_cons_none hattempted]
      exact h.pass d sd hc
  · intro d
    rcases Decidable.em (d = c) with rfl | hne
    · rcases Classical.em (s.call = .runOnce) with hcall | hcall
      · exact (h.pass_step hids ⟨hlive, hghost, hcall⟩ hallow hcalm hok.select).nodup
      · obtain ⟨-, hattempted⟩ :=
          other_step (c := d) hallow hcall
        rw [attemptsOf_cons_none hattempted]
        exact h.once d
    · rw [attemptsOf_cons_ne hne]
      exact h.once d
  · intro d sd hd id hahead
    rcases passing_of_did hghost hd with ⟨rfl, rfl, hc⟩ | ⟨hne, hc⟩
    · exact h.ahead_step hc hallow hahead
    · refine exec_sendable (h.waiting d sd hc id hahead) fun at_ p heq => ?_
      subst heq
      obtain ⟨payload, -, hsent⟩ := hallow
      exact hne (h.one d sd c s hc ⟨hlive, hghost, (hprepared id payload (.inr hsent)).1⟩)
  · intro d itemId attemptedAt hmem
    rcases List.mem_cons.1 hmem with heq | hmem
    · obtain ⟨hd, he, hanswer⟩ := Event.did.inj heq
      subst hd
      subst he
      have hsendable := h.waiting d s ⟨hlive, hghost, hallow.1⟩ itemId (.inl hallow.2)
      exact prepare_answers hsendable (eq_of_heq hanswer).symm
    · exact h.answered d itemId attemptedAt hmem

/-- A call that has not begun has attempted nothing. -/
theorem attemptsOf_of_not_begun
    (h : Lawful (fun _ => deliveryWatch) (fun _ => Concludes) log) (hnew : ¬ Begun c log) :
    attemptsOf c log = [] := by
  induction log with
  | nil => rfl
  | cons ev log ih =>
      cases ev with
      | did d e r =>
          have hd : c ≠ d := by
            rintro rfl
            exact hnew h.1.1.begun
          rw [attemptsOf_cons_ne hd]
          exact ih h.2 hnew
      | began d call =>
          rw [attemptsOf_cons_none rfl]
          exact ih h.2 fun hb => hnew (.inr hb)
      | ended d r =>
          rw [attemptsOf_cons_none rfl]
          exact ih h.2 hnew
      | crashed p =>
          rw [attemptsOf_cons_none rfl]
          exact ih h.2 hnew

/-- Another call begins, or a pass while there is none. -/
theorem began {call : DeliveryCall} (h : Fair ids cur st log) (hnew : ¬ Begun c log)
    (hlawful : Lawful (fun _ => deliveryWatch) (fun _ => Concludes) log)
    (hok : call = .runOnce → ∀ d s, ¬ Passing d s log) :
    Fair ids cur st (.began c call :: log) := by
  have hback : ∀ {d sd}, Passing d sd (.began c call :: log) →
      (d = c ∧ sd = { call } ∧ call = .runOnce) ∨ (d ≠ c ∧ Passing d sd log) := by
    rintro d sd ⟨hlive, hghost, hcall⟩
    rcases Decidable.em (d = c) with rfl | hd
    · cases hghost.symm.trans ghost_began_self
      exact .inl ⟨rfl, rfl, hcall⟩
    · rw [ghost_began_ne (Ne.symm hd)] at hghost
      exact .inr ⟨hd, hlive.resolve_left (Ne.symm hd), hghost, hcall⟩
  have hon : ∀ {d sd}, Passing d sd log → Passing d sd (.began c call :: log) := by
    rintro d sd ⟨hlive, hghost, hcall⟩
    have hd : d ≠ c := by
      rintro rfl
      exact hnew hlive.begun
    exact ⟨.inr hlive, (ghost_began_ne (Ne.symm hd)).trans hghost, hcall⟩
  have hdone : attempts (.began c call :: log) = attempts log := attempts_cons_none rfl
  have hown : ∀ d, attemptsOf d (.began c call :: log) = attemptsOf d log :=
    fun _ => attemptsOf_cons_none rfl
  have hpasses : passes (.began c call :: log) = passes log := rfl
  refine ⟨h.legible, h.within, ?_, h.calm.began rfl fun _ _ _ _ hd => hd, ?_, ?_, ?_, ?_, ?_, ?_,
    ?_⟩
  · rw [hdone]
    exact h.left
  · refine h.prepared.began (fun id p hp => ?_) fun d _ _ _ hd => ?_
    · rcases hp with hp | hp <;> cases hp
    · rw [hown]
      exact hd
  · intro d sd d' sd' hd hd'
    rcases hback hd with ⟨rfl, -, hrun⟩ | ⟨-, hold⟩ <;>
      rcases hback hd' with ⟨rfl, -, hrun'⟩ | ⟨-, hold'⟩
    · rfl
    · exact absurd hold' (hok hrun _ _)
    · exact absurd hold (hok hrun' _ _)
    · exact h.one _ _ _ _ hold hold'
  · rw [hdone, hpasses]
    exact fun hidle => h.idle fun d sd hd => hidle d sd (hon hd)
  · intro d sd hd
    rw [hdone, hpasses, hown]
    rcases hback hd with ⟨rfl, rfl, hrun⟩ | ⟨-, hold⟩
    · rw [attemptsOf_of_not_begun hlawful hnew]
      exact ⟨fun _ => ⟨h.idle (hok hrun), rfl, rfl, nofun⟩, nofun⟩
    · exact h.pass d sd hold
  · intro d
    rw [hown]
    exact h.once d
  · intro d sd hd id hahead
    rcases hback hd with ⟨rfl, rfl, -⟩ | ⟨-, hold⟩
    · rcases hahead with hnone | ⟨plan, hnone, -⟩ <;> cases hnone
    · exact h.waiting d sd hold id hahead
  · intro d itemId attemptedAt hmem
    exact h.answered d itemId attemptedAt ((List.mem_cons.1 hmem).resolve_left nofun)

/-- What a call returns tells whether it was a pass. -/
theorem passes_ended {r : Except Exc DeliveryResult} (hends : Concludes s r)
    (hcalm : s.troubled = false) :
    (s.call = .runOnce ∧ Ready [] s ∧ passes (.ended c r :: log) = passes log + 1) ∨
      (s.call ≠ .runOnce ∧ passes (.ended c r :: log) = passes log) := by
  cases r with
  | error x =>
      refine .inr ⟨fun hcall => ?_, rfl⟩
      have htroubled := hends.error x rfl hcall
      rw [hcalm] at htroubled
      cases htroubled
  | ok result =>
      cases result with
      | done => exact .inr ⟨hends.done rfl, rfl⟩
      | passed n =>
          have hready := hends.passed n rfl
          exact .inl ⟨hready.call, hready, List.countP_cons_of_pos rfl⟩

/-- A call ends. -/
theorem ended {r : Except Exc DeliveryResult} (h : Fair ids cur st log) (hlive : Live c log)
    (hghost : ghost (fun _ => deliveryWatch) c log = some s) (hends : Concludes s r) :
    Fair ids cur st (.ended c r :: log) := by
  have hcalm := h.calm c s hghost
  have hback : ∀ {d sd}, Passing d sd (.ended c r :: log) → d ≠ c ∧ Passing d sd log :=
    fun hd => ⟨Ne.symm hd.1.1, hd.1.2, hd.2⟩
  have hdone : attempts (.ended c r :: log) = attempts log := attempts_cons_none rfl
  have hown : ∀ d, attemptsOf d (.ended c r :: log) = attemptsOf d log :=
    fun _ => attemptsOf_cons_none rfl
  have hover := @passes_ended log c _ _ hends hcalm
  refine ⟨h.legible, h.within, ?_, h.calm, ?_,
    fun _ _ _ _ hd hd' => h.one _ _ _ _ (hback hd).2 (hback hd').2, ?_, ?_, ?_,
    fun d sd hd => h.waiting d sd (hback hd).2, fun d itemId attemptedAt hmem =>
      h.answered d itemId attemptedAt ((List.mem_cons.1 hmem).resolve_left nofun)⟩
  · rw [hdone]
    exact h.left
  · simp only [hown]
    exact h.prepared
  · intro hidle
    rw [hdone]
    rcases hover with ⟨hcall, hready, hpasses⟩ | ⟨hcall, hpasses⟩
    · rw [hpasses]
      exact (h.pass c s ⟨hlive, hghost, hcall⟩).over hready hcalm
    · rw [hpasses]
      refine h.idle fun d sd hd => hidle d sd ⟨⟨?_, hd.1⟩, hd.2⟩
      rintro rfl
      cases hghost.symm.trans hd.2.1
      exact hcall hd.2.2
  · intro d sd hd
    obtain ⟨hd, hold⟩ := hback hd
    rcases hover with ⟨hcall, -, -⟩ | ⟨-, hpasses⟩
    · exact absurd (h.one d sd c s hold ⟨hlive, hghost, hcall⟩) hd
    · rw [hdone, hown, hpasses]
      exact h.pass d sd hold
  · intro d
    rw [hown]
    exact h.once d

/-- Before the first pass. -/
theorem init (hread : Legible st.tables) :
    Fair (sendableIds st.tables) st.lastItemId st [] where
  legible := hread
  within _ hid := hid
  left rest hrest := by
    rw [show rest = Cyclic.round st.lastItemId (sendableIds st.tables) from hrest]
    exact fun id hid => Cyclic.mem_round.1 hid
  calm _ _ hghost := by cases hghost
  prepared _ _ hghost := by cases hghost
  one _ _ _ _ h := h.1.elim
  idle _ := ⟨.nil 20 _, rfl⟩
  pass _ _ h := h.1.elim
  once _ := List.nodup_nil
  waiting _ _ h := h.1.elim
  answered _ _ _ h := by cases h

/-- The worker keeps to its rounds. -/
theorem invariant (cfg : DeliveryConfig) (hids : ids.Pairwise (· < ·)) :
    Invariant (delivery cfg) (fun _ => deliveryWatch) (fun _ => Concludes) Steady
      (Fair ids cur) where
  obeys w c call s' _ _ haccept := program_obeys cfg haccept
  began w c call s' hs h hok hnew haccept := by
    have hsame : s' = w.state := by
      cases call with
      | construct => exact absurd rfl hok.1
      | runOnce => cases haccept; rfl
      | submit digest op =>
          simp only [delivery, accept] at haccept
          split at haccept <;> cases haccept
          rfl
    rw [hsame]
    exact h.began hnew hs.lawful hok.2
  did w c env e k s r s' hs h hok hrun hlive hghost hallow hexec := by
    obtain ⟨rfl, rfl⟩ : r = (exec env w.state e).1 ∧ s' = (exec env w.state e).2 := by
      rw [Option.some.inj hexec]
      exact ⟨rfl, rfl⟩
    exact ⟨exec_expect, h.did hids hok hrun hlive hghost hallow⟩
  ended w c s r _ h hlive hghost hends := h.ended hlive hghost hends
  crashed w p env _ _ hok := hok.elim

end Fair

/-! ## No row starves -/

/-- A call that began as a pass is watched as one. -/
theorem watched_pass {log : DeliveryLog} {c : CallId} {s : DeliveryWatch}
    (h : Lawful (fun _ => deliveryWatch) (fun _ => Concludes) log)
    (hghost : ghost (fun _ => deliveryWatch) c log = some s) (hmem : .began c .runOnce ∈ log) :
    s.call = .runOnce := by
  obtain ⟨later, earlier, rfl⟩ := List.append_of_mem hmem
  obtain ⟨s', hs', hsteps⟩ := h.steps (List.suffix_append later _) ghost_began_self
  cases hghost.symm.trans hs'
  exact hsteps.keeps (Φ := fun s => s.call = .runOnce)
    (fun s e r _ _ hc => (s.next_call e r).trans hc) rfl

/-- What an attempt has come to when its pass is over: the store has failed, or the row was
prepared and its payload offered, if it can be offered. -/
def Tried (c : CallId) (answer : Except Exc (Option Fields)) (later : DeliveryLog) : Prop :=
  (∃ x, answer = .error x) ∨ ∃ payload, answer = .ok (some payload) ∧
    (offerable payload = false ∨ Offered c payload later)

/-- While nothing becomes sendable, every pass returns, no pass attempts a row twice, and
`k` passes with `n ≤ 20 * k` attempt the `n` sendable rows one after the other, in the order
of the round that begins after the position of the worker, whatever fails.  Each attempt of a
pass that is over has sent what was prepared for it. -/
theorem passes_attempt_all (cfg : DeliveryConfig) (st : DeliveryState)
    (hread : Legible st.tables) (l : List (Choice DeliveryEnv DeliveryCall))
    (hok : (delivery cfg).Admits Steady (World.init st) l) :
    (∀ c x, .began c .runOnce ∈ ((delivery cfg).run (World.init st) l).log →
      .ended c (.error x) ∉ ((delivery cfg).run (World.init st) l).log) ∧
    (∀ c, (attemptsOf c ((delivery cfg).run (World.init st) l).log).Nodup) ∧
    ((sendableIds st.tables).length ≤ 20 * passes ((delivery cfg).run (World.init st) l).log →
      Cyclic.round st.lastItemId (sendableIds st.tables) <+:
        attempts ((delivery cfg).run (World.init st) l).log) ∧
    ∀ c r, .ended c r ∈ ((delivery cfg).run (World.init st) l).log →
      ∀ later earlier itemId attemptedAt answer, ((delivery cfg).run (World.init st) l).log =
        later ++ .did c (.store (.prepareOutboxAttempt itemId attemptedAt)) answer :: earlier →
        Tried c answer later := by
  obtain ⟨hs, h⟩ := (Fair.invariant cfg (sendableIds_pairwise st.tables)).run
    (Sound.init _ _ st) (Fair.init hread) hok
  refine ⟨fun c x hbegan hended => ?_, h.once, fun hlen => ?_,
    fun c r hended later earlier itemId attemptedAt answer hlog => ?_⟩
  · obtain ⟨later, earlier, heq⟩ := List.append_of_mem hended
    have hmem : Event.ended c (.error x) :: earlier <:+ ((delivery cfg).run (World.init st) l).log :=
      ⟨later, heq.symm⟩
    obtain ⟨-, s, hghost, hends⟩ := hs.lawful.ended hmem
    have hghost' := (hs.lawful.settled hmem).1.trans hghost
    have htroubled := hends.error x rfl (watched_pass hs.lawful hghost' hbegan)
    rw [h.calm c s hghost'] at htroubled
    cases htroubled
  · have hround : (Cyclic.round st.lastItemId (sendableIds st.tables)).length ≤
        20 * passes ((delivery cfg).run (World.init st) l).log := by
      rwa [(Cyclic.perm_round _ _).length_eq]
    rcases Classical.em (∃ c s, Passing c s ((delivery cfg).run (World.init st) l).log) with
      ⟨c, s, hpassing⟩ | hidle
    · exact (h.pass c s hpassing).covers hround
    · exact (h.idle fun c s hp => hidle ⟨c, s, hp⟩).visits.covers hround
  · cases answer with
    | error x => exact .inl ⟨x, rfl⟩
    | ok answer =>
        cases answer with
        | none =>
            refine absurd ?_ (h.answered c itemId attemptedAt)
            rw [hlog]
            exact List.mem_append_right _ List.mem_cons_self
        | some payload =>
            refine .inr ⟨payload, rfl, ?_⟩
            cases hoffer : offerable payload with
            | false => exact .inl rfl
            | true => exact .inr (prepared_offered cfg st l hended hlog hoffer)

/-! ### A cloud that cannot be reached -/

namespace Unreachable

/-- `Steady`, computed. -/
def steady (w : DeliveryWorld) : Choice DeliveryEnv DeliveryCall → Bool
  | .begin _ .construct => false
  | .begin _ .runOnce => w.log.isEmpty
  | .begin _ (.submit _ _) => true
  | .step c env =>
      env.clock.isOk && env.selectFault.isNone &&
        match w.running c with
        | some (.call e _) =>
            (match (exec env w.state e).1 with
              | .ok _ => true
              | .error x => x.isException) &&
            (sendableIds (exec env w.state e).2.tables).all (· ∈ sendableIds w.state.tables)
        | _ => true
  | .crash _ _ => false

/-- `steady`, along a run. -/
def steadyAll (cfg : DeliveryConfig) (w : DeliveryWorld) :
    List (Choice DeliveryEnv DeliveryCall) → Bool
  | [] => true
  | ch :: rest => steady w ch && steadyAll cfg ((delivery cfg).step w ch) rest

theorem steady_of_check {w : DeliveryWorld} {ch : Choice DeliveryEnv DeliveryCall}
    (h : steady w ch = true) : Steady w ch := by
  cases ch with
  | begin c call =>
      cases call with
      | construct => cases h
      | runOnce =>
          refine ⟨by simp, fun _ d s hd => ?_⟩
          rw [List.isEmpty_iff.1 h] at hd
          exact hd.1
      | submit digest op => exact ⟨by simp, nofun⟩
  | step c env =>
      simp only [steady, Bool.and_eq_true] at h
      obtain ⟨⟨hclock, hselect⟩, hstep⟩ := h
      refine ⟨?_, Option.isNone_iff_eq_none.1 hselect, fun e k hrun => ?_⟩
      · cases hat : env.clock with
        | ok at_ => exact ⟨at_, rfl⟩
        | error x =>
            rw [hat] at hclock
            cases hclock
      · rw [hrun] at hstep
        simp only [Bool.and_eq_true, List.all_eq_true, decide_eq_true_eq] at hstep
        refine ⟨fun x hx => ?_, hstep.2⟩
        rw [hx] at hstep
        exact hstep.1
  | crash p env => cases h

theorem admits_of_steadyAll {cfg : DeliveryConfig} {l : List (Choice DeliveryEnv DeliveryCall)} :
    ∀ {w : DeliveryWorld}, steadyAll cfg w l = true → (delivery cfg).Admits Steady w l := by
  induction l with
  | nil => exact fun _ => trivial
  | cons ch rest ih =>
      intro w h
      obtain ⟨hfirst, hrest⟩ := Bool.and_eq_true_iff.1 h
      exact ⟨steady_of_check hfirst, ih hrest⟩

def event (key : String) : GateEvent where
  source := "camera"
  reason := "authorised_plate"
  opened := true
  idempotencyKey := some key
  receivedAt := datetimeMin

/-- An event is queued. -/
def queue (key : String) (t : Tables) : Tables :=
  ((DeliveryOp.store (.recordEventWithOutbox (event key) (some [])) rfl).run
    { now := datetimeMin } t).2

/-- Two rows, the second of which was taken last. -/
def start : DeliveryState where
  tables := queue "b" (queue "a" Tables.fresh)
  lastItemId := some 2

theorem start_legible : Legible start.tables :=
  DeliveryOp.run_legible (DeliveryOp.run_legible legible_fresh)

/-- No send succeeds. -/
def env : DeliveryEnv where
  clock := .ok datetimeMin
  weather := { now := datetimeMin }
  send := fun _ _ => .error .other

/-- One pass. -/
def pass : List (Choice DeliveryEnv DeliveryCall) :=
  .begin ⟨0, 0⟩ .runOnce :: List.replicate 20 (.step ⟨0, 0⟩ env)

/-- Both rows are attempted, and both payloads sent, although no send succeeds. -/
theorem passes_attempt_all_unreachable :
    sendableIds start.tables = [1, 2] ∧
    passes ((delivery {}).run (World.init start) pass).log = 1 ∧
    (∀ c x, .began c .runOnce ∈ ((delivery {}).run (World.init start) pass).log →
      .ended c (.error x) ∉ ((delivery {}).run (World.init start) pass).log) ∧
    (∀ c, (attemptsOf c ((delivery {}).run (World.init start) pass).log).Nodup) ∧
    [1, 2] <+: attempts ((delivery {}).run (World.init start) pass).log ∧
    ∀ c r, .ended c r ∈ ((delivery {}).run (World.init start) pass).log →
      ∀ later earlier itemId attemptedAt answer,
        ((delivery {}).run (World.init start) pass).log =
          later ++ .did c (.store (.prepareOutboxAttempt itemId attemptedAt)) answer :: earlier →
        Tried c answer later := by
  have hsendable : sendableIds start.tables = [1, 2] := by decide +kernel
  have hpasses : passes ((delivery {}).run (World.init start) pass).log = 1 := by decide +kernel
  obtain ⟨hreturn, honce, hall, htried⟩ :=
    passes_attempt_all {} start start_legible pass (admits_of_steadyAll (by decide +kernel))
  refine ⟨hsendable, hpasses, hreturn, honce, ?_, htried⟩
  have hround := hall (by rw [hsendable, hpasses]; decide)
  rw [hsendable] at hround
  exact hround

end Unreachable

end GateController

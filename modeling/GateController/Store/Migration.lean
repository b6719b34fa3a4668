import GateController.Store.Legacy

/-!
# A migration that crashes

Every statement on the structure does nothing once it is done, so a migration that was cut short
is taken up from the beginning with the result of one that was not.  The transaction records its
migrations together with what they do, so a construction after it changes no row.
-/

namespace GateController

open Data Effects

namespace Disk

/-! ## What a statement on the structure brings about -/

/-- The tables that are there. -/
def Has (d : Disk) : TableName → Prop
  | .events => d.events ≠ none
  | .actuationClaims => d.claims ≠ none
  | .outbox => d.outbox ≠ none
  | .schemaMigrations => d.migrations ≠ none
  | .commandAckOutbox => d.acks ≠ none
  | .eventTelemetry => d.telemetry ≠ none

/-- The outbox has its column `send_state`. -/
def HasSendState (d : Disk) : Prop :=
  ∃ outbox, d.outbox = some outbox ∧ outbox.hasSendState = true

/-- What a statement brings about. -/
def Done : Ddl → Disk → Prop
  | .createTable table, d => d.Has table
  | .createIndex name, d => name ∈ d.indexes
  | .addClaimColumn name, d => name ∈ d.claimColumns
  | .addSendState, d => d.HasSendState

/-- A statement, unless the columns say that it is done. -/
def ensure : Ddl → Disk → Except Exc Disk
  | .createTable table, d => .ok (d.createTable table)
  | .createIndex name, d => d.createIndex name
  | .addClaimColumn name, d => if name ∈ d.claimColumns then .ok d else d.addClaimColumn name
  | .addSendState, d => if "send_state" ∈ d.outboxColumns then .ok d else d.addSendState

theorem mem_outboxColumns {d : Disk} : "send_state" ∈ d.outboxColumns ↔ d.HasSendState := by
  unfold outboxColumns HasSendState
  cases d.outbox with
  | none => simp
  | some outbox => cases h : outbox.hasSendState <;> simp [h]

/-- The structure only grows. -/
structure Grows (d d' : Disk) : Prop where
  tables : ∀ table, d.Has table → d'.Has table
  columns : d.claimColumns ⊆ d'.claimColumns
  sendState : d.HasSendState → d'.HasSendState
  indexes : d.indexes ⊆ d'.indexes

theorem Grows.refl (d : Disk) : Grows d d := ⟨fun _ h => h, fun _ h => h, id, fun _ h => h⟩

theorem Grows.done {d d' : Disk} (h : Grows d d') {statement : Ddl} (hdone : Done statement d) :
    Done statement d' := by
  cases statement with
  | createTable table => exact h.tables table hdone
  | createIndex name => exact h.indexes hdone
  | addClaimColumn name => exact h.columns hdone
  | addSendState => exact h.sendState hdone

/-- A table that is there is left alone. -/
theorem createTable_of_has {d : Disk} {table : TableName} (h : d.Has table) :
    d.createTable table = d := by
  obtain ⟨events, claims, outbox, migrations, acks, telemetry, indexes, log⟩ := d
  cases table with
  | events => obtain ⟨found, rfl⟩ := Option.ne_none_iff_exists'.1 h; rfl
  | actuationClaims => obtain ⟨found, rfl⟩ := Option.ne_none_iff_exists'.1 h; rfl
  | outbox => obtain ⟨found, rfl⟩ := Option.ne_none_iff_exists'.1 h; rfl
  | schemaMigrations => obtain ⟨found, rfl⟩ := Option.ne_none_iff_exists'.1 h; rfl
  | commandAckOutbox => obtain ⟨found, rfl⟩ := Option.ne_none_iff_exists'.1 h; rfl
  | eventTelemetry => obtain ⟨found, rfl⟩ := Option.ne_none_iff_exists'.1 h; rfl

theorem grows_createTable (d : Disk) (table : TableName) :
    Grows d (d.createTable table) ∧ (d.createTable table).Has table := by
  obtain ⟨events, claims, outbox, migrations, acks, telemetry, indexes, log⟩ := d
  refine ⟨⟨fun other hother => ?_, ?_, ?_, ?_⟩, ?_⟩
  · cases table <;> cases other <;> first | exact hother | exact Option.some_ne_none _
  · cases table with
    | actuationClaims =>
        cases claims with
        | none => exact List.nil_subset _
        | some claims => exact fun _ h => h
    | _ => exact fun _ h => h
  · cases table with
    | outbox =>
        rintro ⟨found, hfound, hsend⟩
        cases hfound
        exact ⟨found, rfl, hsend⟩
    | _ => exact id
  · cases table <;> exact fun _ h => h
  · cases table <;> exact Option.some_ne_none _

theorem grows_of_createIndex {d d' : Disk} {name : String} (h : d.createIndex name = .ok d') :
    Grows d d' ∧ name ∈ d'.indexes := by
  unfold createIndex at h
  split at h
  next hmem =>
    cases h
    exact ⟨.refl d, hmem⟩
  next =>
    split at h
    next => cases h
    next =>
      cases h
      exact ⟨⟨fun table htable => (by cases table <;> exact htable), fun _ h => h, id,
        List.subset_append_left _ _⟩, by simp⟩

theorem grows_of_addClaimColumn {d d' : Disk} {name : String}
    (h : d.addClaimColumn name = .ok d') :
    Grows d d' ∧ d'.claimColumns = d.claimColumns ++ [name] := by
  unfold addClaimColumn at h
  split at h
  next => cases h
  next claims hclaims =>
    split at h
    next => cases h
    next =>
      cases h
      have hcolumns : d.claimColumns = claims.columns := by rw [Disk.claimColumns, hclaims]; rfl
      refine ⟨⟨fun table htable => ?_, ?_, id, fun _ h => h⟩, ?_⟩
      · cases table <;> first | exact htable | exact Option.some_ne_none _
      · rw [hcolumns]
        exact List.subset_append_left _ _
      · rw [hcolumns]
        rfl

theorem grows_of_addSendState {d d' : Disk} (h : d.addSendState = .ok d') :
    Grows d d' ∧ d'.HasSendState := by
  unfold addSendState at h
  split at h
  next => cases h
  next outbox houtbox =>
    split at h
    next => cases h
    next =>
      cases h
      have hsend : HasSendState { d with outbox := some ⟨true, outbox.table.update (fun _ _ => true)
          (fun row => { row with sendState := .ready }) fun _ => rfl⟩ } := ⟨_, rfl, rfl⟩
      refine ⟨⟨fun table htable => ?_, fun _ h => h, fun _ => hsend, fun _ h => h⟩, hsend⟩
      cases table <;> first | exact htable | exact Option.some_ne_none _

/-- A statement on the structure does nothing once it is done, and undoes no other. -/
theorem doneOnce : DoneOnce ensure Done := by
  have hgrows : ∀ {statement d d'}, ensure statement d = .ok d' →
      Grows d d' ∧ Done statement d' := by
    intro statement d d' h
    cases statement with
    | createTable table =>
        cases h
        exact grows_createTable d table
    | createIndex name => exact grows_of_createIndex h
    | addClaimColumn name =>
        rw [ensure] at h
        split at h
        next hmem =>
          cases h
          exact ⟨.refl d, hmem⟩
        next =>
          obtain ⟨hgrows, hcolumns⟩ := grows_of_addClaimColumn h
          exact ⟨hgrows, show name ∈ d'.claimColumns by rw [hcolumns]; simp⟩
    | addSendState =>
        rw [ensure] at h
        split at h
        next hmem =>
          cases h
          exact ⟨.refl d, mem_outboxColumns.1 hmem⟩
        next => exact grows_of_addSendState h
  refine ⟨fun h => (hgrows h).2, fun {statement d} h => ?_, fun h hdone => (hgrows h).1.done hdone⟩
  cases statement with
  | createTable table => exact congrArg Except.ok (createTable_of_has h)
  | createIndex name => exact if_pos h
  | addClaimColumn name => exact if_pos h
  | addSendState => exact if_pos (mem_outboxColumns.2 h)

end Disk

namespace LocalStore

/-! ## Where the program can crash -/

section Crash

variable (fromisoformat : String → Option Wall)

/-- All statements on the structure. -/
def statements : List Ddl :=
  script ++ addedColumns.map .addClaimColumn ++ [.addSendState] ++
    [.createIndex "outbox_pending_send"]

/-- The transaction. -/
def commitRows (d : Disk) : Except Exc Disk :=
  match d.contents with
  | none => .error .other
  | some contents => (migrateRows fromisoformat contents).map fun done => d.withContents done.2

/-- The statements on the structure and then the transaction. -/
def migrated (d : Disk) : Except Exc Disk :=
  runSteps Disk.ensure statements d >>= commitRows fromisoformat

/-- Some of the statements on the structure are done, or all is. -/
def CrashPoint (d s : Disk) : Prop :=
  (∃ before after, statements = before ++ after ∧ runSteps Disk.ensure before d = .ok s) ∨
    migrated fromisoformat d = .ok s

/-- These statements are done, or one of them has raised. -/
def Stands {α : Type} (d : Disk) (steps : List Ddl) : Except Exc α → Disk → Prop
  | .ok _, s => runSteps Disk.ensure steps d = .ok s
  | .error x, s => runSteps Disk.ensure statements d = .error x ∧ CrashPoint fromisoformat d s

/-- How the program ends. -/
def Ends (d : Disk) : Except Exc Unit → Disk → Prop
  | .ok _, s => migrated fromisoformat d = .ok s
  | .error x, s => migrated fromisoformat d = .error x ∧ CrashPoint fromisoformat d s

variable {fromisoformat} {d s : Disk} {before after : List Ddl}

theorem op_safe {e : MigrationEff} {Q : Except Exc e.Ans → Disk → Prop}
    (hcrash : CrashPoint fromisoformat d s)
    (h : Q (execMigration fromisoformat e s).1 (execMigration fromisoformat e s).2) :
    Effects.Safe (execMigration fromisoformat) (CrashPoint fromisoformat d) Q (migrationOp e) s :=
  Effects.Safe.perform hcrash h

theorem ddl_safe {statement : Ddl} (hsplit : statements = before ++ statement :: after)
    (hrun : runSteps Disk.ensure before d = .ok s)
    (hensure : s.perform statement = Disk.ensure statement s) :
    Effects.Safe (execMigration fromisoformat) (CrashPoint fromisoformat d)
      (Stands fromisoformat d (before ++ [statement])) (migrationOp (.ddl statement)) s := by
  have hcrash : CrashPoint fromisoformat d s := .inl ⟨before, _, hsplit, hrun⟩
  refine op_safe hcrash ?_
  have hnext := runSteps_concat (i := statement) hrun
  rw [← hensure] at hnext
  simp only [execMigration]
  cases hperform : s.perform statement with
  | ok s' => exact hnext.trans hperform
  | error x =>
      have hall : statements = (before ++ [statement]) ++ after := by simp [hsplit]
      refine ⟨?_, hcrash⟩
      rw [hall]
      exact runSteps_error (hnext.trans hperform)

theorem executescript_safe {l : List Ddl} (hsplit : statements = before ++ (l ++ after))
    (hrun : runSteps Disk.ensure before d = .ok s)
    (hensure : ∀ statement ∈ l, ∀ s : Disk, s.perform statement = Disk.ensure statement s) :
    Effects.Safe (execMigration fromisoformat) (CrashPoint fromisoformat d) (Stands fromisoformat d (before ++ l))
      (executescript l) s := by
  induction l generalizing before s with
  | nil =>
      rw [List.append_nil]
      exact hrun
  | cons statement rest ih =>
      refine Effects.Safe.bind (ddl_safe hsplit hrun (hensure statement List.mem_cons_self s))
        (fun _ s' hs' => ?_) fun _ _ h => h
      have h := ih (by simp [hsplit]) hs' fun st hst => hensure st (List.mem_cons_of_mem _ hst)
      rwa [List.append_assoc, List.singleton_append] at h

theorem addMissing_safe {columns names : List String} (hnodup : names.Nodup)
    (hsplit : statements = before ++ (names.map .addClaimColumn ++ after))
    (hrun : runSteps Disk.ensure before d = .ok s)
    (hcolumns : ∀ name ∈ names, name ∈ columns ↔ name ∈ s.claimColumns) :
    Effects.Safe (execMigration fromisoformat) (CrashPoint fromisoformat d)
      (Stands fromisoformat d (before ++ names.map .addClaimColumn)) (addMissing columns names) s := by
  induction names generalizing before s with
  | nil =>
      rw [List.map_nil, List.append_nil]
      exact hrun
  | cons name rest ih =>
      obtain ⟨hnew, hnodup⟩ := List.nodup_cons.1 hnodup
      have hthere := hcolumns name List.mem_cons_self
      have hnext := runSteps_concat (i := .addClaimColumn name) hrun
      -- The rest of the loop, from a state in which this column is there.
      have hrest : ∀ s', runSteps Disk.ensure (before ++ [.addClaimColumn name]) d = .ok s' →
          (∀ other ∈ rest, other ∈ s'.claimColumns ↔ other ∈ s.claimColumns) →
          Effects.Safe (execMigration fromisoformat) (CrashPoint fromisoformat d)
            (Stands fromisoformat d (before ++ (name :: rest).map .addClaimColumn)) (addMissing columns rest) s' := by
        intro s' hs' hsame
        have h := ih hnodup (by simp [hsplit]) hs'
          fun other hother => (hcolumns other (List.mem_cons_of_mem name hother)).trans
            (hsame other hother).symm
        rwa [List.append_assoc, List.singleton_append, ← List.map_cons] at h
      unfold addMissing
      by_cases hmem : name ∈ columns
      · simp only [hmem, not_true_eq_false, if_false]
        have hidle : Disk.ensure (.addClaimColumn name) s = .ok s := if_pos (hthere.1 hmem)
        exact hrest s (hnext.trans hidle) fun _ _ => Iff.rfl
      · simp only [hmem, not_false_eq_true, if_true]
        have hensure : Disk.ensure (.addClaimColumn name) s = s.addClaimColumn name :=
          if_neg fun h => hmem (hthere.2 h)
        refine Effects.Safe.bind (ddl_safe hsplit hrun hensure.symm) (fun _ s' hs' => ?_) fun _ _ h => h
        refine hrest s' hs' fun other hother => ?_
        have hadd : s.addClaimColumn name = .ok s' := hensure.symm.trans (hnext.symm.trans hs')
        obtain ⟨-, hcolumns'⟩ := Disk.grows_of_addClaimColumn hadd
        have hne : other ≠ name := fun heq => hnew (heq ▸ hother)
        simp [hcolumns', hne]

/-- The transaction commits or leaves no trace. -/
theorem execMigration_rows (d : Disk) :
    execMigration fromisoformat .rows d =
      match commitRows fromisoformat d with
      | .ok d' => (.ok (), d')
      | .error x => (.error x, d) := by
  rw [execMigration, commitRows]
  cases d.contents with
  | none => rfl
  | some contents =>
      dsimp only
      cases migrateRows fromisoformat contents <;> rfl

theorem rows_safe (hrun : runSteps Disk.ensure statements d = .ok s) :
    Effects.Safe (execMigration fromisoformat) (CrashPoint fromisoformat d) (Ends fromisoformat d)
      (migrationOp .rows) s := by
  have hcrash : CrashPoint fromisoformat d s := .inl ⟨statements, [], by simp, hrun⟩
  have hall : migrated fromisoformat d = commitRows fromisoformat s := by
    rw [migrated, hrun]
    rfl
  refine op_safe (e := .rows) hcrash ?_
  rw [execMigration_rows]
  cases hcommit : commitRows fromisoformat s with
  | ok s' => exact hall.trans hcommit
  | error x => exact ⟨hall.trans hcommit, hcrash⟩

/-- Where a statement has raised the program ends. -/
theorem Ends.of_stands {α : Type} {steps : List Ddl} {x : Exc}
    (h : Stands fromisoformat d steps (.error x : Except Exc α) s) :
    Ends fromisoformat d (.error x) s :=
  ⟨by rw [migrated, h.1]; rfl, h.2⟩

/-- The script has only statements that say themselves whether they are done. -/
theorem perform_script {statement : Ddl} (h : statement ∈ script) (s : Disk) :
    s.perform statement = Disk.ensure statement s := by
  cases statement with
  | createTable table => rfl
  | createIndex name => rfl
  | addClaimColumn name => simp [script] at h
  | addSendState => simp [script] at h

/-- The end of the block, once all columns are there. -/
theorem indexRows_safe (hrun : runSteps Disk.ensure (script ++ addedColumns.map .addClaimColumn ++
      [.addSendState]) d = .ok s) :
    Effects.Safe (execMigration fromisoformat) (CrashPoint fromisoformat d) (Ends fromisoformat d)
      (migrationOp (.ddl (.createIndex "outbox_pending_send")) >>= fun _ => migrationOp .rows) s :=
  Effects.Safe.bind (ddl_safe rfl hrun rfl) (fun _ _ hs' => rows_safe hs')
    fun _ _ h => Ends.of_stands h

/-- The end of the block, once the columns of the claims are there. -/
theorem sendState_safe
    (hrun : runSteps Disk.ensure (script ++ addedColumns.map .addClaimColumn) d = .ok s) :
    Effects.Safe (execMigration fromisoformat) (CrashPoint fromisoformat d) (Ends fromisoformat d) (do
      let outboxColumns ← migrationOp .outboxColumns
      if "send_state" ∉ outboxColumns then
        migrationOp (.ddl .addSendState)
      migrationOp (.ddl (.createIndex "outbox_pending_send"))
      migrationOp .rows) s := by
  have hcrash : CrashPoint fromisoformat d s := .inl ⟨_, _, List.append_assoc _ _ _, hrun⟩
  have hnext := runSteps_concat (i := .addSendState) hrun
  refine Effects.Safe.bind (R := fun r s' => s' = s ∧ r = .ok s.outboxColumns)
    (op_safe (e := .outboxColumns) hcrash ⟨rfl, rfl⟩) (fun columns s' hs' => ?_) fun _ _ h => ?_
  · obtain ⟨rfl, hcolumns⟩ := hs'
    cases hcolumns
    by_cases hmem : "send_state" ∈ s'.outboxColumns
    · simp only [hmem, not_true_eq_false, if_false]
      have hidle : Disk.ensure .addSendState s' = .ok s' := if_pos hmem
      exact indexRows_safe (hnext.trans hidle)
    · simp only [hmem, not_false_eq_true, if_true]
      have hensure : Disk.ensure .addSendState s' = s'.addSendState := if_neg hmem
      have hsplit : statements = script ++ addedColumns.map .addClaimColumn ++
          .addSendState :: [.createIndex "outbox_pending_send"] := rfl
      exact Effects.Safe.bind (ddl_safe hsplit hrun hensure.symm) (fun _ _ hs' => indexRows_safe hs')
        fun _ _ h => Ends.of_stands h
  · cases h.2

/-- Wherever the program crashes, some of the statements are done or all is. -/
theorem migrate_safe (d : Disk) :
    Effects.Safe (execMigration fromisoformat) (CrashPoint fromisoformat d) (Ends fromisoformat d) migrate d := by
  have hsplit : statements = [] ++ (script ++ (addedColumns.map .addClaimColumn ++
      [.addSendState, .createIndex "outbox_pending_send"])) := rfl
  unfold migrate Prog.finally_
  refine Effects.Safe.bind (R := fun r s => ∃ outcome, r = .ok outcome ∧ Ends fromisoformat d outcome s)
    (Effects.Safe.attempt ?_) (fun outcome s hs => ?_) fun _ _ h => ?_
  · refine Effects.Safe.mono (Q := Ends fromisoformat d) ?_ fun r s h => ⟨r, rfl, h⟩
    refine Effects.Safe.bind (executescript_safe hsplit rfl fun _ h => perform_script h) (fun _ s₁ hs₁ => ?_)
      fun _ _ h => Ends.of_stands h
    have hcrash : CrashPoint fromisoformat d s₁ := .inl ⟨script, _, rfl, hs₁⟩
    refine Effects.Safe.bind (R := fun r s' => s' = s₁ ∧ r = .ok s₁.claimColumns)
      (op_safe (e := .claimColumns) hcrash ⟨rfl, rfl⟩) (fun columns s' hs' => ?_)
      fun _ _ h => ?_
    · obtain ⟨rfl, hcolumns⟩ := hs'
      cases hcolumns
      exact Effects.Safe.bind (addMissing_safe (by decide) hsplit hs₁ fun _ _ => Iff.rfl)
        (fun _ _ hs₂ => sendState_safe hs₂) fun _ _ h => Ends.of_stands h
    · cases h.2
  · obtain ⟨_, hr, hends⟩ := hs
    cases hr
    refine Effects.Safe.bind (R := fun r s' => s' = s ∧ r = .ok ()) (op_safe (e := .close) ?_ ⟨rfl, rfl⟩)
      (fun _ s' hs' => ?_) fun _ _ h => ?_
    · cases outcome with
      | ok _ => exact .inr hends
      | error x => exact hends.2
    · obtain ⟨rfl, -⟩ := hs'
      exact Effects.Safe.ofExcept hends
    · cases h.2
  · obtain ⟨_, hr, -⟩ := h
    cases hr

end Crash

/-! ## What the transaction does -/

section Rows

variable {fromisoformat : String → Option Wall} {c c' : Contents}

/-- The names under which the migrations are recorded. -/
def migrationNames : List String :=
  ["legacy_log_import", "outbox_payload_v1", "outbox_evidence_v2",
    "outbox_incompatible_followup_v3"]

/-- The steps of a block of statements that returned. -/
theorem transaction_bind_ok {α β : Type} {m : Transaction α} {f : α → Transaction β} {b : β}
    (h : (m >>= f) c = .ok (b, c')) : ∃ a c₁, m c = .ok (a, c₁) ∧ f a c₁ = .ok (b, c') := by
  have h' : (m c >>= fun p => f p.1 p.2) = Except.ok (b, c') := h
  cases hm : m c with
  | error x =>
      rw [hm] at h'
      cases h'
  | ok p =>
      rw [hm] at h'
      exact ⟨p.1, p.2, rfl, h'⟩

theorem transaction_bind_of_ok {α β : Type} {m : Transaction α} {f : α → Transaction β} {a : α}
    {s : Contents} (h : m c = .ok (a, s)) : (m >>= f) c = f a s := by
  show (m c >>= fun p => f p.1 p.2) = f a s
  rw [h]
  rfl

/-- Every row of the log becomes one event. -/
theorem importRows_ok {log : RawTable} {rows : List (List SqlValue)}
    (h : importRows fromisoformat log rows c = .ok ((), c')) :
    ∃ events imported, c' = { c with events } ∧ events.rows = c.events.rows ++ imported ∧
      List.Forall₂ (fun row p => legacyEvent fromisoformat log row = .ok p.2) rows imported := by
  induction rows generalizing c with
  | nil =>
      obtain rfl : c' = c := by cases h; rfl
      exact ⟨c'.events, [], rfl, (List.append_nil _).symm, .nil⟩
  | cons row rest ih =>
      obtain ⟨event, c₁, hevent, hrest⟩ := transaction_bind_ok h
      obtain ⟨contents, c₂, hget, hinsert⟩ := transaction_bind_ok hrest
      cases hget
      have hlegacy : legacyEvent fromisoformat log row = .ok event ∧ c₁ = c := by
        cases hlegacy : legacyEvent fromisoformat log row with
        | error x =>
            rw [hlegacy] at hevent
            cases hevent
        | ok found =>
            rw [hlegacy] at hevent
            cases hevent
            exact ⟨rfl, rfl⟩
      obtain ⟨hlegacy, rfl⟩ := hlegacy
      split at hinsert
      next => cases hinsert
      next id events hnew =>
        have hmore : importRows fromisoformat log rest { c₁ with events } = .ok ((), c') := hinsert
        obtain ⟨events', imported, rfl, hrows, himported⟩ := ih hmore
        refine ⟨events', (id, event) :: imported, rfl, ?_, .cons hlegacy himported⟩
        rw [hrows, Table.rows_of_insert hnew, List.append_assoc, List.singleton_append]

/-- The loop puts each row in its place. -/
theorem rewriteRows_eq {change : Contents → LegacyOutboxRow → Option LegacyOutboxRow}
    (hreads : ∀ c c' row, c.events = c'.events → change c row = change c' row)
    {before rows : List (Nat × LegacyOutboxRow)} (hrows : c.outbox.rows = before ++ rows) :
    ∃ outbox, rewriteRows change rows c = .ok ((), { c with outbox }) ∧
      outbox.rows = before ++ rows.map fun p => (p.1, (change c p.2).getD p.2) := by
  induction rows generalizing c before with
  | nil => exact ⟨c.outbox, rfl, hrows⟩
  | cons p rest ih =>
      obtain ⟨id, row⟩ := p
      unfold rewriteRows
      rw [transaction_bind_of_ok (a := c) (s := c) rfl]
      cases hchange : change c row with
      | none =>
          obtain ⟨outbox, hrun, hout⟩ :=
            @ih c (before ++ [(id, row)]) (by simp [hrows])
          refine ⟨outbox, hrun, ?_⟩
          rw [hout]
          simp [hchange]
      | some changed =>
          dsimp only
          rw [transaction_bind_of_ok (m := putRow id changed) rfl]
          have hput := Table.rows_update_id hrows (f := fun _ => changed) fun _ => rfl
          obtain ⟨outbox, hrun, hout⟩ := @ih
            { c with
              outbox := c.outbox.update (fun i _ => i == id) (fun _ => changed) (fun _ => rfl) }
            (before ++ [(id, changed)]) (by simp [hput])
          refine ⟨outbox, hrun, ?_⟩
          rw [hout, List.map_cons, hchange]
          simp [hreads _ c]

/-- The row after a migration, unless that is recorded already. -/
def changedUnless (recorded : List String) (name : String)
    (change : LegacyOutboxRow → Option LegacyOutboxRow) (row : LegacyOutboxRow) : LegacyOutboxRow :=
  if name ∈ recorded then row else (change row).getD row

theorem applied_eq (name : String) (c : Contents) :
    applied name c = .ok (decide (name ∈ c.migrations), c) := rfl

theorem record_eq {name : String} (h : name ∉ c.migrations) :
    record name c = .ok ((), { c with migrations := c.migrations ++ [name] }) := by
  unfold LocalStore.record
  rw [transaction_bind_of_ok (a := c) (s := c) rfl, if_neg h]
  rfl

/-- A migration that is recorded does nothing. -/
theorem migrateOutbox_of_mem {change : Contents → LegacyOutboxRow → Option LegacyOutboxRow}
    {name : String} (h : name ∈ c.migrations) : migrateOutbox name change c = .ok ((), c) := by
  unfold migrateOutbox
  rw [transaction_bind_of_ok (applied_eq name c), decide_eq_true h]
  rfl

theorem migrateOutbox_eq {change : Contents → LegacyOutboxRow → Option LegacyOutboxRow}
    (hreads : ∀ c c' row, c.events = c'.events → change c row = change c' row) (name : String)
    (c : Contents) :
    ∃ outbox migrations, migrateOutbox name change c = .ok ((), { c with outbox, migrations }) ∧
      outbox.rows = c.outbox.rows.map (fun p =>
        (p.1, changedUnless c.migrations name (change c) p.2)) ∧
      ∀ other, other ∈ migrations ↔ other ∈ c.migrations ∨ other = name := by
  by_cases hdone : name ∈ c.migrations
  · refine ⟨c.outbox, c.migrations, migrateOutbox_of_mem hdone, ?_, fun other => ?_⟩
    · simp [changedUnless, hdone]
    · exact ⟨.inl, fun h => h.elim id fun heq => heq ▸ hdone⟩
  · obtain ⟨outbox, hrun, hout⟩ := @rewriteRows_eq c change hreads [] c.outbox.rows rfl
    refine ⟨outbox, c.migrations ++ [name], ?_, ?_, fun other => by simp⟩
    · have hrecord : name ∉ ({ c with outbox } : Contents).migrations := hdone
      unfold migrateOutbox
      rw [transaction_bind_of_ok (applied_eq name c), decide_eq_false hdone]
      simp only [Bool.not_false, if_true]
      rw [transaction_bind_of_ok (a := c) (s := c) rfl, transaction_bind_of_ok hrun,
        record_eq hrecord]
    · simp [hout, changedUnless, hdone]

theorem recordOnce_eq (name : String) (c : Contents) :
    ∃ migrations, recordOnce name c = .ok ((), { c with migrations }) ∧
      (name ∈ c.migrations → migrations = c.migrations) ∧
      ∀ other, other ∈ migrations ↔ other ∈ c.migrations ∨ other = name := by
  by_cases hdone : name ∈ c.migrations
  · refine ⟨c.migrations, ?_, fun _ => rfl, fun other => ?_⟩
    · show Except.ok ((), if name ∈ c.migrations then c else _) = _
      rw [if_pos hdone]
    · exact ⟨.inl, fun h => h.elim id fun heq => heq ▸ hdone⟩
  · refine ⟨c.migrations ++ [name], ?_, fun h => absurd h hdone, fun other => by simp⟩
    show Except.ok ((), if name ∈ c.migrations then c else _) = _
    rw [if_neg hdone]

/-- A row of the outbox after the migrations that were not recorded. -/
def migratedRow (c : Contents) (recorded : List String) (row : LegacyOutboxRow) : LegacyOutboxRow :=
  changedUnless recorded "outbox_incompatible_followup_v3" (followupRow c)
    (changedUnless recorded "outbox_evidence_v2" (evidenceRow c)
      (changedUnless recorded "outbox_payload_v1" (enrichedRow c) row))

/-- The events after the import, if that was not recorded and there is a log. -/
def ImportedInto (fromisoformat : String → Option Wall) (log : Option RawTable)
    (recorded : List String) (before after : List (Nat × EventRow)) : Prop :=
  match (if "legacy_log_import" ∈ recorded then none else legacyLog log) with
  | none => after = before
  | some log => ∃ imported, after = before ++ imported ∧
      List.Forall₂ (fun row p => legacyEvent fromisoformat log row = .ok p.2) log.rows imported

/-- What a transaction has done that commits. -/
structure Transacted (fromisoformat : String → Option Wall) (c c' : Contents) : Prop where
  log : c'.log = c.log
  recorded : ∀ name ∈ migrationNames, name ∈ c'.migrations
  events : ImportedInto fromisoformat c.log c.migrations c.events.rows c'.events.rows
  outbox : c'.outbox.rows = c.outbox.rows.map fun p => (p.1, migratedRow c' c.migrations p.2)

theorem importOutstanding_ok {c₁ : Contents}
    (h : importOutstanding fromisoformat c = .ok ((), c₁)) :
    ∃ events, c₁ = { c with events } ∧
      ImportedInto fromisoformat c.log c.migrations c.events.rows events.rows := by
  unfold importOutstanding at h
  rw [transaction_bind_of_ok (applied_eq _ c)] at h
  by_cases hdone : "legacy_log_import" ∈ c.migrations
  · rw [decide_eq_true hdone] at h
    obtain rfl : c₁ = c := by cases h; rfl
    exact ⟨c₁.events, rfl, by simp [ImportedInto, hdone]⟩
  · rw [decide_eq_false hdone] at h
    simp only [Bool.not_false, if_true] at h
    rw [transaction_bind_of_ok (a := c) (s := c) rfl] at h
    cases hlog : legacyLog c.log with
    | none =>
        rw [hlog] at h
        obtain rfl : c₁ = c := by cases h; rfl
        exact ⟨c₁.events, rfl, by simp [ImportedInto, hdone, hlog]⟩
    | some log =>
        rw [hlog] at h
        obtain ⟨events, imported, rfl, hrows, himported⟩ := importRows_ok h
        refine ⟨events, rfl, ?_⟩
        simp only [ImportedInto, hdone, hlog, if_false]
        exact ⟨imported, hrows, himported⟩

/-- The migrations of the outbox read the events and the row. -/
theorem enrichedRow_congr (c c' : Contents) (row : LegacyOutboxRow) (h : c.events = c'.events) :
    enrichedRow c row = enrichedRow c' row := by
  unfold enrichedRow
  rw [h]

theorem evidenceRow_congr (c c' : Contents) (row : LegacyOutboxRow) (h : c.events = c'.events) :
    evidenceRow c row = evidenceRow c' row := by
  unfold evidenceRow
  rw [h]

theorem followupRow_congr (c c' : Contents) (row : LegacyOutboxRow) (_ : c.events = c'.events) :
    followupRow c row = followupRow c' row := rfl

theorem migrateRows_ok (h : migrateRows fromisoformat c = .ok ((), c')) :
    Transacted fromisoformat c c' := by
  obtain ⟨⟨⟩, c₁, himport, h⟩ := transaction_bind_ok h
  obtain ⟨events, rfl, hevents⟩ := importOutstanding_ok himport
  obtain ⟨m₀, hrecord, -, hm₀⟩ := recordOnce_eq "legacy_log_import" { c with events }
  rw [transaction_bind_of_ok hrecord] at h
  obtain ⟨o₁, m₁, hrun₁, ho₁, hm₁⟩ := migrateOutbox_eq enrichedRow_congr "outbox_payload_v1"
    { c with events, migrations := m₀ }
  rw [transaction_bind_of_ok hrun₁] at h
  obtain ⟨o₂, m₂, hrun₂, ho₂, hm₂⟩ := migrateOutbox_eq evidenceRow_congr "outbox_evidence_v2"
    { c with events, outbox := o₁, migrations := m₁ }
  rw [transaction_bind_of_ok hrun₂] at h
  obtain ⟨o₃, m₃, hrun₃, ho₃, hm₃⟩ := migrateOutbox_eq followupRow_congr
    "outbox_incompatible_followup_v3" { c with events, outbox := o₂, migrations := m₂ }
  have hc' : c' = { c with events, outbox := o₃, migrations := m₃ } := by
    cases h.symm.trans hrun₃
    rfl
  subst hc'
  dsimp only at ho₁ ho₂ ho₃ hm₀ hm₁ hm₂ hm₃
  refine ⟨rfl, fun name hname => ?_, hevents, ?_⟩
  · rw [hm₃, hm₂, hm₁, hm₀]
    simp only [migrationNames, List.mem_cons, List.not_mem_nil, or_false] at hname
    rcases hname with rfl | rfl | rfl | rfl <;> simp
  · have h₁ : ("outbox_payload_v1" ∈ m₀) = ("outbox_payload_v1" ∈ c.migrations) := by
      simp [hm₀]
    have h₂ : ("outbox_evidence_v2" ∈ m₁) = ("outbox_evidence_v2" ∈ c.migrations) := by
      simp [hm₁, hm₀]
    have h₃ : ("outbox_incompatible_followup_v3" ∈ m₂) =
        ("outbox_incompatible_followup_v3" ∈ c.migrations) := by
      simp [hm₂, hm₁, hm₀]
    simp only [ho₃, ho₂, ho₁, List.map_map, changedUnless, h₁, h₂, h₃]
    rfl

/-- Where all migrations are recorded the transaction does nothing. -/
theorem migrateRows_of_recorded (h : ∀ name ∈ migrationNames, name ∈ c.migrations) :
    migrateRows fromisoformat c = .ok ((), c) := by
  have himport : importOutstanding fromisoformat c = .ok ((), c) := by
    unfold importOutstanding
    rw [transaction_bind_of_ok (applied_eq _ c), decide_eq_true (h _ (by decide))]
    rfl
  have hrecord : recordOnce "legacy_log_import" c = .ok ((), c) := by
    obtain ⟨migrations, hrun, hsame, -⟩ := recordOnce_eq "legacy_log_import" c
    rw [hrun, hsame (h _ (by decide))]
  unfold migrateRows
  rw [transaction_bind_of_ok himport, transaction_bind_of_ok hrecord,
    transaction_bind_of_ok (migrateOutbox_of_mem (h _ (by decide))),
    transaction_bind_of_ok (migrateOutbox_of_mem (h _ (by decide))),
    migrateOutbox_of_mem (h _ (by decide))]

end Rows

/-! ## What becomes of a payload -/

section Payloads

variable {event o o₁ o₂ : JsonObject} {name : String}

/-- A payload keeps its names, but for the legacy path, and what is under them, but for the
status of an image that the path stood for.  It gains the fields of its event that it lacked. -/
structure Carries (event o o' : JsonObject) : Prop where
  kept : ∀ name value, o.get? name = some value → name ≠ "_local_image_path" →
    ∃ value', o'.get? name = some value' ∧ (name ≠ "image_status" → value' = value)
  gained : ∀ name value, event.get? name = some value → o.get? name = none →
    o'.get? name = some value

theorem get?_update (event o : JsonObject) (name : String) :
    (event.update o).get? name = (o.get? name).or (event.get? name) :=
  Fields.get?_update event.fields o.names name

/-- Put over its event a payload keeps all it has. -/
theorem carries_update (event o : JsonObject) : Carries event o (event.update o) where
  kept name value h _ := ⟨value, by rw [get?_update, h, Option.some_or], fun _ => rfl⟩
  gained name value hevent h := by rw [get?_update, h, Option.none_or, hevent]

/-- What is kept of a payload before it is put over its event is kept after. -/
theorem Carries.update (hkept : ∀ name value, o.get? name = some value →
      name ≠ "_local_image_path" →
      ∃ value', o₁.get? name = some value' ∧ (name ≠ "image_status" → value' = value))
    (hnew : ∀ name, o.get? name = none → name ≠ "image_status" → o₁.get? name = none)
    (hevent : event.get? "image_status" = none) : Carries event o (event.update o₁) where
  kept name value h hname := by
    obtain ⟨value', h', hsame⟩ := hkept name value h hname
    exact ⟨value', by rw [get?_update, h', Option.some_or], hsame⟩
  gained name value hfield h := by
    have hname : name ≠ "image_status" := by
      rintro rfl
      cases hevent.symm.trans hfield
    rw [get?_update, hnew name h hname, Option.none_or, hfield]

theorem Carries.trans (h₁ : Carries event o o₁) (h₂ : Carries event o₁ o₂)
    (hstatus : event.get? "image_status" = none) (hpath : event.get? "_local_image_path" = none) :
    Carries event o o₂ where
  kept name value h hname := by
    obtain ⟨value₁, h₁, hsame₁⟩ := h₁.kept name value h hname
    obtain ⟨value₂, h₂, hsame₂⟩ := h₂.kept name value₁ h₁ hname
    exact ⟨value₂, h₂, fun hne => (hsame₂ hne).trans (hsame₁ hne)⟩
  gained name value hfield h := by
    have hne : name ≠ "_local_image_path" := by
      rintro rfl
      cases hpath.symm.trans hfield
    have hne' : name ≠ "image_status" := by
      rintro rfl
      cases hstatus.symm.trans hfield
    obtain ⟨value₂, h₂, hsame⟩ := h₂.kept name value (h₁.gained name value hfield h) hne
    rw [h₂, hsame hne']

/-- An event has neither an image nor a path. -/
theorem eventObject_get?_eq_none (events : Table EventRow String EventRow.idempotencyKey)
    (eventId : Nat) :
    (eventObject events eventId).get? "image_status" = none ∧
      (eventObject events eventId).get? "_local_image_path" = none := by
  unfold eventObject
  split
  next => exact ⟨rfl, rfl⟩
  next fields hfields =>
    obtain ⟨row, -, rfl⟩ := Option.map_eq_some_iff.1 hfields
    exact ⟨rfl, rfl⟩

/-- Without the legacy path a payload has what it had. -/
theorem get?_erase_path (o : JsonObject) (name : String) :
    (o.erase "_local_image_path").get? name =
      if name = "_local_image_path" then none else o.get? name := by
  split
  next h =>
    subst h
    exact Fields.get?_erase_self
  next h => exact Fields.get?_erase_ne h

theorem get?_set (o : JsonObject) (other : String) (value : Json) (name : String) :
    (o.set other value).get? name = if name = other then some value else o.get? name := by
  split
  next h =>
    subst h
    exact Fields.get?_set_self
  next h => exact Fields.get?_set_ne h

theorem erase_carries (hevent : event.get? "image_status" = none) (o : JsonObject) :
    Carries event o (event.update (o.erase "_local_image_path")) := by
  refine Carries.update (fun name value h hname => ⟨value, ?_, fun _ => rfl⟩) (fun name h _ => ?_)
    hevent
  · rw [get?_erase_path, if_neg hname, h]
  · rw [get?_erase_path, h]
    split <;> rfl

theorem marked_carries (hevent : event.get? "image_status" = none) (o : JsonObject) (status : Json) :
    Carries event o
      (event.update ((o.erase "_local_image_path").set "image_status" status)) := by
  refine Carries.update (fun name value h hname => ?_) (fun name h hne => ?_) hevent
  · by_cases hstatus : name = "image_status"
    · exact ⟨status, by rw [get?_set, if_pos hstatus], fun hne => absurd hstatus hne⟩
    · exact ⟨value, by rw [get?_set, if_neg hstatus, get?_erase_path, if_neg hname, h], fun _ => rfl⟩
  · rw [get?_set, if_neg hne, get?_erase_path, h]
    split <;> rfl

/-- The payload that `outbox_evidence_v2` writes. -/
theorem evidenceRow_carries (c : Contents) (row : LegacyOutboxRow) :
    ∃ o', evidenceRow c row = some { row with payload := .object o' } ∧
      Carries (eventObject c.events row.eventId) row.payload.loads o' := by
  obtain ⟨hstatus, -⟩ := eventObject_get?_eq_none c.events row.eventId
  refine ⟨_, rfl, ?_⟩
  split
  next => exact erase_carries hstatus _
  next => exact erase_carries hstatus _
  next =>
    split
    next => exact marked_carries hstatus _ _
    next => exact erase_carries hstatus _

/-- A row after a migration of its payload, if there was one. -/
def CarriedBy (c : Contents) (row row' : LegacyOutboxRow) : Prop :=
  row'.eventId = row.eventId ∧ row'.completedAt = row.completedAt ∧
    ∃ o', row'.payload = .object o' ∧
      Carries (eventObject c.events row.eventId) row.payload.loads o'

/-- A follow-up changes the state of a row only. -/
theorem followupRow_payload (c : Contents) (recorded : List String) (name : String)
    (row : LegacyOutboxRow) :
    ∃ sendState, changedUnless recorded name (followupRow c) row = { row with sendState } := by
  unfold changedUnless
  split
  next => exact ⟨row.sendState, rfl⟩
  next =>
    unfold followupRow
    split
    next => exact ⟨row.sendState, rfl⟩
    next =>
      split
      next => exact ⟨row.sendState, rfl⟩
      next =>
        split
        next => exact ⟨.localOnly, rfl⟩
        next =>
          split
          next => exact ⟨.ready, rfl⟩
          next => exact ⟨row.sendState, rfl⟩

/-- If one of the migrations of the payloads was not recorded, a row that is not completed
carries its payload over. -/
theorem migratedRow_carries (c : Contents) {recorded : List String} {row : LegacyOutboxRow}
    (hrecorded : "outbox_payload_v1" ∉ recorded ∨ "outbox_evidence_v2" ∉ recorded)
    (hpending : row.completedAt = none) : CarriedBy c row (migratedRow c recorded row) := by
  obtain ⟨hstatus, hpath⟩ := eventObject_get?_eq_none c.events row.eventId
  obtain ⟨sendState, hfollowup⟩ := followupRow_payload c recorded
    "outbox_incompatible_followup_v3" (changedUnless recorded "outbox_evidence_v2" (evidenceRow c)
      (changedUnless recorded "outbox_payload_v1" (enrichedRow c) row))
  rw [migratedRow, hfollowup]
  have henriched : enrichedRow c row = some { row with
      payload := .object ((eventObject c.events row.eventId).update row.payload.loads) } := by
    simp [enrichedRow, hpending]
  by_cases h₁ : "outbox_payload_v1" ∈ recorded
  · have h₂ := hrecorded.resolve_left fun h => h h₁
    obtain ⟨o', hrow, hcarries⟩ := evidenceRow_carries c row
    simp only [changedUnless, h₁, h₂, if_true, if_false, hrow, Option.getD_some]
    exact ⟨rfl, rfl, o', rfl, hcarries⟩
  · by_cases h₂ : "outbox_evidence_v2" ∈ recorded
    · simp only [changedUnless, h₁, h₂, if_true, if_false, henriched, Option.getD_some]
      exact ⟨rfl, rfl, _, rfl, carries_update _ _⟩
    · obtain ⟨o', hrow, hcarries⟩ := evidenceRow_carries c { row with
        payload := .object ((eventObject c.events row.eventId).update row.payload.loads) }
      simp only [changedUnless, h₁, h₂, if_false, henriched, Option.getD_some, hrow]
      exact ⟨rfl, rfl, o', rfl, (carries_update _ _).trans hcarries hstatus hpath⟩

end Payloads

end LocalStore

namespace Disk

/-! ## The rows of the file -/

/-- The events, of which there are none without the table. -/
def eventTable (d : Disk) : Table EventRow String EventRow.idempotencyKey := d.events.getD .empty

/-- The migrations that are recorded. -/
def recorded (d : Disk) : List String := d.migrations.getD []

/-- The rows of the outbox. -/
def outboxRows (d : Disk) : List (Nat × LegacyOutboxRow) :=
  match d.outbox with
  | none => []
  | some outbox => outbox.table.rows

/-- The rows are those that were there, up to a column that is new. -/
structure SameRows (d d' : Disk) : Prop where
  events : d'.eventTable = d.eventTable
  recorded : d'.recorded = d.recorded
  log : d'.log = d.log
  outbox : ∀ id row, (id, row) ∈ d.outboxRows → ∃ sendState,
    (id, { row with sendState }) ∈ d'.outboxRows

theorem SameRows.refl (d : Disk) : SameRows d d :=
  ⟨rfl, rfl, rfl, fun _ row h => ⟨row.sendState, h⟩⟩

theorem SameRows.trans {d d' d'' : Disk} (h : SameRows d d') (h' : SameRows d' d'') :
    SameRows d d'' where
  events := h'.events.trans h.events
  recorded := h'.recorded.trans h.recorded
  log := h'.log.trans h.log
  outbox id row hmem := by
    obtain ⟨sendState, hmem⟩ := h.outbox id row hmem
    obtain ⟨sendState', hmem'⟩ := h'.outbox id _ hmem
    exact ⟨sendState', hmem'⟩

/-- A statement on the structure changes no row. -/
theorem sameRows_of_ensure {statement : Ddl} {d d' : Disk} (h : ensure statement d = .ok d') :
    SameRows d d' := by
  cases statement with
  | createTable table =>
      cases h
      obtain ⟨events, claims, outbox, migrations, acks, telemetry, indexes, log⟩ := d
      cases table with
      | events => cases events <;> exact ⟨rfl, rfl, rfl, fun _ row h => ⟨row.sendState, h⟩⟩
      | outbox =>
          refine ⟨rfl, rfl, rfl, fun _ row h => ⟨row.sendState, ?_⟩⟩
          cases outbox with
          | none => cases h
          | some outbox => exact h
      | schemaMigrations =>
          cases migrations <;> exact ⟨rfl, rfl, rfl, fun _ row h => ⟨row.sendState, h⟩⟩
      | actuationClaims => exact ⟨rfl, rfl, rfl, fun _ row h => ⟨row.sendState, h⟩⟩
      | commandAckOutbox => exact ⟨rfl, rfl, rfl, fun _ row h => ⟨row.sendState, h⟩⟩
      | eventTelemetry => exact ⟨rfl, rfl, rfl, fun _ row h => ⟨row.sendState, h⟩⟩
  | createIndex name =>
      rw [ensure, createIndex] at h
      split at h
      next =>
        cases h
        exact .refl d
      next =>
        split at h
        next => cases h
        next =>
          cases h
          exact ⟨rfl, rfl, rfl, fun _ row h => ⟨row.sendState, h⟩⟩
  | addClaimColumn name =>
      rw [ensure, addClaimColumn] at h
      split at h
      next =>
        cases h
        exact .refl d
      next =>
        split at h
        next => cases h
        next =>
          split at h
          next => cases h
          next =>
            cases h
            exact ⟨rfl, rfl, rfl, fun _ row h => ⟨row.sendState, h⟩⟩
  | addSendState =>
      rw [ensure, addSendState] at h
      split at h
      next =>
        cases h
        exact .refl d
      next =>
        split at h
        next => cases h
        next outbox houtbox =>
          split at h
          next => cases h
          next =>
            cases h
            refine ⟨rfl, rfl, rfl, fun id row hmem => ⟨.ready, ?_⟩⟩
            rw [outboxRows, houtbox] at hmem
            exact List.mem_map.2 ⟨(id, row), hmem, rfl⟩

theorem sameRows_of_runSteps {statements : List Ddl} {d d' : Disk}
    (h : runSteps ensure statements d = .ok d') : SameRows d d' := by
  induction statements generalizing d with
  | nil =>
      obtain rfl : d' = d := by cases h; rfl
      exact .refl d'
  | cons statement rest ih =>
      rw [runSteps] at h
      cases hstep : ensure statement d with
      | error x =>
          rw [hstep] at h
          cases h
      | ok d₁ =>
          rw [hstep] at h
          exact (sameRows_of_ensure hstep).trans (ih h)

/-- What the transaction reads are the rows of the file. -/
theorem contents_eq {d : Disk} {c : Contents} (h : d.contents = some c) :
    d.eventTable = c.events ∧ d.recorded = c.migrations ∧ d.log = c.log ∧
      d.outboxRows = c.outbox.rows := by
  obtain ⟨events, claims, outbox, migrations, acks, telemetry, indexes, log⟩ := d
  cases events with
  | none => cases h
  | some events =>
      cases outbox with
      | none => cases h
      | some outbox =>
          cases migrations with
          | none => cases h
          | some migrations =>
              cases h
              exact ⟨rfl, rfl, rfl, rfl⟩

/-- What the transaction leaves is what is read from the file then. -/
theorem contents_withContents {d : Disk} {c c' : Contents} (h : d.contents = some c)
    (hlog : c'.log = c.log) : (d.withContents c').contents = some c' ∧
      (d.withContents c').withContents c' = d.withContents c' ∧ Grows d (d.withContents c') := by
  obtain ⟨events, claims, outbox, migrations, acks, telemetry, indexes, log⟩ := d
  obtain ⟨events', outbox', migrations', log'⟩ := c'
  cases events with
  | none => cases h
  | some events =>
      cases outbox with
      | none => cases h
      | some outbox =>
          cases migrations with
          | none => cases h
          | some migrations =>
              cases h
              cases hlog
              refine ⟨rfl, rfl, fun table htable => ?_, fun _ h => h, ?_, fun _ h => h⟩
              · cases table <;> first | exact htable | exact Option.some_ne_none _
              · rintro ⟨found, hfound, hsend⟩
                cases hfound
                exact ⟨_, rfl, hsend⟩

end Disk

namespace LocalStore

/-! ## Constructions -/

section Constructions

variable {fromisoformat : String → Option Wall} {d d' s : Disk}

/-- The parts of a migration that comes to its end. -/
theorem migrated_ok (h : migrated fromisoformat d = .ok d') :
    ∃ e c c', runSteps Disk.ensure statements d = .ok e ∧ e.contents = some c ∧
      migrateRows fromisoformat c = .ok ((), c') ∧ d' = e.withContents c' := by
  unfold migrated at h
  cases hrun : runSteps Disk.ensure statements d with
  | error x =>
      rw [hrun] at h
      cases h
  | ok e =>
      rw [hrun] at h
      have hcommit : commitRows fromisoformat e = .ok d' := h
      unfold commitRows at hcommit
      cases hcontents : e.contents with
      | none =>
          rw [hcontents] at hcommit
          cases hcommit
      | some c =>
          rw [hcontents] at hcommit
          dsimp only at hcommit
          cases hrows : migrateRows fromisoformat c with
          | error x =>
              rw [hrows] at hcommit
              cases hcommit
          | ok done =>
              rw [hrows] at hcommit
              cases hcommit
              exact ⟨e, c, done.2, rfl, hcontents, hrows, rfl⟩

/-- After a migration all is done. -/
theorem migrated_done (h : migrated fromisoformat d = .ok d') :
    (∀ statement ∈ statements, Disk.Done statement d') ∧
      migrated fromisoformat d' = .ok d' := by
  obtain ⟨e, c, c', hrun, hcontents, hrows, rfl⟩ := migrated_ok h
  have htransacted := migrateRows_ok hrows
  obtain ⟨hread, hagain, hgrows⟩ := Disk.contents_withContents hcontents htransacted.log
  have hdone : ∀ statement ∈ statements, Disk.Done statement (e.withContents c') :=
    fun statement hst => hgrows.done (Disk.doneOnce.done_all hrun statement hst)
  refine ⟨hdone, ?_⟩
  rw [migrated, Disk.doneOnce.idle_all hdone]
  show commitRows fromisoformat (e.withContents c') = .ok (e.withContents c')
  rw [commitRows, hread]
  dsimp only
  rw [migrateRows_of_recorded htransacted.recorded]
  exact congrArg Except.ok hagain

/-- From wherever the program has crashed, the migration comes to the same result. -/
theorem CrashPoint.migrated_eq (h : CrashPoint fromisoformat d s) :
    migrated fromisoformat s = migrated fromisoformat d := by
  rcases h with ⟨before, after, hsplit, hrun⟩ | hdone
  · rw [migrated, migrated, hsplit, Disk.doneOnce.resume hrun]
  · rw [(migrated_done hdone).2, hdone]

/-- An attempt at a construction, whether it crashes, raises or comes to its end. -/
def attempted (fromisoformat : String → Option Wall) (d : Disk) (operations : Nat) : Disk :=
  (constructFor fromisoformat operations d).2

theorem migrated_attempted (d : Disk) (operations : Nat) :
    migrated fromisoformat (attempted fromisoformat d operations) = migrated fromisoformat d := by
  rcases hrun : constructFor fromisoformat operations d with ⟨r, s⟩
  rw [attempted, hrun]
  rcases (migrate_safe d).runFor operations hrun with ⟨-, hcrash⟩ | ⟨outcome, -, hends⟩
  · exact hcrash.migrated_eq
  · cases outcome with
    | ok _ =>
        have hdone : migrated fromisoformat d = .ok s := hends
        exact (migrated_done hdone).2.trans hdone.symm
    | error x => exact hends.2.migrated_eq

theorem migrated_attempts (d : Disk) (attempts : List Nat) :
    migrated fromisoformat (attempts.foldl (attempted fromisoformat) d) =
      migrated fromisoformat d := by
  induction attempts generalizing d with
  | nil => rfl
  | cons operations rest ih => rw [List.foldl_cons, ih, migrated_attempted]

/-- A construction that comes to its end has migrated the file. -/
theorem migrated_of_constructed {operations : Nat}
    (h : constructFor fromisoformat operations s = (some (.ok ()), d')) :
    migrated fromisoformat s = .ok d' := by
  rcases (migrate_safe s).runFor operations h with ⟨hnone, -⟩ | ⟨outcome, houtcome, hends⟩
  · cases hnone
  · cases houtcome
    exact hends

theorem construct_of_migrated (h : migrated fromisoformat d = .ok d') :
    construct fromisoformat d = (.ok (), d') := by
  rcases hrun : construct fromisoformat d with ⟨r, s⟩
  have hends := (@migrate_safe fromisoformat d).runAlone
  have hrun' : runAlone (execMigration fromisoformat) migrate d = (r, s) := hrun
  rw [hrun'] at hends
  cases r with
  | ok _ =>
      cases hends.symm.trans h
      rfl
  | error x => cases hends.1.symm.trans h

/-- On a file that is migrated no attempt changes anything. -/
theorem attempted_of_done (h : migrated fromisoformat d = .ok d)
    (hdone : ∀ statement ∈ statements, Disk.Done statement d) (operations : Nat) :
    attempted fromisoformat d operations = d := by
  rcases hrun : constructFor fromisoformat operations d with ⟨r, s⟩
  rw [attempted, hrun]
  have hcrash : ∀ {s}, CrashPoint fromisoformat d s → s = d := by
    rintro s (⟨before, after, hsplit, hbefore⟩ | hall)
    · rw [Disk.doneOnce.idle_all fun statement hst =>
        hdone statement (hsplit ▸ List.mem_append_left after hst)] at hbefore
      cases hbefore
      rfl
    · cases hall.symm.trans h
      rfl
  rcases (migrate_safe d).runFor operations hrun with ⟨-, hpoint⟩ | ⟨outcome, -, hends⟩
  · exact hcrash hpoint
  · cases outcome with
    | ok _ => exact hcrash (.inr hends)
    | error x => exact hcrash hends.2

end Constructions

/-- Whatever attempts at a construction went before, one that comes to its end leaves the file as
one construction without a crash would.  If the import of the log was outstanding, every row of
the log has become one event.  If a migration of the payloads was outstanding, every row that was
not completed carries its payload over.  No construction after that changes the file. -/
theorem construct_after_crashes (fromisoformat : String → Option Wall) (d d' : Disk)
    (attempts : List Nat) (operations : Nat)
    (h : constructFor fromisoformat operations (attempts.foldl (attempted fromisoformat) d) =
      (some (.ok ()), d')) :
    construct fromisoformat d = (.ok (), d') ∧
      ("legacy_log_import" ∉ d.recorded → ∀ log, legacyLog d.log = some log →
        ∃ imported, d'.eventTable.rows = d.eventTable.rows ++ imported ∧
          List.Forall₂ (fun row p => legacyEvent fromisoformat log row = .ok p.2)
            log.rows imported) ∧
      ("outbox_payload_v1" ∉ d.recorded ∨ "outbox_evidence_v2" ∉ d.recorded →
        ∀ id row, (id, row) ∈ d.outboxRows → row.completedAt = none →
          ∃ row' o', (id, row') ∈ d'.outboxRows ∧ row'.payload = .object o' ∧
            Carries (eventObject d'.eventTable row.eventId) row.payload.loads o') ∧
      ∀ further, construct fromisoformat d' = (.ok (), d') ∧
        attempted fromisoformat d' further = d' := by
  have hmigrated := migrated_of_constructed h
  rw [migrated_attempts] at hmigrated
  obtain ⟨hdone, hagain⟩ := migrated_done hmigrated
  obtain ⟨e, c, c', hrun, hcontents, hrows, rfl⟩ := migrated_ok hmigrated
  have htransacted := migrateRows_ok hrows
  have hsame := Disk.sameRows_of_runSteps hrun
  obtain ⟨hevents, hrecorded, hlog, hout⟩ := Disk.contents_eq hcontents
  obtain ⟨hread, -, -⟩ := Disk.contents_withContents hcontents htransacted.log
  obtain ⟨hevents', -, -, hout'⟩ := Disk.contents_eq hread
  refine ⟨construct_of_migrated hmigrated, fun hnew log hlegacy => ?_, fun hnew id row hrow hpending => ?_,
    fun further => ⟨construct_of_migrated hagain, attempted_of_done hagain hdone further⟩⟩
  · have himported := htransacted.events
    have hnot : "legacy_log_import" ∉ c.migrations := by rwa [← hrecorded, hsame.recorded]
    have hfound : legacyLog c.log = some log := by rw [← hlog, hsame.log, hlegacy]
    simp only [ImportedInto, hnot, hfound, if_false] at himported
    rwa [hevents', ← hsame.events, hevents]
  · obtain ⟨sendState, hmem⟩ := hsame.outbox id row hrow
    rw [hout] at hmem
    have hnot : "outbox_payload_v1" ∉ c.migrations ∨ "outbox_evidence_v2" ∉ c.migrations := by
      rwa [← hrecorded, hsame.recorded]
    have hstill : { row with sendState }.completedAt = none := hpending
    obtain ⟨-, -, o', hpayload, hcarries⟩ := migratedRow_carries c' hnot hstill
    refine ⟨_, o', ?_, hpayload, ?_⟩
    · rw [hout', htransacted.outbox]
      exact List.mem_map.2 ⟨_, hmem, rfl⟩
    · rwa [hevents']

/-- A file with a legacy log, an event and its row of the outbox, and without the newer columns
and tables. -/
def oldDisk : Disk where
  events := some ⟨[(1, ⟨"2024-05-01T09:00:00+00:00", none, none, "camera", "allowed", true, none,
    none, none, 0⟩)], by simp, by simp⟩
  claims := some ⟨["id", "idempotency_key", "claimed_at", "state", "event_id", "detail"], []⟩
  outbox := some ⟨false, ⟨[(1, ⟨1, .object ⟨[("_local_image_path", .str "/tmp/frame.jpg")],
    by simp⟩, "2024-05-01T09:00:01+00:00", none, .ready⟩)], by simp, by simp⟩⟩
  migrations := none
  acks := none
  telemetry := none
  indexes := []
  log := some ⟨["timestamp", "gate_opened"],
    [[.text "2024-05-01T08:00:00", .text "Yes"], [.null, .integer 0]]⟩

/-- It is constructed after two crashes. -/
theorem construct_after_crashes_old :
    ∃ d', construct readWall oldDisk = (.ok (), d') ∧
      (∃ imported, d'.eventTable.rows = oldDisk.eventTable.rows ++ imported ∧
        imported.length = 2) ∧
      ∃ row' o', (1, row') ∈ d'.outboxRows ∧ row'.payload = .object o' := by
  have hok : (migrated readWall oldDisk).toOption.isSome = true := by decide +kernel
  have hcrashed := @migrated_attempts readWall oldDisk [4, 15]
  cases hmigrated : migrated readWall oldDisk with
  | error x =>
      rw [hmigrated] at hok
      cases hok
  | ok d' =>
      rw [hmigrated] at hcrashed
      obtain ⟨n, hrun⟩ := exists_runFor (execMigration readWall) migrate
        ([4, 15].foldl (attempted readWall) oldDisk)
      have halone : runAlone (execMigration readWall) migrate
        ([4, 15].foldl (attempted readWall) oldDisk) = (.ok (), d') := construct_of_migrated hcrashed
      rw [halone] at hrun
      obtain ⟨hsame, hlog, hpayload, -⟩ := construct_after_crashes _ _ _ _ _ hrun
      obtain ⟨imported, hrows, himported⟩ := hlog (by decide) _ rfl
      obtain ⟨row', o', hmem, ho', -⟩ := hpayload (.inl (by decide)) 1 _ (.head _) rfl
      exact ⟨d', hsame, ⟨imported, hrows, himported.length_eq.symm⟩, row', o', hmem, ho'⟩

end LocalStore

end GateController

import GateController.Delivery.Acknowledged

/-!
# A row stays the same event

Six operations write the payload of a row that waits to be sent.  They write it from the
row, from the trace of its event, or from rows that were selected before, and each of them
keeps what the payload says of the event and its evidence.  So every transmission of a row
carries the same key, whatever fails on the way.

A worker that is constructed selects the rows and binds them later, and other calls may come
between the two.  What it selected of a row that is bound already does not bind it again.
-/

namespace GateController

open Data Effects LocalStore Delivery OutboxWorker

/-! ## What is transmitted -/

/-- The functions that a request is made with.  The bytes of a file are kept as a text. -/
structure RequestLib where
  /-- `hashlib.sha256(text.encode("utf-8")).hexdigest()`. -/
  hexdigest : String → String
  /-- `hashlib.sha256(data).hexdigest()`. -/
  fileDigest : String → String
  /-- `len(data)`. -/
  fileSize : String → Nat
  /-- `base64.b64encode(data).decode("ascii")`. -/
  b64encode : String → String
  /-- `str(value)`. -/
  str : Json → String

/-- `MAX_OUTBOX_IMAGE_BYTES`. -/
def maxOutboxImageBytes : Nat := 512 * 1024

/-- What the payload says before the evidence is put into it. -/
def transmittedFields (controllerId : String) (payload : Fields) : Fields :=
  let transmitted := Fields.erase payload "_local_image_path"
  let transmitted :=
    if hasLegacyPath payload && (Fields.get? transmitted "image_sha256").isNone then
      setDefault transmitted "image_status" (.str "legacy_evidence_unavailable")
    else transmitted
  setDefault transmitted "controller_id" (.str controllerId)

/-- `_prepare_outbox_payload`. -/
def prepareOutboxPayload (lib : RequestLib) (controllerId : String) (payload : Fields)
    (evidence : Option String) : Except Exc Fields :=
  let transmitted := transmittedFields controllerId payload
  match evidence, imageDigest transmitted with
  | some bytes, some (.str digest) =>
      if digest ≠ lib.fileDigest bytes then
        .error (.runtimeError "evidence bytes do not match the queued digest")
      else if maxOutboxImageBytes < lib.fileSize bytes then
        .error (.runtimeError "evidence exceeds the upload limit")
      else
        .ok (Fields.set transmitted "image" (.obj [
          ("filename", .str (digest ++ ".jpg")),
          ("content_type", .str "image/jpeg"),
          ("data_base64", .str (lib.b64encode bytes)),
          ("sha256", .str digest)]))
  | some _, _ => .error (.runtimeError "evidence bytes do not match the queued digest")
  | none, some _ => .error (.runtimeError "queued evidence bytes are unavailable")
  | none, none => .ok transmitted

/-- `_outbox_idempotency_key`. -/
def outboxIdempotencyKey (lib : RequestLib) (payload : Fields) : Except Exc String := do
  let controllerId ← item payload "controller_id"
  let eventId ← item payload "event_id"
  return lib.hexdigest (lib.str controllerId ++ ":" ++ lib.str eventId)

/-- A payload with a controller and without a legacy path. -/
structure Bound (payload : Fields) : Prop where
  controller : truthyValue (Fields.get? payload "controller_id") = true
  legacy : hasLegacyPath payload = false

section Content

variable {payload p q : Fields} {lib : RequestLib} {controllerId name : String}

theorem Bound.of_content (h : Bound p) (hc : content q = content p) : Bound q where
  controller := by
    rw [get?_of_content_eq hc (by decide) (by decide)]
    exact h.controller
  legacy := by
    rw [hasLegacyPath, get?_of_content_eq hc (by decide) (by decide)]
    exact h.legacy

/-- A payload that is bound is not bound again. -/
theorem Bound.boundPayload (h : Bound payload) (controllerId : String) :
    Delivery.boundPayload controllerId payload = none := by
  have hcontroller : truthyValue
      (Fields.get? (Fields.erase payload "_local_image_path") "controller_id") = true := by
    rw [Fields.get?_erase_ne (by decide)]
    exact h.controller
  simp only [Delivery.boundPayload, h.legacy, Bool.false_and, Bool.false_eq_true, if_false,
    hcontroller, if_true]

theorem setDefault_of_isSome {value : Json} (h : (Fields.get? payload name).isSome = true) :
    setDefault payload name value = payload := if_pos h

/-- A bound payload is transmitted as it is. -/
theorem Bound.transmittedFields (h : Bound payload) :
    GateController.transmittedFields controllerId payload =
      Fields.erase payload "_local_image_path" := by
  have hthere : (Fields.get? (Fields.erase payload "_local_image_path") "controller_id").isSome =
      true := by
    rw [Fields.get?_erase_ne (by decide)]
    have hcontroller := h.controller
    cases hget : Fields.get? payload "controller_id" with
    | none =>
        rw [hget] at hcontroller
        cases hcontroller
    | some value => rfl
  simp only [GateController.transmittedFields, h.legacy, Bool.false_and, Bool.false_eq_true,
    if_false]
  exact setDefault_of_isSome hthere

/-- With its evidence, it only gains the image. -/
theorem Bound.get?_transmitted (h : Bound payload) {evidence : Option String}
    {transmitted : Fields}
    (hok : prepareOutboxPayload lib controllerId payload evidence = .ok transmitted)
    (himage : name ≠ "image") (hpath : name ≠ "_local_image_path") :
    Fields.get? transmitted name = Fields.get? payload name := by
  have hbase : Fields.get? (GateController.transmittedFields controllerId payload) name =
      Fields.get? payload name := by
    rw [h.transmittedFields, Fields.get?_erase_ne hpath]
  simp only [prepareOutboxPayload] at hok
  split at hok
  · split at hok
    · cases hok
    · split at hok
      · cases hok
      · cases hok
        rw [Fields.get?_set_ne himage, hbase]
  · cases hok
  · cases hok
  · cases hok
    exact hbase

/-- What a transmission says of the event is what the row says. -/
theorem Bound.transmission (h : Bound payload) (hc : content p = content payload)
    {evidence : Option String} {transmitted : Fields}
    (hok : prepareOutboxPayload lib controllerId p evidence = .ok transmitted) :
    outboxIdempotencyKey lib transmitted = outboxIdempotencyKey lib payload ∧
    ∀ name, name ≠ "telemetry" → name ≠ "schema_version" → name ≠ "image" →
      name ≠ "_local_image_path" → Fields.get? transmitted name = Fields.get? payload name := by
  have hsame : ∀ name, name ≠ "telemetry" → name ≠ "schema_version" → name ≠ "image" →
      name ≠ "_local_image_path" → Fields.get? transmitted name = Fields.get? payload name := by
    intro name htelemetry hversion himage hpath
    rw [(h.of_content hc).get?_transmitted hok himage hpath,
      get?_of_content_eq hc htelemetry hversion]
  refine ⟨?_, hsame⟩
  have hitem : ∀ name, name ≠ "telemetry" → name ≠ "schema_version" → name ≠ "image" →
      name ≠ "_local_image_path" → item transmitted name = item payload name := by
    intro name htelemetry hversion himage hpath
    rw [item, hsame name htelemetry hversion himage hpath, item]
  rw [outboxIdempotencyKey, hitem _ (by decide) (by decide) (by decide) (by decide),
    hitem _ (by decide) (by decide) (by decide) (by decide), outboxIdempotencyKey]

end Content

/-! ## What a worker binds -/

/-- The rows that a call has selected to bind. -/
abbrev BindWatch := Option (List (Nat × JsonText))

/-- A call binds what it has selected. -/
def bindWatch : Protocol DeliveryEff DeliveryEff.Ans Exc DeliveryCall BindWatch where
  start _ := none
  next s e r :=
    match e, r with
    | .pendingPayloads, .ok rows => some rows
    | _, _ => s
  allow s e :=
    match e with
    | .store (.rebindRows _ rows) => s = some rows
    | _ => True
  expect _ _ _ := True

/-- No call begins in the middle of a binding. -/
def Whole (_ : DeliveryWorld) : Choice DeliveryEnv DeliveryCall → Prop
  | .begin _ (.submit _ (.rebindRows _ _)) => False
  | _ => True

namespace OutboxWorker

variable {α : Type} {s : BindWatch}

/-- A call that binds nothing may do as it likes. -/
theorem obeys_unbinding {p : DeliveryProg α} (h : p.Only Unbinding) :
    Obeys bindWatch (fun _ _ => True) s p := by
  induction p generalizing s with
  | ret a => trivial
  | raise x => trivial
  | call e k ih =>
      refine ⟨?_, fun r _ => ih r (h.2 r)⟩
      cases e with
      | store op =>
          cases op with
          | rebindRows controllerId rows => cases h.1
          | _ => trivial
      | _ => trivial

theorem cleanup_unbinding (pending spooled : List String) :
    (cleanup pending spooled).Only Unbinding := by
  induction spooled with
  | nil => trivial
  | cons digest rest ih =>
      unfold cleanup
      split
      · exact ih
      · exact Prog.Only.bind (op_unbinding trivial) fun _ => ih

/-- A worker binds the rows that it has selected. -/
theorem construct_binds (cfg : DeliveryConfig) :
    Obeys bindWatch (fun _ _ => True) s (construct cfg) := by
  have htail : ∀ pending : List String, Prog.Only Unbinding (do
      let spooled ← op .spooled
      cleanup pending spooled) := fun pending =>
    Prog.Only.bind (op_unbinding trivial) fun spooled => cleanup_unbinding pending spooled
  have hrest : Prog.Only Unbinding (do
      let pending ← pendingEvidenceDigests
      let spooled ← op .spooled
      cleanup pending spooled) := by
    refine Prog.Only.bind ?_ htail
    refine Prog.Only.bind (op_unbinding trivial) fun _ => ?_
    exact Prog.Only.bind (op_unbinding trivial) fun _ => trivial
  unfold construct exceptException
  refine Obeys.bind (R := fun _ _ => True) (Obeys.attempt_iff.2 ?_) ?_ fun _ _ _ => trivial
  · refine Obeys.bind (R := fun s r => ∀ rows, r = .ok rows → s = some rows)
      (Obeys.perform trivial ?_) ?_ fun _ _ _ => trivial
    · rintro r - rows rfl
      rfl
    · intro s rows hrows
      refine Obeys.bind (R := fun _ _ => True) (Obeys.perform (hrows rows rfl) fun _ _ => trivial) ?_
        fun _ _ _ => trivial
      exact fun _ _ _ => (obeys_unbinding hrest).mono fun _ _ _ => trivial
  · intro s r _
    cases r with
    | ok u => trivial
    | error x =>
        dsimp only
        split <;> trivial

/-- Every call binds what it has selected, or selects and binds at once. -/
theorem program_binds (cfg : DeliveryConfig) {w : DeliveryWorld} {c : CallId}
    {call : DeliveryCall} (hok : Whole w (.begin c call)) :
    Obeys bindWatch (fun _ _ => True) none (program cfg call) := by
  cases call with
  | construct =>
      exact Obeys.bind (construct_binds cfg) (fun _ _ _ => trivial) fun _ _ _ => trivial
  | runOnce =>
      exact obeys_unbinding (Prog.Only.bind (runOnce_unbinding cfg) fun _ => trivial)
  | submit digest op =>
      have hop : ∀ s, bindWatch.allow s (.store op) := fun s => by
        cases op with
        | rebindRows controllerId rows => exact hok.elim
        | _ => trivial
      refine Obeys.bind (R := fun _ _ => True) ?_ (fun _ _ _ => trivial) fun _ _ _ => trivial
      refine Obeys.bind (R := fun _ _ => True) (obeys_unbinding ?_) (fun s _ _ => ?_)
        fun _ _ _ => trivial
      · cases digest with
        | none => trivial
        | some digest => exact op_unbinding trivial
      · exact Obeys.bind (R := fun _ _ => True) (Obeys.perform (hop s) fun _ _ => trivial)
          (fun _ _ _ => trivial) fun _ _ _ => trivial

end OutboxWorker

/-! ## The content of a row -/

/-- Until the row is completed, its payload is that of the same event. -/
def Keeping (id : Nat) (payload : Fields) (t : Tables) : Prop :=
  ∃ row, t.db.outbox.find? id = some row ∧ (row.completedAt = none →
    ∃ p, row.payload = .json (.obj p) ∧ content p = content payload)

section Rows

variable {id : Nat} {payload : Fields} {t : Tables} {op : DeliveryOp} {row row' : OutboxRow}

/-- What was selected of the row is its payload at some time. -/
def Selected (id : Nat) (payload : Fields) (rows : List (Nat × JsonText)) : Prop :=
  ∀ text, (id, text) ∈ rows → ∃ p, text = .json (.obj p) ∧ content p = content payload

/-- Every change of a row keeps its content, but for one that binds it. -/
theorem Delivery.RowChange.content {trace trace' : Option JsonText}
    (h : RowChange op id trace trace' row row') (hbound : Bound payload)
    (hrow : row.completedAt = none →
      ∃ p, row.payload = .json (.obj p) ∧ content p = content payload)
    (hselected : ∀ controllerId rows, op = .rebindRows controllerId rows →
      Selected id payload rows)
    (hpending : row'.completedAt = none) :
    ∃ p, row'.payload = .json (.obj p) ∧ GateController.content p = GateController.content payload := by
  cases h with
  | kept => exact hrow hpending
  | settled => exact hrow hpending
  | @traced p base telemetry state _ hwas hpayload hbase =>
      obtain ⟨q, hq, hcontent⟩ := hrow hwas
      cases hpayload.symm.trans hq
      refine ⟨_, rfl, ?_⟩
      rw [content_traced, hbase, hcontent]
  | @untraced p hwas hpayload =>
      obtain ⟨q, hq, hcontent⟩ := hrow hwas
      cases hpayload.symm.trans hq
      refine ⟨_, rfl, ?_⟩
      rw [content_untraced, hcontent]
  | completed => cases hpending
  | purged _ hdone => exact absurd hpending hdone
  | @bound p selected controllerId hop hbinds =>
      have hnot : GateController.content selected = GateController.content payload → False := by
        intro hcontent
        rw [(hbound.of_content hcontent).boundPayload] at hbinds
        cases hbinds
      cases op with
      | rebindRows c rows =>
          obtain ⟨-, text, hmem, hsource⟩ := hop
          obtain ⟨q, rfl, hcontent⟩ := hselected c rows rfl text hmem
          cases hsource
          exact (hnot hcontent).elim
      | bindPendingOutboxController c =>
          obtain ⟨-, hwas, hsource⟩ := hop
          obtain ⟨q, hq, hcontent⟩ := hrow hwas
          rw [hq] at hsource
          cases hsource
          exact (hnot hcontent).elim
      | _ => exact hop.elim

/-- No call of the store makes another event of the row. -/
theorem DeliveryOp.run_keeping {w : Weather} (h : Keeping id payload t) (hbound : Bound payload)
    (hselected : ∀ controllerId rows, op = .rebindRows controllerId rows →
      Selected id payload rows) : Keeping id payload (op.run w t).2 := by
  obtain ⟨row, hrow, hcontent⟩ := h
  cases hstore : op.isStore with
  | false =>
      obtain ⟨row', hrow', hchange⟩ := (DeliveryOp.run_evolves (w := w) hstore).row id row hrow
      exact ⟨row', hrow', hchange.content hbound hcontent hselected⟩
  | true =>
      cases op with
      | store op other =>
          obtain ⟨hstep, -⟩ := DeliveryOp.run_store (w := w) (t := t)
          rcases hstep.row id row hrow with hsame | ⟨-, -, hready⟩
          · exact ⟨row, hsame, hcontent⟩
          · exact ⟨_, hready, hcontent⟩
      | _ => cases hstore

/-- What is prepared for the row is the same event. -/
theorem prepared_content {w : Weather} {attemptedAt : DateTime} {p : Fields}
    (h : Keeping id payload t)
    (hrun : ((DeliveryOp.prepareOutboxAttempt id attemptedAt).run w t).1 = .ok (some p)) :
    content p = content payload := by
  obtain ⟨row, q, hrow, hpending, hpayload, hcontent⟩ :=
    (prepareOutboxAttempt_ensures id attemptedAt t w.faults).2 p hrun
  obtain ⟨row', hrow', hkept⟩ := h
  cases hrow.symm.trans hrow'
  obtain ⟨q', hq', hcontent'⟩ := hkept hpending
  cases hpayload.symm.trans hq'
  exact hcontent.trans hcontent'

/-- What is selected of the row is the same event. -/
theorem Keeping.selected (h : Keeping id payload t) : Selected id payload (pendingPayloads t) := by
  intro text hmem
  obtain ⟨row, hrow, hpending, rfl⟩ := mem_pendingPayloads hmem
  obtain ⟨row', hrow', hkept⟩ := h
  cases hrow.symm.trans hrow'
  exact hkept hpending

end Rows

/-! ## Runs -/

/-- The row is the same event, as far as the tables and the log go. -/
structure SameEvent (id : Nat) (payload : Fields) (st : DeliveryState) (log : DeliveryLog) :
    Prop where
  row : Keeping id payload st.tables
  prepared : ∀ c attemptedAt p,
    .did c (.store (.prepareOutboxAttempt id attemptedAt)) (.ok (some p)) ∈ log →
    content p = content payload
  selected : ∀ c rows, ghost (fun _ => bindWatch) c log = some (some rows) →
    Selected id payload rows

namespace SameEvent

variable {id : Nat} {payload : Fields} {st st' : DeliveryState} {log : DeliveryLog}
  {env : DeliveryEnv} {c : CallId}

theorem init (h : Keeping id payload st.tables) : SameEvent id payload st [] where
  row := h
  prepared _ _ _ hmem := by cases hmem
  selected _ _ hghost := by cases hghost

/-- Anything but an operation of a call. -/
theorem aside (h : SameEvent id payload st log) (htables : st'.tables = st.tables)
    {ev : Event DeliveryEff DeliveryEff.Ans Exc DeliveryCall DeliveryResult}
    (hev : ∀ c e r, ev ≠ .did c e r)
    (hghost : ∀ d rows, ghost (fun _ => bindWatch) d (ev :: log) = some (some rows) →
      ghost (fun _ => bindWatch) d log = some (some rows)) :
    SameEvent id payload st' (ev :: log) where
  row := htables ▸ h.row
  prepared c attemptedAt p hmem := by
    rcases List.mem_cons.1 hmem with heq | hmem
    · exact absurd heq.symm (hev _ _ _)
    · exact h.prepared c attemptedAt p hmem
  selected d rows hd := h.selected d rows (hghost d rows hd)

/-- An operation keeps the row what it is. -/
theorem did {e : DeliveryEff} {s : BindWatch} (h : SameEvent id payload st log)
    (hbound : Bound payload) (hghost : ghost (fun _ => bindWatch) c log = some s)
    (hallow : bindWatch.allow s e) :
    SameEvent id payload (exec env st e).2 (.did c e (exec env st e).1 :: log) where
  row := by
    rcases exec_tables env st e with ⟨op, rfl, htables⟩ | htables
    · rw [htables]
      refine DeliveryOp.run_keeping h.row hbound ?_
      rintro controllerId rows rfl
      exact h.selected c rows (hallow ▸ hghost)
    · rw [htables]
      exact h.row
  prepared d attemptedAt p hmem := by
    rcases List.mem_cons.1 hmem with heq | hmem
    · injection heq with hd he hr
      subst he
      exact prepared_content h.row (eq_of_heq hr).symm
    · exact h.prepared d attemptedAt p hmem
  selected d rows hd := by
    by_cases hdc : c = d
    · subst hdc
      rw [ghost_did_self hghost] at hd
      have hkept : s = some rows → Selected id payload rows := fun hs =>
        h.selected c rows (hs ▸ hghost)
      cases e with
      | pendingPayloads =>
          cases hr : (exec env st .pendingPayloads).1 with
          | error x =>
              rw [hr] at hd
              exact hkept (Option.some.inj hd)
          | ok answer =>
              rw [hr] at hd
              cases hd
              have hanswer : rows = pendingPayloads st.tables := by
                simp only [exec, OutboxWorker.selected] at hr
                split at hr <;> cases hr
                rfl
              rw [hanswer]
              exact h.row.selected
      | _ => exact hkept (Option.some.inj hd)
    · rw [ghost_did_ne hdc] at hd
      exact h.selected d rows hd

theorem invariant (cfg : DeliveryConfig) (id : Nat) (hbound : Bound payload) :
    Invariant (delivery cfg) (fun _ => bindWatch) (fun _ _ _ => True) Whole
      (SameEvent id payload) where
  obeys w c call s' _ hok _ := program_binds cfg hok
  began w c call s' _ h _ _ haccept := by
    refine h.aside ?_ (fun _ _ _ heq => by cases heq) fun d rows hd => ?_
    · exact accept_tables haccept
    · by_cases hdc : c = d
      · subst hdc
        rw [ghost_began_self] at hd
        cases hd
      · rwa [ghost_began_ne hdc] at hd
  did w c env e k s r s' _ h _ _ _ hghost hallow hexec := by
    obtain ⟨rfl, rfl⟩ : r = (exec env w.state e).1 ∧ s' = (exec env w.state e).2 := by
      rw [Option.some.inj hexec]
      exact ⟨rfl, rfl⟩
    exact ⟨trivial, h.did hbound hghost hallow⟩
  ended w c s r _ h _ _ _ := h.aside rfl (fun _ _ _ heq => by cases heq) fun _ _ hd => hd
  crashed w p env _ h _ := by
    have htables : ((delivery cfg).crash p env w.state).tables = w.state.tables := rfl
    exact h.aside htables (fun _ _ _ heq => by cases heq) fun _ _ hd => hd

end SameEvent

/-- While a row with a controller waits to be sent, its payload keeps what it says of the
event, whatever the calls around it do and fail to do.  Everything that is prepared and
transmitted for it says the same, under the same key. -/
theorem stable_identity (cfg : DeliveryConfig) (st : DeliveryState) (id : Nat) (row : OutboxRow)
    (payload : Fields) (hrow : st.tables.db.outbox.find? id = some row)
    (hpayload : row.payload = .json (.obj payload)) (hbound : Bound payload)
    (l : List (Choice DeliveryEnv DeliveryCall))
    (hok : (delivery cfg).Admits Whole (World.init st) l) :
    Keeping id payload ((delivery cfg).run (World.init st) l).state.tables ∧
    (∀ c attemptedAt p, .did c (.store (.prepareOutboxAttempt id attemptedAt)) (.ok (some p)) ∈
        ((delivery cfg).run (World.init st) l).log → content p = content payload) ∧
    ∀ c p evidence r earlier,
      .did c (.send p evidence) r :: earlier <:+ ((delivery cfg).run (World.init st) l).log →
      PreparedFor c id p earlier →
      ∀ lib controllerId transmitted,
        prepareOutboxPayload lib controllerId p evidence = .ok transmitted →
        outboxIdempotencyKey lib transmitted = outboxIdempotencyKey lib payload ∧
        ∀ name, name ≠ "telemetry" → name ≠ "schema_version" → name ≠ "image" →
          name ≠ "_local_image_path" →
          Fields.get? transmitted name = Fields.get? payload name := by
  obtain ⟨-, h⟩ := (SameEvent.invariant cfg id hbound).run (Sound.init _ _ st)
    (.init ⟨row, hrow, fun _ => ⟨payload, hpayload, rfl⟩⟩) hok
  refine ⟨h.row, h.prepared, ?_⟩
  intro c p evidence r earlier hmem hprepared lib controllerId transmitted htransmitted
  obtain ⟨since, attemptedAt, before, rfl, -⟩ := hprepared
  refine hbound.transmission (h.prepared c attemptedAt p ?_) htransmitted
  exact hmem.subset (List.mem_cons_of_mem _ (List.mem_append_right _ List.mem_cons_self))

/-! ### A row that is tried twice -/

namespace Retried

/-- What the worker puts over the event. -/
def supplied : Fields := [("controller_id", .str "primary")]

/-- One row that waits to be sent. -/
def start : DeliveryState where
  tables := ((DeliveryOp.store (.recordEventWithOutbox (Unreachable.event "a") (some supplied))
    rfl).run { now := datetimeMin } Tables.fresh).2

/-- `Whole`, computed. -/
def whole : Choice DeliveryEnv DeliveryCall → Bool
  | .begin _ (.submit _ (.rebindRows _ _)) => false
  | _ => true

theorem whole_of_check {ch : Choice DeliveryEnv DeliveryCall} (h : whole ch = true)
    (w : DeliveryWorld) : Whole w ch := by
  cases ch with
  | begin c call =>
      cases call with
      | submit digest op =>
          cases op with
          | rebindRows controllerId rows => cases h
          | _ => trivial
      | _ => trivial
  | _ => trivial

/-- A worker is constructed for another controller, fails to send the row, and sends it. -/
def twice : List (Choice DeliveryEnv DeliveryCall) :=
  .begin ⟨0, 0⟩ .construct :: List.replicate 6 (.step ⟨0, 0⟩ Reached.env) ++
  .begin ⟨0, 1⟩ .runOnce :: List.replicate 12 (.step ⟨0, 1⟩ Unreachable.env) ++
  .begin ⟨0, 2⟩ .runOnce :: List.replicate 12 (.step ⟨0, 2⟩ Reached.env)

/-- The row is attempted twice, and is the same event. -/
theorem stable_identity_twice :
    attempts ((delivery { controllerId := "other" }).run (World.init start) twice).log = [1, 1] ∧
    Keeping 1 (outboxPayload start.tables.db 1 supplied)
      ((delivery { controllerId := "other" }).run (World.init start) twice).state.tables :=
  ⟨by decide +kernel,
    (stable_identity { controllerId := "other" } start 1 _ _ rfl rfl ⟨by decide, rfl⟩ twice
      (Machine.admits_of_forall
        (fun ch hmem => whole_of_check (List.all_eq_true.1 (by decide) ch hmem)) _)).1⟩

end Retried

end GateController

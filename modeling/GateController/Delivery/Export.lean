import GateController.Delivery.Operations
import GateController.Data.Paging
import Mathlib.Data.Prod.Lex
import Mathlib.Data.String.Basic

/-!
# Exporting the traces

`event_telemetry_page` selects the traces of the events received since a time, in the order in
which they were received, a page at a time.  Events may be received at one time, so the id of
the event decides between them, both in the order and in where the next page begins.

`event_telemetry_rows` and `_snapshot_rows` read page after page.  The tables do not change
while they do.  `exportPages_eq` says that they return the rows of the query without pages.
-/

namespace GateController

open Data

namespace Delivery

/-- `_MAX_TELEMETRY_PAGE_SIZE`. -/
def maxTelemetryPageSize : Nat := 100

/-- `_EXPORT_PAGE_SIZE`. -/
def exportPageSize : Int := 100

/-- The limit of a page.  A limit that is no number is the largest one. -/
def boundedLimit : Option Int → Nat
  | none => maxTelemetryPageSize
  | some limit => (min (max limit 1) maxTelemetryPageSize).toNat

/-- A row of the join of the two tables, with the id of the event. -/
structure JoinedRow where
  id : Nat
  event : EventRow
  trace : TelemetryRow

/-- `event_telemetry AS t JOIN events AS e ON e.id = t.event_id`. -/
def joined (t : Tables) : List JoinedRow :=
  t.telemetry.rows.filterMap fun p =>
    (t.db.events.find? p.2.eventId).map fun event => ⟨p.2.eventId, event, p.2⟩

/-- `e.received_at, e.id`. -/
def JoinedRow.key (row : JoinedRow) : String ×ₗ Nat := toLex (row.event.receivedAt, row.id)

/-- A row as it is exported. -/
structure ExportRow where
  eventId : Nat
  receivedAt : String
  decisionAt : Option String
  relayActivatedAt : Option String
  source : String
  reason : String
  opened : Bool
  authorisedPlate : Option String
  observedPlate : Option String
  ocrConfidence : ℚ
  telemetryCreatedAt : String
  telemetry : Fields

/-- `_event_telemetry_export_row`. -/
def eventTelemetryExportRow (row : JoinedRow) : ExportRow where
  eventId := row.id
  receivedAt := row.event.receivedAt
  decisionAt := row.event.decisionAt
  relayActivatedAt := row.event.relayActivatedAt
  source := row.event.source
  reason := row.event.reason
  opened := row.event.opened
  authorisedPlate := row.event.authorisedPlate
  observedPlate := row.event.observedPlate
  ocrConfidence := row.event.ocrConfidence
  telemetryCreatedAt := row.trace.createdAt
  telemetry :=
    match loads row.trace.payload with
    | .ok (.obj telemetry) => telemetry
    | _ => []

/-- Where the next page begins. -/
def ExportRow.key (row : ExportRow) : String ×ₗ Nat := toLex (row.receivedAt, row.eventId)

/-- The keyset of a page.  It is left out on the first one. -/
def keyset (after : Option (String ×ₗ Nat)) (row : JoinedRow) : Bool :=
  match after with
  | none => true
  | some bound =>
      decide ((ofLex bound).1 < row.event.receivedAt ∨
        row.event.receivedAt = (ofLex bound).1 ∧ (ofLex bound).2 < row.id)

/-- `event_telemetry_page`. -/
def eventTelemetryPage (t : Tables) (since : DateTime) (limit : Option Int)
    (after : Option (String ×ₗ Nat)) : List ExportRow :=
  ((orderBy JoinedRow.key ((joined t).filter fun row =>
      decide (timestamp since ≤ row.event.receivedAt) && keyset after row)).take
    (boundedLimit limit)).map eventTelemetryExportRow

/-- The loop of `event_telemetry_rows` and of `_snapshot_rows`, for a number of pages. -/
def exportPages (t : Tables) (since : DateTime) (limit : Option Int) (fuel : Nat) :
    Option (List ExportRow) :=
  collectPages ExportRow.key (eventTelemetryPage t since limit) fuel none []

/-- `event_telemetry_rows`. -/
def eventTelemetryRows (t : Tables) (since : DateTime) (fuel : Nat) : Option (List ExportRow) :=
  exportPages t since (some maxTelemetryPageSize) fuel

/-- `_snapshot_rows`. -/
def snapshotRows (t : Tables) (since : DateTime) (fuel : Nat) : Option (List ExportRow) :=
  exportPages t since (some exportPageSize) fuel

/-- The query without pages. -/
def unpagedRows (t : Tables) (since : DateTime) : List ExportRow :=
  (orderBy JoinedRow.key ((joined t).filter fun row =>
    decide (timestamp since ≤ row.event.receivedAt))).map eventTelemetryExportRow

/-! ## The join -/

variable {t : Tables} {since : DateTime} {limit : Option Int}

theorem one_le_boundedLimit (limit : Option Int) : 1 ≤ boundedLimit limit := by
  cases limit with
  | none => decide
  | some limit =>
      rw [boundedLimit, maxTelemetryPageSize]
      omega

theorem joined_sublist (t : Tables) :
    ((joined t).map (·.id)).Sublist (t.telemetry.rows.map fun p => p.2.eventId) := by
  rw [joined]
  induction t.telemetry.rows with
  | nil => exact List.Sublist.refl _
  | cons p rows ih =>
      rw [List.filterMap_cons, List.map_cons]
      cases t.db.events.find? p.2.eventId with
      | none => exact ih.cons _
      | some event => exact ih.cons_cons _

/-- No event has two traces, so no event is joined twice. -/
theorem joined_ids_nodup (t : Tables) : ((joined t).map (·.id)).Nodup := by
  refine List.Nodup.sublist (joined_sublist t) ?_
  refine List.Nodup.map_on (fun p hp q hq heq => ?_) (List.Nodup.of_map _ t.telemetry.ids)
  have hid := t.telemetry.keys p hp q hq p.2.eventId rfl (congrArg some heq.symm)
  exact List.inj_on_of_nodup_map t.telemetry.ids hp hq hid

theorem joined_keys_nodup (t : Tables) : ((joined t).map JoinedRow.key).Nodup := by
  have hids := joined_ids_nodup t
  have hsecond : (joined t).map (·.id) =
      ((joined t).map JoinedRow.key).map fun key => (ofLex key).2 := by
    rw [List.map_map]
    rfl
  rw [hsecond] at hids
  exact List.Nodup.of_map _ hids

/-! ## The pages -/

/-- The keyset selects the rows that come after the last one. -/
theorem keyset_eq (after : Option (String ×ₗ Nat)) (row : JoinedRow) :
    keyset after row = isAfter after row.key := by
  cases after with
  | none => rfl
  | some bound =>
      refine decide_eq_decide.2 ?_
      rw [Prod.Lex.lt_iff]
      exact or_congr Iff.rfl (and_congr_left fun _ => eq_comm)

/-- The rows without pages increase, in the order of their times and of their ids. -/
theorem unpagedRows_pairwise (t : Tables) (since : DateTime) :
    (unpagedRows t since).Pairwise fun a b => a.key < b.key := by
  rw [unpagedRows, List.pairwise_map]
  exact orderBy_pairwise ((joined_keys_nodup t).sublist (List.filter_sublist.map _))

/-- They are the rows that were received since the time. -/
theorem unpagedRows_perm (t : Tables) (since : DateTime) :
    (unpagedRows t since).Perm (((joined t).filter fun row =>
      decide (timestamp since ≤ row.event.receivedAt)).map eventTelemetryExportRow) :=
  (orderBy_perm _ _).map _

/-- A page has the next rows of those without pages. -/
theorem eventTelemetryPage_eq (t : Tables) (since : DateTime) (limit : Option Int)
    (after : Option (String ×ₗ Nat)) :
    eventTelemetryPage t since limit after =
      ((unpagedRows t since).filter fun row => isAfter after row.key).take
        (boundedLimit limit) := by
  have hfilter : ((joined t).filter fun row =>
      decide (timestamp since ≤ row.event.receivedAt) && keyset after row) =
      ((joined t).filter fun row => decide (timestamp since ≤ row.event.receivedAt)).filter
        fun row => isAfter after row.key := by
    rw [List.filter_filter]
    refine List.filter_congr fun row _ => ?_
    rw [keyset_eq, Bool.and_comm]
  rw [eventTelemetryPage, hfilter, orderBy_filter, unpagedRows, List.filter_map, List.map_take]
  · rfl
  · exact (joined_keys_nodup t).sublist (List.filter_sublist.map _)

/-- Whatever the limit is, reading page after page ends, and returns the rows of the query
without pages: those received since the time, each once, in the order of their times and, of
those received at one time, of their ids. -/
theorem exportPages_eq (t : Tables) (since : DateTime) (limit : Option Int) :
    ∃ rows, (∃ pages, ∀ fuel, pages ≤ fuel → exportPages t since limit fuel = some rows ∧
        eventTelemetryRows t since fuel = some rows ∧ snapshotRows t since fuel = some rows) ∧
      rows = unpagedRows t since ∧
      rows.Perm (((joined t).filter fun row =>
        decide (timestamp since ≤ row.event.receivedAt)).map eventTelemetryExportRow) ∧
      rows.Pairwise (fun a b => a.receivedAt < b.receivedAt ∨
        a.receivedAt = b.receivedAt ∧ a.eventId < b.eventId) := by
  have hpages : ∀ limit fuel, (unpagedRows t since).length + 1 ≤ fuel →
      exportPages t since limit fuel = some (unpagedRows t since) := fun limit fuel hfuel =>
    collectPages_eq (unpagedRows_pairwise t since) (eventTelemetryPage_eq t since limit)
      (one_le_boundedLimit limit) hfuel
  refine ⟨unpagedRows t since, ⟨_, fun fuel hfuel => ⟨hpages limit fuel hfuel,
    hpages _ fuel hfuel, hpages _ fuel hfuel⟩⟩, rfl, unpagedRows_perm t since, ?_⟩
  exact (unpagedRows_pairwise t since).imp fun hlt => Prod.Lex.lt_iff.1 hlt

end Delivery

end GateController

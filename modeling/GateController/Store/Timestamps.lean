import GateController.Models
import GateController.Data.IsoOrder
import GateController.Data.Wall

/-!
# Timestamps as texts

The store keeps times as texts and leaves it to the database to compare them.  A time comes
in as it is written, with the offset of its own clock or with none, and is brought to UTC
before it is formatted.
-/

namespace GateController

open Data

/-- `_as_utc` of a time as it is written.  The instant may be outside the calendar, and
`astimezone` raises then. -/
def utcWall (value : Wall) : Option Wall :=
  match value.offset with
  | none => some { value with offset := some 0 }
  | some _ => value.instant.map fun utc => ⟨utc, some 0⟩

/-- `_timestamp` of a time as it is written. -/
def wallTimestamp (value : Wall) : Option String :=
  (utcWall value).map fun utc => utc.reading.isoformat

/-- A time that has an instant is that instant on a clock in UTC. -/
theorem utcWall_of_instant {value : Wall} {utc : Instant} (h : value.instant = some utc) :
    utcWall value = some ⟨utc, some 0⟩ := by
  obtain ⟨reading, offset⟩ := value
  cases offset with
  | none =>
      rw [Wall.instant_of_naive rfl] at h
      cases h
      rfl
  | some offset => exact Option.map_eq_some_iff.2 ⟨utc, h, rfl⟩

theorem wallTimestamp_of_instant {value : Wall} {utc : Instant} (h : value.instant = some utc) :
    wallTimestamp value = some utc.isoformat := by
  rw [wallTimestamp, utcWall_of_instant h]
  rfl

/-- Texts of times compare as the instants of the times do, and a text is read back as the
instant of its time.  The text of a time is that of the datetime it denotes. -/
theorem wallTimestamp_compare {a b : Wall} {ta tb : Instant} (ha : a.instant = some ta)
    (hb : b.instant = some tb) :
    ∃ s t, wallTimestamp a = some s ∧ wallTimestamp b = some t ∧
      compare s t = compare ta tb ∧ parseTimestamp s = ⟨ta, some 0⟩ ∧
      s = timestamp ⟨ta, a.offset⟩ := by
  refine ⟨ta.isoformat, tb.isoformat, wallTimestamp_of_instant ha, wallTimestamp_of_instant hb,
    compare_isoformat ta tb, ?_, rfl⟩
  exact parseTimestamp_timestamp ⟨ta, none⟩

/-- Two in the morning at an offset of an hour ahead, against half a second past one on a
naive clock. -/
theorem wallTimestamp_compare_offset :
    ∃ s t, wallTimestamp ⟨63900000000000000, some 3600000000⟩ = some s ∧
      wallTimestamp ⟨63899996400500000, none⟩ = some t ∧
      compare s t = compare (63899996400000000 : Instant) 63899996400500000 ∧
      parseTimestamp s = ⟨63899996400000000, some 0⟩ ∧
      s = timestamp ⟨63899996400000000, some 3600000000⟩ :=
  wallTimestamp_compare (by decide +kernel) (by decide +kernel)

end GateController

import GateController.Data.IsoTime

/-!
# Times on a wall clock

A time as it is written: a reading of the wall clock, and how far the clock is
ahead of UTC.  The reading is within the calendar.  The instant it denotes need
not be, at the ends of the calendar.
-/

namespace Data

/-- A time as it is written. -/
structure Wall where
  /-- The reading, in microseconds since the beginning of the calendar. -/
  reading : Instant
  /-- How far the clock is ahead of UTC, in microseconds.  A naive time has none. -/
  offset : Option Int
deriving DecidableEq

/-- The instant that the time denotes, if it is within the calendar.  A naive time is
taken to be in UTC. -/
def Wall.instant (w : Wall) : Option Instant := instantOf? (w.reading.val - w.offset.getD 0)

/-- A time in UTC denotes its reading. -/
theorem Wall.instant_of_naive {w : Wall} (h : w.offset = none) : w.instant = some w.reading := by
  rw [Wall.instant, h]
  exact instantOf?_val w.reading (by simp)

/-- `datetime.fromisoformat` on the forms that `isoformat` writes. -/
def readWall (text : String) : Option Wall := do
  let date ← takeDate text.toList
  let time ← takeTime (date.2.drop 1)
  let offset ← takeOffset time.2
  let reading ← instantOf? (date.1 * dayMicros + time.1)
  some ⟨reading, offset.map (· * 60000000)⟩

end Data

import Almanac.Calendar.Instant
import Almanac.Calendar.IsoText

/-!
# Calendar pages

A page shows the day, the week from Sunday to Saturday, the month or the year around an instant. Its
range is closed: it runs from the first instant of its first day to the last instant of its last
day.
-/

namespace Almanac

inductive View where
  | day
  | week
  | month
  | year
deriving DecidableEq, Repr

namespace View

def name : View → String
  | .day => "day"
  | .week => "week"
  | .month => "month"
  | .year => "year"

def ofValue (value : Value) : Except Error View :=
  match value with
  | .text "day" => .ok .day
  | .text "week" => .ok .week
  | .text "month" => .ok .month
  | .text "year" => .ok .year
  | _ => .error (.unknownView value)

@[simp] theorem ofValue_name (view : View) : ofValue (.text view.name) = .ok view := by
  cases view <;> rfl

def days (view : View) (date : Date) : Except Error (Date × Date) :=
  match view with
  | .day => .ok (date, date)
  | .week => do
      let sunday ← date.startOfWeek
      let saturday ← sunday.addDays 6
      return (sunday, saturday)
  | .month => do
      let last ← date.firstOfMonth.endOfMonth
      return (date.firstOfMonth, last)
  | .year => .ok (date.firstOfYear, date.lastOfYear)

end View

structure DateRange where
  start : Instant
  stop : Instant
deriving DecidableEq, Repr

namespace DateRange

def page (view : View) (anchor : TimePoint) : Except Error DateRange := do
  let date ← anchor.date
  let (first, last) ← view.days date
  return ⟨first.start, last.stop⟩

def days (range : DateRange) : Except Error Int := do
  let last ← Instant.date range.stop
  let first ← Instant.date range.start
  return last.dayNumber - first.dayNumber + 1

def holds (range : DateRange) (t : Instant) : Bool := range.start ≤ t && t ≤ range.stop

def contains (range : DateRange) (point : TimePoint) : Except Error Bool :=
  point.instant.map range.holds

def texts (range : DateRange) : Except Error (String × String) := do
  let start ← Instant.dateTime range.start
  let stop ← Instant.dateTime range.stop
  return (String.ofList start.text, String.ofList stop.text)

end DateRange

/-- A place in a month grid: the start of its day, or nothing where the month has no day. -/
structure GridCell where
  day : Option Instant
  inMonth : Bool
deriving DecidableEq, Repr

namespace GridCell

def padding : GridCell := ⟨none, false⟩

def ofDay (start : Instant) : GridCell := ⟨some start, true⟩

/-- Padding is added until the last row is full. -/
def fillRow (cells : List GridCell) : List GridCell :=
  if cells.length % 7 = 0 then cells else fillRow (cells ++ [padding])
termination_by (7 - cells.length % 7) % 7
decreasing_by
  rw [List.length_append, List.length_singleton]
  omega

end GridCell

/-- The days of the month around a point, in rows of seven from Sunday to Saturday, with padding
before the first and after the last. -/
def monthGrid (anchor : TimePoint) : Except Error (List GridCell) := do
  let date ← anchor.date
  let first := date.firstOfMonth
  let last ← first.endOfMonth
  let days ← first.startsOfDays last.day
  let leading := List.replicate first.weekday GridCell.padding
  return GridCell.fillRow (leading ++ days.map GridCell.ofDay)

end Almanac

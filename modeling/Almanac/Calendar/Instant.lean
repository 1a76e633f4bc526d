import Almanac.Calendar.DateTime
import Almanac.Value.Integer

/-!
# Instants

An instant is a number of milliseconds since 1970-01-01T00:00 of universal time, negative before it.
The calendar reaches from the first instant of the year 1 to the last one of the year 9999; outside
it an instant has no date. Operations also accept a `TimePoint`: a moment, or a stored value that
says how many milliseconds.
-/

namespace Almanac

/-- Milliseconds since 1970-01-01T00:00 of universal time. -/
abbrev Instant := Int

def dayMillis : Int := 86400000

def minuteMillis : Int := 60000

namespace Date

def start (date : Date) : Instant := DateTime.millis ⟨date, .midnight⟩

def stop (date : Date) : Instant := DateTime.millis ⟨date, .lastMillisecond⟩

/-- The starts of some days in a row, of which the date is the first. -/
def startsOfDays (first : Date) (count : Nat) : Except Error (List Instant) :=
  (List.range count).mapM fun (k : Nat) => (first.addDays k).map (·.start)

end Date

namespace Instant

def first : Instant := -62135596800000

def last : Instant := 253402300799999

def IsDated (t : Instant) : Prop := first ≤ t ∧ t ≤ last

instance (t : Instant) : Decidable (IsDated t) := inferInstanceAs (Decidable (_ ∧ _))

def dateTime (t : Instant) : Except Error DateTime := DateTime.ofMicros (t * 1000)

def date (t : Instant) : Except Error Date := (dateTime t).map (·.date)

def startOfDay (t : Instant) : Except Error Instant := (date t).map (·.start)

def endOfDay (t : Instant) : Except Error Instant := (date t).map (·.stop)

def addDays (t : Instant) (n : Int) : Except Error Instant := do
  let day ← date t
  let later ← day.addDays n
  return later.start

def addMonths (t : Instant) (n : Int) : Except Error Instant := do
  let day ← date t
  let later ← day.addMonths n
  return later.start

def addYears (t : Instant) (n : Int) : Except Error Instant := do
  let day ← date t
  let later ← day.addYears n
  return later.start

def startOfWeek (t : Instant) : Except Error Instant := do
  let day ← date t
  let sunday ← day.startOfWeek
  return sunday.start

end Instant

/-- The instant of a moment; a part of a millisecond is dropped, towards the past. -/
def Moment.instant (moment : Moment) : Instant := moment.micros / 1000

inductive TimePoint where
  | moment (m : Moment)
  | stored (value : Value)

namespace TimePoint

def ofInstant (t : Instant) : TimePoint := .stored (.int t)

def instant : TimePoint → Except Error Instant
  | .moment m => .ok m.instant
  | .stored value => value.toInteger

def date (point : TimePoint) : Except Error Date := do
  let t ← point.instant
  Instant.date t

@[simp] theorem instant_ofInstant (t : Instant) : (ofInstant t).instant = .ok t := rfl

@[simp] theorem date_ofInstant (t : Instant) : (ofInstant t).date = Instant.date t := rfl

end TimePoint

/-- The starts of the days from the day of one point through the day of another; none if the second
is the earlier one. -/
def listDays (start stop : TimePoint) : Except Error (List Instant) := do
  let first ← start.date
  let last ← stop.date
  first.startsOfDays (last.dayNumber - first.dayNumber + 1).toNat

end Almanac

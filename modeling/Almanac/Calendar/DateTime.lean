import Almanac.Calendar.Date

/-!
# Date and time

A `DateTime` is a date with a time of day, to the microsecond, in universal time. It is as good as a
number of microseconds since 1970. A `Moment` is a date and time on a clock that may run ahead of
universal time by a number of microseconds; the universal date and time of a moment may lie outside
the calendar.
-/

namespace Almanac

structure TimeOfDay where
  hour : Nat
  minute : Nat
  second : Nat
  microsecond : Nat
  hour_lt : hour < 24
  minute_lt : minute < 60
  second_lt : second < 60
  microsecond_lt : microsecond < 1000000
deriving DecidableEq, Repr

namespace TimeOfDay

def microsPerDay : Nat := 86400000000

def midnight : TimeOfDay := ⟨0, 0, 0, 0, by decide, by decide, by decide, by decide⟩

def lastMillisecond : TimeOfDay := ⟨23, 59, 59, 999000, by decide, by decide, by decide, by decide⟩

def micros (time : TimeOfDay) : Nat :=
  ((time.hour * 60 + time.minute) * 60 + time.second) * 1000000 + time.microsecond

def ofMicros (n : Nat) : TimeOfDay where
  hour := n / 3600000000 % 24
  minute := n / 60000000 % 60
  second := n / 1000000 % 60
  microsecond := n % 1000000
  hour_lt := Nat.mod_lt _ (by decide)
  minute_lt := Nat.mod_lt _ (by decide)
  second_lt := Nat.mod_lt _ (by decide)
  microsecond_lt := Nat.mod_lt _ (by decide)

theorem micros_lt (time : TimeOfDay) : time.micros < microsPerDay := by
  have := time.hour_lt
  have := time.minute_lt
  have := time.second_lt
  have := time.microsecond_lt
  simp only [micros, microsPerDay]
  omega

theorem micros_ofMicros {n : Nat} (h : n < microsPerDay) : (ofMicros n).micros = n := by
  simp only [microsPerDay] at h
  simp only [micros, ofMicros]
  omega

theorem ofMicros_micros (time : TimeOfDay) : ofMicros time.micros = time := by
  have := time.hour_lt
  have := time.minute_lt
  have := time.second_lt
  have := time.microsecond_lt
  cases time
  simp only [ofMicros, micros, TimeOfDay.mk.injEq] at *
  omega

end TimeOfDay

structure DateTime where
  date : Date
  time : TimeOfDay
deriving DecidableEq, Repr

namespace DateTime

def micros (dateTime : DateTime) : Int :=
  dateTime.date.dayNumber * TimeOfDay.microsPerDay + dateTime.time.micros

def ofMicros (n : Int) : Except Error DateTime :=
  match Date.ofDayNumber? (n / TimeOfDay.microsPerDay) with
  | some date => .ok ⟨date, TimeOfDay.ofMicros (n % TimeOfDay.microsPerDay).toNat⟩
  | none => .error .outsideCalendar

/-- Milliseconds since 1970-01-01T00:00; a part of one is dropped, towards the past. -/
def millis (dateTime : DateTime) : Int := dateTime.micros / 1000

end DateTime

structure Moment where
  shown : DateTime
  /-- By how many microseconds the clock is ahead of universal time; without it the clock shows
  universal time. -/
  ahead : Option Int
  ahead_lt : ∀ micros ∈ ahead, micros.natAbs < TimeOfDay.microsPerDay
deriving DecidableEq

namespace Moment

def micros (moment : Moment) : Int := moment.shown.micros - moment.ahead.getD 0

def universal (moment : Moment) : Except Error DateTime := DateTime.ofMicros moment.micros

def microsOfSeconds (seconds : Int) : Int := seconds * 1000000

/-- The moment at which a clock shows these fields that is ahead by a number of seconds. The clock
may be less than a day off. -/
def ofFields (year month day hour minute second microsecond : Int) (ahead : Option Int) :
    Except Error Moment :=
  let isTime := 0 ≤ hour ∧ hour < 24 ∧ 0 ≤ minute ∧ minute < 60 ∧ 0 ≤ second ∧ second < 60 ∧
    0 ≤ microsecond ∧ microsecond < 1000000
  match Date.ofFields? year month day with
  | none => .error .noSuchMoment
  | some date =>
      if isTime then
        let time := TimeOfDay.ofMicros
          (((hour * 60 + minute) * 60 + second) * 1000000 + microsecond).toNat
        if h : ∀ micros ∈ ahead.map microsOfSeconds, micros.natAbs < TimeOfDay.microsPerDay then
          .ok ⟨⟨date, time⟩, ahead.map microsOfSeconds, h⟩
        else .error .noSuchMoment
      else .error .noSuchMoment

end Moment

end Almanac

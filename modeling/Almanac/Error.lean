import Almanac.Cron.Fault
import Almanac.Value.Equality

/-!
# What can go wrong

Each way in which an operation of the library fails, by its cause. Failures that concern a job, a
range, a setting or a stored word have a message.
-/

namespace Almanac

open Almanac.Cron

inductive Error where
  | cron (error : ParseError)
  /-- A cron field holds a number of more digits than are ever read. -/
  | numeralTooLong
  | malformedInteger
  /-- A value of a kind that no integer can be made of. -/
  | notNumeric
  /-- A number without an integer part, or beyond every floating-point number. -/
  | unbounded
  /-- An undefined floating-point number where an integer is wanted. -/
  | undefinedNumber
  | outsideCalendar
  | noSuchYear
  /-- A month or year step to a year that does not fit in 32 bits. -/
  | yearTooWide
  | noSuchMoment
  | notARecord
  | missingId
  /-- A list whose items are no pairs of a name and a value, where a record is wanted. -/
  | notPairs
  /-- A value that can be neither a record nor a list of pairs. -/
  | notFields
  | notAKey
  /-- A value that is no text where a cron text is described. -/
  | notAText
  /-- A value that is no moment with date fields, where one is wanted. -/
  | notAMoment
  /-- A job holds something that is no schedule and cannot be stored. -/
  | noStoredForm
  | intervalMissing
  | instantMissing
  | unknownScheduleKind (given : Value)
  | unknownView (given : Value)
  | unsupportedSchedule (given : Value)
  | missingReference (jobId : Value)
  | rangeTooLarge (days : Int) (limit : Value)
  | negativeCacheSize
  | rangeLimitTooSmall
  /-- A setting of a kind that cannot be compared with a number. -/
  | notComparable
  | unknownSetting (name : String)
deriving DecidableEq

namespace Error

def noReference (jobId : String) : String :=
  s!"Job '{jobId}' has an interval schedule but no reference instant"

def tooManyDays (days limit : String) : String :=
  s!"Range of {days} days exceeds the limit of {limit} days"

def message? : Error → Option String
  | .cron error => some error.message
  | .intervalMissing => some "Interval schedule requires 'everyMs'"
  | .instantMissing => some "One-time schedule requires 'atMs'"
  | .unknownScheduleKind given => some s!"{given.toQuoted} is not a valid ScheduleType"
  | .unknownView given => some s!"{given.toQuoted} is not a valid CalendarView"
  | .unsupportedSchedule given => some s!"Unsupported schedule type: {given.kindName}"
  | .missingReference jobId => some (noReference jobId.toText)
  | .rangeTooLarge days limit => some (tooManyDays (toString days) limit.toText)
  | .negativeCacheSize => some "cron_cache_size must be non-negative"
  | .rangeLimitTooSmall => some "max_range_days must be at least 1"
  | _ => none

end Error

end Almanac

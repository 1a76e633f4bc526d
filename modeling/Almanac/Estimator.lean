import Almanac.Cached
import Almanac.Config
import Almanac.Job
import Almanac.Recurrence.Rounded

/-!
# Estimating runs

How often a job runs on a day, on each day of a range, and over a range. Days run from one universal
midnight to the next. A range includes the days of both ends and may not cover more days than the
configuration allows. Counts are natural numbers, unless a reference is a floating-point number.
-/

namespace Almanac

structure DayCount where
  day : Instant
  count : Count
deriving DecidableEq, Repr

namespace Estimator

open Cached

/-- The number on which an interval job is anchored on a day: its reference, or else the start of
the day, if the configuration lets it go without. -/
def anchor (config : Config) (job : Job) (date : Date) : Except Error Value :=
  if job.reference.isNull then
    if config.needsReference then .error (.missingReference job.id) else .ok (.int date.start)
  else .ok job.reference

def onDate (config : Config) (job : Job) (date : Date) : Cached Count :=
  match job.schedule with
  | .every period =>
      if period ≤ 0 then return .whole 0
      else do
        let reference ← ofResult (anchor config job date)
        ofResult (Recurrence.countFrom period reference date.start date.stop)
  | .once instant => return .whole (if date.start ≤ instant ∧ instant ≤ date.stop then 1 else 0)
  | .cron expr => do
      let expression ← Cached.expression expr
      return .whole (expression.countOn date)
  | .unsupported given => ofResult (.error (.unsupportedSchedule given))

/-- The runs of a job on the day of a point. A disabled job has none, whatever the point. -/
def onDay (config : Config) (job : Job) (point : TimePoint) : Cached Count :=
  if job.isEnabled then do
    let date ← ofResult point.date
    onDate config job date
  else return .whole 0

def daySpan (start stop : Instant) : Except Error Int := do
  let last ← Instant.startOfDay stop
  let first ← Instant.startOfDay start
  return (last - first) / dayMillis + 1

/-- The starts of the days of a range. The number of days is checked before they are listed, unless
the range ends before it starts. -/
def listedDays (config : Config) (start stop : Instant) : Except Error (List Instant) := do
  if start ≤ stop then
    let span ← daySpan start stop
    if config.dayLimit < span then throw (.rangeTooLarge span config.rangeLimit)
  listDays (.ofInstant start) (.ofInstant stop)

def perDay (config : Config) (job : Job) (start stop : TimePoint) : Cached (List DayCount) := do
  let first ← ofResult start.instant
  let last ← ofResult stop.instant
  let days ← ofResult (listedDays config first last)
  forEach (fun day => do
    let count ← onDay config job (.ofInstant day)
    return ⟨day, count⟩) days

def totalOf (counts : List DayCount) : Count := Count.sum (counts.map (·.count))

def total (config : Config) (job : Job) (start stop : TimePoint) : Cached Count := do
  let counts ← perDay config job start stop
  record (.totalled job.id (totalOf counts) counts.length)
  return totalOf counts

end Estimator

end Almanac

import Almanac.Estimator

/-!
# Calendar page data

A page shows the runs of several jobs over the range of a view. Each job has a row with its total,
or with the refusal of its cron text; each day has a row with the runs of all jobs that were
counted.
-/

namespace Almanac

structure JobRow where
  id : Value
  total : Count
  refusal : Option Cron.ParseError
deriving DecidableEq

structure DayRow where
  text : String
  day : Instant
  count : Count
deriving DecidableEq, Repr

structure Page where
  view : View
  range : DateRange
  days : List DayRow
  jobs : List JobRow
deriving DecidableEq

/-- The runs counted so far, with one entry for each day that was counted. -/
abbrev Tally := List DayCount

namespace Tally

def runsOn (day : Instant) : Tally → Count
  | [] => .whole 0
  | found :: rest => if found.day = day then found.count else runsOn day rest

/-- Further runs on a day. A day that was not counted before is added at the end. -/
def add (more : DayCount) : Tally → Tally
  | [] => [⟨more.day, (Count.whole 0).add more.count⟩]
  | found :: rest =>
      if found.day = more.day then ⟨found.day, found.count.add more.count⟩ :: rest
      else found :: add more rest

def ofCounts (counts : List DayCount) : Tally := counts.foldl (fun tally more => tally.add more) []

end Tally

namespace Page

open Cached

def total (page : Page) : Count := Count.sum (page.jobs.map (·.total))

/-- The row of a job and its counts. A job whose cron text is refused has no counts, which is
recorded. -/
def jobRow (config : Config) (range : DateRange) (job : Job) : Cached (JobRow × List DayCount) := do
  let counted ← catchRefusal
    (Estimator.perDay config job (.ofInstant range.start) (.ofInstant range.stop))
  match counted with
  | .ok counts => return (⟨job.id, Estimator.totalOf counts, none⟩, counts)
  | .error refusal => do
      record (.skipped job.id refusal)
      return (⟨job.id, .whole 0, some refusal⟩, [])

def dayRow (tally : Tally) (day : Instant) : Except Error DayRow :=
  (Instant.date day).map fun date => ⟨String.ofList date.text, day, tally.runsOn day⟩

def dayRows (tally : Tally) : List Instant → Except Error (List DayRow)
  | [] => .ok []
  | day :: rest => do
      let head ← dayRow tally day
      let tail ← dayRows tally rest
      return head :: tail

/-- The page of a view around an anchor. The view is looked at before the anchor, and both before
the jobs. -/
def build (config : Config) (jobs : List Job) (anchor : TimePoint) (view : Value) :
    Cached Page := do
  let view ← ofResult (View.ofValue view)
  let range ← ofResult (DateRange.page view anchor)
  let rows ← forEach (jobRow config range) jobs
  let days ← ofResult (listDays (.ofInstant range.start) (.ofInstant range.stop))
  let dayRows ← ofResult (dayRows (.ofCounts (rows.flatMap (·.2))) days)
  return ⟨view, range, dayRows, rows.map (·.1)⟩

end Page

end Almanac

import Almanac.Proofs.Cache.Transparency
import Almanac.Session

/-!
# Estimates without a cache

The estimates, pages and answers once more, as functions of configuration and request that read
every cron text anew. Each cached computation yields what its uncached counterpart gives, so that a
statement about results needs neither a cache nor a log.
-/

namespace Almanac.Uncached

open Almanac.Cron Cached

def onDate (config : Config) (job : Job) (date : Date) : Except Error Count :=
  match job.schedule with
  | .every period =>
      if period ≤ 0 then .ok (.whole 0)
      else do
        let reference ← Estimator.anchor config job date
        Recurrence.countFrom period reference date.start date.stop
  | .once instant => .ok (.whole (if date.start ≤ instant ∧ instant ≤ date.stop then 1 else 0))
  | .cron expr => do
      let expression ← Expression.ofKey expr
      return .whole (expression.countOn date)
  | .unsupported given => .error (.unsupportedSchedule given)

def onDay (config : Config) (job : Job) (point : TimePoint) : Except Error Count :=
  if job.isEnabled then do
    let date ← point.date
    onDate config job date
  else .ok (.whole 0)

def dayCount (config : Config) (job : Job) (day : Instant) : Except Error DayCount := do
  let count ← onDay config job (.ofInstant day)
  return ⟨day, count⟩

def perDay (config : Config) (job : Job) (start stop : TimePoint) :
    Except Error (List DayCount) := do
  let first ← start.instant
  let last ← stop.instant
  let days ← Estimator.listedDays config first last
  days.mapM (dayCount config job)

def total (config : Config) (job : Job) (start stop : TimePoint) : Except Error Count := do
  let counts ← perDay config job start stop
  return Estimator.totalOf counts

def jobRow (config : Config) (range : DateRange) (job : Job) :
    Except Error (JobRow × List DayCount) := do
  let counted ← caught (perDay config job (.ofInstant range.start) (.ofInstant range.stop))
  match counted with
  | .ok counts => return (⟨job.id, Estimator.totalOf counts, none⟩, counts)
  | .error refusal => return (⟨job.id, .whole 0, some refusal⟩, [])

def page (config : Config) (jobs : List Job) (anchor : TimePoint) (view : Value) :
    Except Error Page := do
  let view ← View.ofValue view
  let range ← DateRange.page view anchor
  let rows ← jobs.mapM (jobRow config range)
  let days ← listDays (.ofInstant range.start) (.ofInstant range.stop)
  let dayRows ← Page.dayRows (.ofCounts (rows.flatMap (·.2))) days
  return ⟨view, range, dayRows, rows.map (·.1)⟩

def respond (config : Config) : Except Error Request → Except Error Answer
  | .ok (.day job point) => (onDay config job point).map .count
  | .ok (.perDay job start stop) => (perDay config job start stop).map .counts
  | .ok (.total job start stop) => (total config job start stop).map .count
  | .ok (.page jobs anchor view) => (page config jobs anchor view).map .page
  | .ok (.expression text) => (Expression.ofKey text).map .expression
  | .ok .clear => .ok .cleared
  | .error error => .error error

/-! ## Cached computations yield them -/

variable (config : Config) (job : Job)

theorem yields_onDate (date : Date) :
    (Estimator.onDate config job date).Yields (onDate config job date) := by
  unfold Estimator.onDate onDate
  cases job.schedule with
  | every period =>
      by_cases hp : period ≤ 0
      · simp only [hp, if_true]
        exact yields_pure _
      · simp only [hp, if_false]
        exact (yields_ofResult _).bind fun reference => yields_ofResult _
  | once instant => exact yields_pure _
  | cron expr => exact (yields_expression expr).bind fun expression => yields_pure _
  | unsupported given => exact yields_ofResult _

theorem yields_onDay (point : TimePoint) :
    (Estimator.onDay config job point).Yields (onDay config job point) := by
  unfold Estimator.onDay onDay
  by_cases he : job.isEnabled = true
  · simp only [he, if_true]
    exact (yields_ofResult _).bind fun date => yields_onDate config job date
  · simp only [he]
    exact yields_pure _

theorem yields_perDay (start stop : TimePoint) :
    (Estimator.perDay config job start stop).Yields (perDay config job start stop) := by
  refine (yields_ofResult _).bind fun first => (yields_ofResult _).bind fun last => ?_
  refine (yields_ofResult _).bind fun days => Yields.forEach (fun day => ?_) days
  exact (yields_onDay config job (.ofInstant day)).bind fun count => yields_pure _

theorem yields_total (start stop : TimePoint) :
    (Estimator.total config job start stop).Yields (total config job start stop) := by
  refine (yields_perDay config job start stop).bind fun counts => ?_
  exact (yields_record _).bind fun _ => yields_pure _

theorem yields_jobRow (range : DateRange) :
    (Page.jobRow config range job).Yields (jobRow config range job) := by
  refine (yields_perDay config job _ _).catchRefusal.bind fun counted => ?_
  cases counted with
  | ok counts => exact yields_pure _
  | error refusal => exact (yields_record _).bind fun _ => yields_pure _

theorem yields_page (jobs : List Job) (anchor : TimePoint) (view : Value) :
    (Page.build config jobs anchor view).Yields (page config jobs anchor view) := by
  refine (yields_ofResult _).bind fun view => (yields_ofResult _).bind fun range => ?_
  refine (Yields.forEach (fun job => yields_jobRow config job range) jobs).bind fun rows => ?_
  exact (yields_ofResult _).bind fun days => (yields_ofResult _).bind fun dayRows => yields_pure _

theorem yields_respond (request : Except Error Request) :
    (Session.respond config request).Yields (respond config request) := by
  cases request with
  | error error => exact yields_ofResult _
  | ok request =>
      cases request with
      | day job point => exact (yields_onDay config job point).map _
      | perDay job start stop => exact (yields_perDay config job start stop).map _
      | total job start stop => exact (yields_total config job start stop).map _
      | page jobs anchor view => exact (yields_page config jobs anchor view).map _
      | expression text => exact (yields_expression text).map _
      | clear => exact yields_clear.map _

end Almanac.Uncached

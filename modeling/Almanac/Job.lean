import Almanac.Schedule
import Almanac.Value.Pairs

/-!
# Jobs

A job has an identifier, a schedule, and a switch. An interval job may be anchored on a reference
instant. A job keeps identifier, switch and reference as they were given. In a stored record the
times of the next and last run stand at top level or under `state`; they serve as the reference of
an interval job and as the instant of a one-time job that has none. A job that was read from a
record has a text as its identifier, and an integer or nothing as its reference.
-/

namespace Almanac

structure Job where
  id : Value
  /-- A job is switched on if this counts as true. -/
  enabled : Value
  schedule : Schedule
  reference : Value
deriving DecidableEq

namespace Job

def isEnabled (job : Job) : Bool := job.enabled.isTrue

/-- The record under `state`. What does not count as true is an empty record. -/
def stateOf (fields : Fields) : Except Error Fields :=
  let state := fields.get "state"
  if !state.isTrue then .ok []
  else
    match state with
    | .record state => .ok state
    | _ => .error .notARecord

/-- A run time at top level, even a null one, hides the one under `state`. -/
def runTime (name : String) (fields state : Fields) : Value :=
  (fields.find? name).getD (state.get name)

def firstPresent (first second : Value) : Value := if first.isNull then second else first

def withInstant (schedule : Fields) (nextRun lastRun : Value) : Fields :=
  if schedule.get "kind" = .text ScheduleKind.once.name ∧ (schedule.get "atMs").isNull then
    schedule.set "atMs" (firstPresent nextRun lastRun)
  else schedule

/-- An interval job without a reference instant is anchored on its next run, or one interval after
its last. -/
def anchor (schedule : Schedule) (reference nextRun lastRun : Value) : Except Error Value :=
  match schedule with
  | .every period =>
      if !reference.isNull then .ok reference
      else if !nextRun.isNull then .ok nextRun
      else if !lastRun.isNull then lastRun.plus period
      else .ok .null
  | _ => .ok reference

def referenceOf (value : Value) : Except Error Value :=
  if value.isNull then .ok .null else value.toInteger.map .int

def ofFields (fields : Fields) : Except Error Job := do
  let state ← stateOf fields
  let nextRun := runTime "nextRunAtMs" fields state
  let lastRun := runTime "lastRunAtMs" fields state
  let given ← Fields.ofValue (fields.get "schedule")
  let schedule ← Schedule.ofFields (withInstant given nextRun lastRun)
  let reference ← anchor schedule (fields.get "referenceInstantMs") nextRun lastRun
  let id ←
    match fields.find? "id" with
    | some id => .ok (.text id.toText)
    | none => .error .missingId
  let reference ← referenceOf reference
  return ⟨id, (fields.find? "enabled").getD (.bool true), schedule, reference⟩

def ofValue : Value → Except Error Job
  | .record fields => ofFields fields
  | _ => .error .notARecord

def stored (job : Job) : Except Error Fields := do
  let schedule ← job.schedule.stored
  return [("id", job.id), ("enabled", job.enabled), ("schedule", .record schedule),
    ("referenceInstantMs", job.reference)]

/-- Whether two jobs are the same, where references may be numbers of different kinds. -/
def agrees (a b : Job) : Bool :=
  a.id = b.id && a.enabled = b.enabled && a.schedule = b.schedule && a.reference.agrees b.reference

def survivesStorage (job : Job) : Except Error Bool := do
  let fields ← job.stored
  let read ← ofFields fields
  return read.agrees job

@[simp] theorem agrees_self (job : Job) : job.agrees job = true := by simp [agrees]

end Job

end Almanac

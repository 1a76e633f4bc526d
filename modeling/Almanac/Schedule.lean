import Almanac.Calendar.Instant

/-!
# Schedules

A schedule fires at regular intervals, once, or by a cron text, which is kept as stored and read
only when firings are counted. Schedules are stored as records with a `kind`; a record that is read
and written again is read as the same schedule (`ofFields_stored`).
-/

namespace Almanac

inductive ScheduleKind where
  | every
  | once
  | cron
deriving DecidableEq, Repr

namespace ScheduleKind

def name : ScheduleKind → String
  | .every => "every"
  | .once => "at"
  | .cron => "cron"

def ofValue (value : Value) : Except Error ScheduleKind :=
  match value with
  | .text "every" => .ok .every
  | .text "at" => .ok .once
  | .text "cron" => .ok .cron
  | _ => .error (.unknownScheduleKind value)

@[simp] theorem ofValue_name (kind : ScheduleKind) : ofValue (.text kind.name) = .ok kind := by
  cases kind <;> rfl

end ScheduleKind

inductive Schedule where
  /-- Fires at the reference instant and every `period` milliseconds before and after it; never if
  the period is not positive. -/
  | every (period : Int)
  | once (instant : Instant)
  | cron (expr : Value)
  /-- Something that a job holds in place of a schedule. -/
  | unsupported (given : Value)
deriving DecidableEq

namespace Schedule

def kind? : Schedule → Option ScheduleKind
  | .every _ => some .every
  | .once _ => some .once
  | .cron _ => some .cron
  | .unsupported _ => none

def required (value : Value) (missing : Error) : Except Error Int :=
  if value.isNull then .error missing else value.toInteger

/-- The cron text of a record; what does not count as true is the empty text. -/
def cronText (value : Value) : Value := if value.isTrue then value else .text ""

def ofFields (fields : Fields) : Except Error Schedule := do
  let kind ← ScheduleKind.ofValue (fields.get "kind")
  match kind with
  | .every => (required (fields.get "everyMs") .intervalMissing).map .every
  | .once => (required (fields.get "atMs") .instantMissing).map .once
  | .cron => return .cron (cronText (fields.get "expr"))

def ofValue : Value → Except Error Schedule
  | .record fields => ofFields fields
  | _ => .error .notARecord

def stored : Schedule → Except Error Fields
  | .every period => .ok [("kind", .text ScheduleKind.every.name), ("everyMs", .int period)]
  | .once instant => .ok [("kind", .text ScheduleKind.once.name), ("atMs", .int instant)]
  | .cron expr => .ok [("kind", .text ScheduleKind.cron.name), ("expr", expr)]
  | .unsupported _ => .error .noStoredForm

def IsStorable : Schedule → Prop
  | .cron expr => expr = .text "" ∨ expr.isTrue = true
  | .unsupported _ => False
  | _ => True

theorem cronText_of_isTrue {value : Value} (h : value.isTrue = true) : cronText value = value := by
  simp [cronText, h]

theorem cronText_eq (value : Value) :
    cronText value = .text "" ∨ (cronText value).isTrue = true := by
  by_cases h : value.isTrue = true
  · exact .inr (by rw [cronText_of_isTrue h]; exact h)
  · exact .inl (by simp [cronText, h])

end Schedule

end Almanac

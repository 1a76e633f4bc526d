import Almanac.Calendar.View
import Almanac.Cron.Reader

/-!
# Cron expressions

An expression has five fields and keeps the words of its text. It matches a minute when minute, hour
and month are allowed and the day rule holds: if neither the days of the month nor the weekdays are
a wildcard, one of the two must allow the day, else both must. A day's firings are its matching
minutes.
-/

namespace Almanac.Cron

open Almanac.Text

structure Expression where
  /-- The five words with single spaces between them. -/
  text : String
  minute : Field
  hour : Field
  dayOfMonth : Field
  month : Field
  dayOfWeek : Field
deriving DecidableEq, Repr

namespace Expression

def field (kind : FieldKind) (word : List Char) : Except Refusal Field :=
  (Reader.pattern kind word).map (·.field kind)

def ofWords (text : String) (minute hour dayOfMonth month dayOfWeek : List Char) :
    Except Refusal Expression := do
  let minute ← field .minute minute
  let hour ← field .hour hour
  let dayOfMonth ← field .dayOfMonth dayOfMonth
  let month ← field .month month
  let dayOfWeek ← field .dayOfWeek dayOfWeek
  return ⟨text, minute, hour, dayOfMonth, month, dayOfWeek⟩

/-- The expression that a text writes. A blank text is refused as it stands, any other with its
words joined by single spaces. -/
def ofText (given : String) : Except Error Expression :=
  let text := String.ofList (normalized given.toList)
  match words given.toList with
  | [] => .error (.cron ⟨given, .blank⟩)
  | [minute, hour, dayOfMonth, month, dayOfWeek] =>
      (ofWords text minute hour dayOfMonth month dayOfWeek).mapError (·.error text)
  | parts => .error (.cron ⟨text, .fieldCount parts.length⟩)

def ofValue : Value → Except Error Expression
  | .text given => ofText given
  | value => .error (.cron ⟨value.toText, .blank⟩)

/-- How an expression is shown in diagnostics. Its text is not escaped. -/
def diagnostic (expression : Expression) : String := s!"CronExpression('{expression.text}')"

def sameText (a b : Expression) : Bool := a.text == b.text

def hashBy (hash : String → Int) (expression : Expression) : Int := hash expression.text

def allowsDay (expression : Expression) (dayOfMonth dayOfWeek : Int) : Bool :=
  if !expression.dayOfMonth.isWildcard && !expression.dayOfWeek.isWildcard then
    expression.dayOfMonth.allows dayOfMonth || expression.dayOfWeek.allows dayOfWeek
  else if !expression.dayOfMonth.isWildcard then expression.dayOfMonth.allows dayOfMonth
  else if !expression.dayOfWeek.isWildcard then expression.dayOfWeek.allows dayOfWeek
  else true

/-- Whether the expression matches a minute with these fields, where Sunday is weekday zero. -/
def allows (expression : Expression) (minute hour dayOfMonth month dayOfWeek : Int) : Bool :=
  expression.minute.allows minute && expression.hour.allows hour && expression.month.allows month &&
    expression.allowsDay dayOfMonth dayOfWeek

def allowsDateTime (expression : Expression) (dateTime : DateTime) : Bool :=
  expression.allows dateTime.time.minute dateTime.time.hour dateTime.date.day dateTime.date.month
    dateTime.date.weekday

def allowsMoment (expression : Expression) (moment : Moment) : Except Error Bool :=
  moment.universal.map expression.allowsDateTime

def allowsPoint (expression : Expression) : TimePoint → Except Error Bool
  | .moment m => expression.allowsMoment m
  | .stored _ => .error .notAMoment

def minutesPerDay : Nat := 1440

/-- The minutes since midnight at which the expression fires on a day, out of all its minutes in
order. -/
def minutesOn (expression : Expression) (date : Date) : List Nat :=
  let weekday := date.weekday
  (List.range minutesPerDay).filter fun (k : Nat) =>
    expression.allows (k % 60 : Nat) (k / 60 : Nat) date.day date.month weekday

def countOn (expression : Expression) (date : Date) : Nat := (expression.minutesOn date).length

def firingsOn (expression : Expression) (date : Date) : List Instant :=
  (expression.minutesOn date).map fun (k : Nat) => date.start + k * minuteMillis

def firings (expression : Expression) (point : TimePoint) : Except Error (List Instant) :=
  point.date.map expression.firingsOn

def count (expression : Expression) (point : TimePoint) : Except Error Nat :=
  point.date.map expression.countOn

@[simp] theorem length_firingsOn (expression : Expression) (date : Date) :
    (expression.firingsOn date).length = expression.countOn date := by
  simp [firingsOn, countOn]

end Expression

end Almanac.Cron

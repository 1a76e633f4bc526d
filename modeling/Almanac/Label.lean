import Almanac.Schedule
import Almanac.Text.Pieces

/-!
# Labels

Short texts for schedules and counts. Intervals are shown in the largest unit that does not exceed
them, to six significant digits. A few shapes of cron text have a label of their own, and every
other text is its own label. One-time schedules show their minute in universal time.
-/

namespace Almanac.Label

open Almanac.Text

/-- Six digits at most; from a million on with an exponent, and without a zero fraction. -/
def quantityLayout : Decimal.Layout := ⟨6, false⟩

def quantity (num den : Nat) : Except Error (List Char) :=
  match Binary64.ofQuotient false num den with
  | .finite _ mantissa exponent =>
      let (num, den) := Binary64.magnitude mantissa exponent
      .ok (quantityLayout.write (Decimal.significant 6 num den))
  | _ => .error .unbounded

/-- The unit in which an interval is shown, in milliseconds, and what follows the number. -/
def unitOf (period : Nat) : Nat × String :=
  if period < 60000 then (1000, "s")
  else if period < 3600000 then (60000, " min")
  else if period < 86400000 then (3600000, "h")
  else (86400000, "d")

def interval (period : Int) : Except Error String :=
  if period ≤ 0 then .ok "Interval unknown"
  else
    let (size, suffix) := unitOf period.toNat
    (quantity period.toNat size).map fun number => "Every " ++ String.ofList number ++ suffix

/-- The number that figures write. Figures that are no decimal digits write none. -/
def figures (text : List Char) : Except Error Nat :=
  match natural? text with
  | some n => .ok n
  | none => .error .malformedInteger

def stepText : List Char → List Char
  | '*' :: '/' :: rest => rest
  | _ => []

def hourly (minute : List Char) : Except Error (Option String) :=
  if isFigures (stepText minute) then
    (figures (stepText minute)).map fun n => some s!"Every {n} min"
  else if minute.contains ',' then
    let times := (pieces (· == ',') minute).length
    .ok (some s!"{times}× per hour")
  else if isFigures minute then
    (figures minute).map fun n => some ("Hourly at :" ++ String.ofList (padded 2 n))
  else .ok none

def clock (hour minute : Nat) : String :=
  let shown := if hour % 12 = 0 then 12 else hour % 12
  let half := if hour < 12 then "AM" else "PM"
  let minuteText := String.ofList (padded 2 minute)
  s!"{shown}:{minuteText} {half}"

/-- The names of weekdays from zero; seven is Sunday again. -/
def weekdayNames : List String := ["Sun", "Mon", "Tue", "Wed", "Thu", "Fri", "Sat", "Sun"]

def timed (minute hour dayOfMonth month dayOfWeek : List Char) : Except Error (Option String) :=
  if isFigures minute && isFigures hour then do
    let h ← figures hour
    if h < 24 then
      let m ← figures minute
      if dayOfMonth = ['*'] ∧ month = ['*'] then
        if dayOfWeek = ['*'] then return some s!"Daily {clock h m}"
        else if isFigures dayOfWeek then
          let day ← figures dayOfWeek
          return weekdayNames[day]?.map fun name => s!"Weekly on {name} {clock h m}"
        else return none
      else return none
    else return none
  else .ok none

def shaped (minute hour dayOfMonth month dayOfWeek : List Char) : Except Error (Option String) := do
  let everyHour := hour = ['*'] ∧ dayOfMonth = ['*'] ∧ month = ['*'] ∧ dayOfWeek = ['*']
  let label ← if everyHour then hourly minute else .ok none
  match label with
  | some label => return some label
  | none => timed minute hour dayOfMonth month dayOfWeek

def cronText (text : String) : Except Error String :=
  match words text.toList with
  | [minute, hour, dayOfMonth, month, dayOfWeek] =>
      (shaped minute hour dayOfMonth month dayOfWeek).map (·.getD text)
  | _ => .ok text

def cron : Value → Except Error String
  | .text text => cronText text
  | _ => .error .notAText

/-- The minute of an instant. The year has no leading zeros. -/
def instant (t : Instant) : Except Error String :=
  (Instant.dateTime t).map fun dateTime =>
    String.ofList (decimal dateTime.date.year ++ '-' :: fixed 2 dateTime.date.month ++
      '-' :: fixed 2 dateTime.date.day ++ ' ' :: fixed 2 dateTime.time.hour ++
      ':' :: fixed 2 dateTime.time.minute ++ " UTC".toList)

def schedule : Schedule → Except Error String
  | .every period => interval period
  | .once t => instant t
  | .cron expr => cron expr
  | .unsupported _ => .ok "Unknown"

/-- The label of a calendar cell: empty when nothing runs. -/
def count (n : Int) : String :=
  if n ≤ 0 then "" else if n = 1 then "1 run" else s!"{n} runs"

end Almanac.Label

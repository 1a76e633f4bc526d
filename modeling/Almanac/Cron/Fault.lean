/-!
# Faults of cron text

The five fields of a cron expression, the numbers that each accepts, and what can be wrong with a
text that should be one. A fault belongs to one field, except that a text may be blank or have the
wrong number of fields. `refusal` words a fault.
-/

namespace Almanac.Cron

inductive FieldKind where
  | minute
  | hour
  | dayOfMonth
  | month
  | dayOfWeek
deriving DecidableEq, Repr

namespace FieldKind

def label : FieldKind → String
  | .minute => "minute"
  | .hour => "hour"
  | .dayOfMonth => "day_of_month"
  | .month => "month"
  | .dayOfWeek => "day_of_week"

def low : FieldKind → Nat
  | .dayOfMonth => 1
  | .month => 1
  | _ => 0

def high : FieldKind → Nat
  | .minute => 59
  | .hour => 23
  | .dayOfMonth => 31
  | .month => 12
  | .dayOfWeek => 7

/-- Where steps without an upper end stop. Seven is only another name of Sunday, so it is not
reached. -/
def stepHigh : FieldKind → Nat
  | .dayOfWeek => 6
  | kind => kind.high

end FieldKind

inductive Fault where
  | blank
  | fieldCount (count : Nat)
  | notANumber (kind : FieldKind) (text : String)
  | outOfRange (kind : FieldKind) (value : Nat)
  | emptyItem (kind : FieldKind) (field : String)
  | zeroStep (kind : FieldKind)
  | reversed (kind : FieldKind) (range : String)
deriving DecidableEq, Repr

namespace Fault

def kind? : Fault → Option FieldKind
  | .blank => none
  | .fieldCount _ => none
  | .notANumber kind _ => some kind
  | .outOfRange kind _ => some kind
  | .emptyItem kind _ => some kind
  | .zeroStep kind => some kind
  | .reversed kind _ => some kind

def reason : Fault → String
  | .blank => "expression is empty"
  | .fieldCount count => s!"expected 5 fields (minute hour day month weekday), got {count}"
  | .notANumber _ text => s!"'{text}' is not a number"
  | .outOfRange kind value => s!"value {value} out of range [{kind.low}, {kind.high}]"
  | .emptyItem _ field => s!"empty list item in '{field}'"
  | .zeroStep _ => "step must be positive, got 0"
  | .reversed _ range => s!"invalid range {range} (start > end)"

end Fault

def refusal (expression reason : String) (field : Option String) : String :=
  match field with
  | none | some "" => s!"Invalid cron expression '{expression}': {reason}"
  | some field => s!"Invalid cron expression '{expression}' ({field}): {reason}"

/-- A refused text, with its words joined by single spaces, and what is wrong with it. -/
structure ParseError where
  expression : String
  fault : Fault
deriving DecidableEq, Repr

namespace ParseError

def field? (error : ParseError) : Option String := error.fault.kind?.map (·.label)

def message (error : ParseError) : String :=
  refusal error.expression error.fault.reason error.field?

end ParseError

end Almanac.Cron

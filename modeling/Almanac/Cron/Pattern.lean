import Almanac.Cron.Fault
import Almanac.Text.Numeral

/-!
# Field patterns

The text of a cron field is a pattern: the asterisk, or a list of items. An item covers some of the
numbers of its field, and the values of a pattern are the numbers that an item covers. On the field
of weekdays seven is a second name of Sunday. `Pattern.text` writes a pattern.
-/

namespace Almanac.Cron

open Almanac.Text

inductive Item where
  /-- `n` -/
  | single (n : Nat)
  /-- `a-b` -/
  | span (a b : Nat)
  /-- `*/s` -/
  | stepped (step : Nat)
  /-- `n/s` -/
  | onward (n step : Nat)
  /-- `a-b/s` -/
  | spanStepped (a b step : Nat)
deriving DecidableEq, Repr

namespace Item

def reaches (first last step n : Nat) : Bool := first ≤ n && n ≤ last && (n - first) % step == 0

def covers (kind : FieldKind) : Item → Nat → Bool
  | .single m, n => n = m
  | .span a b, n => a ≤ n && n ≤ b
  | .stepped step, n => reaches kind.low kind.stepHigh step n
  | .onward m step, n => reaches m kind.stepHigh step n
  | .spanStepped a b step, n => reaches a b step n

def text : Item → List Char
  | .single n => decimal n
  | .span a b => decimal a ++ '-' :: decimal b
  | .stepped step => '*' :: '/' :: decimal step
  | .onward n step => decimal n ++ '/' :: decimal step
  | .spanStepped a b step => decimal a ++ '-' :: decimal b ++ '/' :: decimal step

/-- The numbers of an item are accepted by the field, ranges ascend, and steps are positive. -/
def IsValid (kind : FieldKind) : Item → Prop
  | .single n => kind.low ≤ n ∧ n ≤ kind.high
  | .span a b => kind.low ≤ a ∧ a ≤ b ∧ b ≤ kind.high
  | .stepped step => 1 ≤ step
  | .onward n step => (kind.low ≤ n ∧ n ≤ kind.high) ∧ 1 ≤ step
  | .spanStepped a b step => (kind.low ≤ a ∧ a ≤ b ∧ b ≤ kind.high) ∧ 1 ≤ step

instance (kind : FieldKind) (item : Item) : Decidable (item.IsValid kind) := by
  cases item <;> unfold IsValid <;> infer_instance

end Item

/-- The numbers that a field allows, ascending, and whether its text is the asterisk alone. -/
structure Field where
  values : List Nat
  isWildcard : Bool
deriving DecidableEq, Repr

namespace Field

def allows (field : Field) (n : Int) : Bool := field.values.any fun value => (value : Int) == n

end Field

inductive Pattern where
  | any
  | list (items : List Item)
deriving DecidableEq, Repr

namespace Pattern

def accepted (kind : FieldKind) : List Nat := List.range' kind.low (kind.high + 1 - kind.low)

def covered (kind : FieldKind) : Pattern → List Nat
  | .any => accepted kind
  | .list items => (accepted kind).filter fun n => items.any fun item => item.covers kind n

def foldSunday (values : List Nat) : List Nat :=
  (List.range 7).filter fun n => values.contains n || (n == 0 && values.contains 7)

def field (kind : FieldKind) (pattern : Pattern) : Field where
  values := if kind = .dayOfWeek then foldSunday (pattern.covered kind) else pattern.covered kind
  isWildcard := pattern = .any

def text : Pattern → List Char
  | .any => ['*']
  | .list items => join ',' (items.map (·.text))

def IsValid (kind : FieldKind) : Pattern → Prop
  | .any => True
  | .list items => items ≠ [] ∧ ∀ item ∈ items, item.IsValid kind

end Pattern

end Almanac.Cron

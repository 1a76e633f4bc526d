import Almanac.Error

/-!
# Numbers in stored values

Integers, truth values and floating-point numbers are numbers, where true is one and false is zero.
Where an integer is wanted, floating-point numbers lose their fraction and texts are read as
numerals. Two numbers agree if they are equal, of whatever kind they are.
-/

namespace Almanac.Value

open Almanac.Text

def toInteger : Value → Except Error Int
  | .bool b => .ok (if b then 1 else 0)
  | .int n => .ok n
  | .real .undefined => .error .undefinedNumber
  | .real x =>
      match x.truncate? with
      | some n => .ok n
      | none => .error .unbounded
  | .text s =>
      match integer? s.toList with
      | some n => .ok n
      | none => .error .malformedInteger
  | _ => .error .notNumeric

def floor? : Value → Option Int
  | .bool b => some (if b then 1 else 0)
  | .int n => some n
  | .real x => some x.floor
  | _ => none

def quotient? : Value → Option (Int × Nat)
  | .bool b => some (if b then 1 else 0, 1)
  | .int n => some (n, 1)
  | .real x => x.quotient?
  | _ => none

/-- Whether two values are equal as numbers; values that are no finite numbers only agree with
themselves. -/
def agrees (a b : Value) : Bool :=
  match a.quotient?, b.quotient? with
  | some (p, q), some (r, s) => p * s == r * q
  | _, _ => a = b

/-- A number plus an integer. With a floating-point number the sum is one too, and an integer that
is beyond all of them has no such sum. -/
def plus (value : Value) (n : Int) : Except Error Value :=
  match value with
  | .bool b => .ok (.int ((if b then 1 else 0) + n))
  | .int m => .ok (.int (m + n))
  | .real x =>
      let summand := Binary64.ofInt n
      if summand.isFinite then .ok (.real (x.add summand)) else .error .unbounded
  | _ => .error .notNumeric

@[simp] theorem agrees_self (a : Value) : a.agrees a = true := by
  unfold agrees
  cases a.quotient? <;> simp

end Almanac.Value

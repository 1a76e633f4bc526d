import Almanac.Number.Binary64

/-!
# Floating-point arithmetic

Differences, products, quotients and floors of quotients of floating-point numbers. Each of the
first three is exact and rounded once. The floor of a quotient takes the remainder away first, which
is exact, so that the quotient that is left is close to an integer, and moves to that integer.
-/

namespace Almanac.Binary64

def quotient? : Binary64 → Option (Int × Nat)
  | .finite negative mantissa exponent =>
      let (num, den) := magnitude mantissa exponent
      some (if negative then -(num : Int) else num, den)
  | _ => none

def ofRational (num : Int) (den : Nat) : Binary64 := ofQuotient (num < 0) num.natAbs den

def isNegative : Binary64 → Bool
  | .finite negative _ _ => negative
  | .infinite negative => negative
  | .undefined => false

def zero (negative : Bool) : Binary64 := .finite negative 0 (-1074)

def negate : Binary64 → Binary64
  | .finite negative mantissa exponent => .finite (!negative) mantissa exponent
  | .infinite negative => .infinite !negative
  | .undefined => .undefined

def subtract (x y : Binary64) : Binary64 := x.add y.negate

/-- The product of two numbers. Infinite times zero is undefined. -/
def multiply (x y : Binary64) : Binary64 :=
  let negative := x.isNegative != y.isNegative
  match x, y with
  | .undefined, _ => .undefined
  | _, .undefined => .undefined
  | .infinite _, y => if y.isZero then .undefined else .infinite negative
  | x, .infinite _ => if x.isZero then .undefined else .infinite negative
  | .finite _ manX expX, .finite _ manY expY =>
      let (numX, denX) := magnitude manX expX
      let (numY, denY) := magnitude manY expY
      ofQuotient negative (numX * numY) (denX * denY)

/-- The quotient of two finite numbers, where the second is positive. Without such numbers it is
undefined. -/
def divide (x y : Binary64) : Binary64 :=
  match x.quotient?, y.quotient? with
  | some (p, q), some (r, s) => ofQuotient x.isNegative (p.natAbs * s) (q * r.natAbs)
  | _, _ => .undefined

/-- The integer at or below a number, or the one above if the number is more than a half away from
it. -/
def snapped (x : Binary64) : Binary64 :=
  match x.quotient? with
  | some (p, q) =>
      let floor := ofInt (p / q)
      if (q : Int) < 2 * (p % q) then floor.add (ofInt 1) else floor
  | none => x

def floorDivide (x y : Binary64) : Binary64 :=
  match x.quotient?, y.quotient? with
  | some (p, q), some (r, s) =>
      let remainder := Int.tmod (p * s) (r * q)
      let whole := (x.subtract (ofRational remainder (q * s))).divide y
      let whole := if remainder < 0 then whole.subtract (ofInt 1) else whole
      if whole.isZero then zero x.isNegative else whole.snapped
  | _, _ => .undefined

def exceeds (x : Binary64) (n : Int) : Bool :=
  match x.quotient? with
  | some (p, q) => n * q < p
  | none => x = .infinite false

end Almanac.Binary64

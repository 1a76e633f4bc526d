/-!
# Binary floating-point numbers of 64 bits

A finite number is `± mantissa * 2 ^ exponent`, with a mantissa of at most 53 bits and an exponent
of at least -1074. Every quotient of naturals has one nearest such number, of two equally near the
one with the even mantissa (`ofQuotient`). All arithmetic is done on exact quotients and rounded
once.
-/

namespace Almanac

inductive Binary64 where
  | finite (negative : Bool) (mantissa : Nat) (exponent : Int)
  | infinite (negative : Bool)
  | undefined
deriving DecidableEq, Repr

namespace Binary64

/-- The integer nearest to a quotient; a half goes to the even neighbour. -/
def nearest (num den : Nat) : Nat :=
  let floor := num / den
  let twice := 2 * (num % den)
  if twice < den then floor
  else if den < twice then floor + 1
  else if floor % 2 = 0 then floor
  else floor + 1

def scaled (num den : Nat) (exponent : Int) : Nat × Nat :=
  (num * Nat.pow 2 (-exponent).toNat, den * Nat.pow 2 exponent.toNat)

/-- The exponent at which a positive quotient has 53 bits before the point, but never below
-1074. -/
def unitExponent (num den : Nat) : Int :=
  let low := max ((num.log2 : Int) - den.log2 - 53) (-1074)
  let (n, d) := scaled num den low
  if n / d < Nat.pow 2 53 then low else low + 1

def ofQuotient (negative : Bool) (num den : Nat) : Binary64 :=
  if num = 0 then .finite negative 0 (-1074)
  else
    let exponent := unitExponent num den
    let (n, d) := scaled num den exponent
    let mantissa := nearest n d
    let (mantissa, exponent) :=
      if mantissa = Nat.pow 2 53 then (Nat.pow 2 52, exponent + 1) else (mantissa, exponent)
    if 971 < exponent then .infinite negative else .finite negative mantissa exponent

def magnitude (mantissa : Nat) (exponent : Int) : Nat × Nat :=
  (mantissa * Nat.pow 2 exponent.toNat, Nat.pow 2 (-exponent).toNat)

/-- The number nearest to `± digits * 10 ^ exponent`. Exponents that are far out of reach decide
alone. -/
def ofDecimal (negative : Bool) (digits : Nat) (exponent : Int) : Binary64 :=
  if digits = 0 then .finite negative 0 (-1074)
  else
    let size := (digits.log2 : Int) / 3 + 1 + exponent
    if size < -400 then .finite negative 0 (-1074)
    else if 400 < exponent then .infinite negative
    else ofQuotient negative (digits * Nat.pow 10 exponent.toNat) (Nat.pow 10 (-exponent).toNat)

def ofInt (n : Int) : Binary64 := ofQuotient (n < 0) n.natAbs 1

def isFinite : Binary64 → Bool
  | .finite .. => true
  | _ => false

def isZero : Binary64 → Bool
  | .finite _ mantissa _ => mantissa = 0
  | _ => false

def truncate? : Binary64 → Option Int
  | .finite negative mantissa exponent =>
      let (num, den) := magnitude mantissa exponent
      let whole : Int := (num / den : Nat)
      some (if negative then -whole else whole)
  | _ => none

def beyond : Int := Nat.pow 2 1024

/-- The greatest integer that is not above a number. Without a finite one it is `beyond` or its
negative. -/
def floor : Binary64 → Int
  | .finite negative mantissa exponent =>
      let (num, den) := magnitude mantissa exponent
      (if negative then -(num : Int) else num) / (den : Nat)
  | .infinite true => -beyond
  | _ => beyond

def add : Binary64 → Binary64 → Binary64
  | .undefined, _ => .undefined
  | _, .undefined => .undefined
  | .infinite a, .infinite b => if a = b then .infinite a else .undefined
  | .infinite a, .finite .. => .infinite a
  | .finite .., .infinite b => .infinite b
  | .finite negA manA expA, .finite negB manB expB =>
      let (numA, denA) := magnitude manA expA
      let (numB, denB) := magnitude manB expB
      let left : Int := (numA * denB : Nat)
      let right : Int := (numB * denA : Nat)
      let sum := (if negA then -left else left) + (if negB then -right else right)
      ofQuotient (sum < 0 || (sum = 0 && negA && negB)) sum.natAbs (denA * denB)

end Binary64

end Almanac

import Almanac.Number.Binary64
import Almanac.Text.Numeral

/-!
# Decimal text of numbers

A positive quotient is shown by significant digits and the exponent of the first of them. The digits
are either a fixed count, rounded once (`significant`), or the fewest that read back as the same
floating-point number (`shortest`). `Layout` decides how digits and exponent are written.
-/

namespace Almanac.Decimal

open Almanac.Text

/-- Significant digits, the first of which stands for a multiple of `10 ^ exponent`. -/
structure Digits where
  digits : List Char
  exponent : Int
deriving DecidableEq, Repr

/-- How digits are written: positionally for exponents from -4 up to but without `plainBelow`, else
with one digit before the point and a signed exponent of at least two digits. -/
structure Layout where
  plainBelow : Int
  /-- Whether a whole number written positionally ends in `.0`. -/
  pointZero : Bool

def digitCount (n : Nat) : Nat :=
  if n = 0 then 0 else (decimal n).length

def leadingExponent (num den : Nat) : Int :=
  if den ≤ num then digitCount (num / den) - 1
  else -(digitCount ((den - 1) / num) : Int)

def inUnits (num den : Nat) (exponent : Int) : Nat × Nat :=
  (num * Nat.pow 10 (-exponent).toNat, den * Nat.pow 10 exponent.toNat)

/-- The digits of `n` without trailing zeros, where the last digit of `n` counts units of `10 ^
exponent`. -/
def ofUnits (n : Nat) (exponent : Int) : Digits :=
  let digits := decimal n
  ⟨(digits.reverse.dropWhile (· == '0')).reverse, exponent + digits.length - 1⟩

def significant (count num den : Nat) : Digits :=
  let exponent := leadingExponent num den - count + 1
  let (n, d) := inUnits num den exponent
  ofUnits (Binary64.nearest n d) exponent

/-- The multiples of a power of ten next to a magnitude that read back as it, the nearer one
first. -/
def readingBack (mantissa : Nat) (exponent unit : Int) : Option Digits :=
  let (num, den) := Binary64.magnitude mantissa exponent
  let (n, d) := inUnits num den unit
  let below := n / d
  let nearer := Binary64.nearest n d
  let farther := if nearer = below then below + 1 else below
  let same := fun k => Binary64.ofDecimal false k unit = .finite false mantissa exponent
  if same nearer then some (ofUnits nearer unit)
  else if same farther then some (ofUnits farther unit)
  else none

/-- The fewest digits that read back as a positive magnitude; seventeen are always enough. -/
def shortest (mantissa : Nat) (exponent : Int) : Digits :=
  let (num, den) := Binary64.magnitude mantissa exponent
  let leading := leadingExponent num den
  ((List.range 17).findSome? fun (k : Nat) => readingBack mantissa exponent (leading - k)).getD
    (significant 17 num den)

def exponentText (exponent : Int) : List Char :=
  'e' :: (if exponent < 0 then '-' else '+') :: padded 2 exponent.natAbs

def Layout.write (layout : Layout) (number : Digits) : List Char :=
  let digits := number.digits
  if -4 ≤ number.exponent && number.exponent < layout.plainBelow then
    if number.exponent < 0 then
      '0' :: '.' :: List.replicate (-number.exponent - 1).toNat '0' ++ digits
    else
      let whole := number.exponent.toNat + 1
      if digits.length ≤ whole then
        digits ++ List.replicate (whole - digits.length) '0' ++
          (if layout.pointZero then ['.', '0'] else [])
      else digits.take whole ++ '.' :: digits.drop whole
  else
    match digits with
    | first :: second :: rest => first :: '.' :: second :: rest ++ exponentText number.exponent
    | digits => digits ++ exponentText number.exponent

def Layout.zero (layout : Layout) : List Char := if layout.pointZero then ['0', '.', '0'] else ['0']

end Almanac.Decimal

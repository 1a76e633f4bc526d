import Almanac.Value

/-!
# Counts of runs

How often something runs is a natural number, except for an interval job that is anchored on a
floating-point number. Such a job is counted in floating-point arithmetic, and so is every sum in
which it takes part.
-/

namespace Almanac

inductive Count where
  | whole (n : Nat)
  | real (x : Binary64)
deriving DecidableEq, Repr

namespace Count

def toValue : Count → Value
  | .whole n => .int n
  | .real x => .real x

def add : Count → Count → Count
  | .whole m, .whole n => .whole (m + n)
  | .whole m, .real y => .real ((Binary64.ofInt m).add y)
  | .real x, .whole n => .real (x.add (Binary64.ofInt n))
  | .real x, .real y => .real (x.add y)

def sum (counts : List Count) : Count := counts.foldl add (.whole 0)

end Count

end Almanac

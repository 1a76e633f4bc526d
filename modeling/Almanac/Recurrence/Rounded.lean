import Almanac.Count
import Almanac.Error
import Almanac.Recurrence

/-!
# Recurrences from any number

The reference of a recurrence may be a floating-point number. Then its first instant and the count
are calculated as for integers, but in floating-point arithmetic, and rounded at each step.
-/

namespace Almanac.Recurrence

open Binary64

/-- The first instant of the recurrence that is not too early, as far as rounding allows. -/
def firstRounded (period reference start : Binary64) : Binary64 :=
  reference.add (((reference.subtract start).floorDivide period).negate.multiply period)

/-- How many instants of the recurrence lie from `start` through `stop`. The period must be within
the floating-point numbers. -/
def countRounded (period : Int) (reference : Binary64) (start stop : Int) : Except Error Count :=
  if period ≤ 0 ∨ stop < start then .ok (.whole 0)
  else
    let step := ofInt period
    if step.isFinite then
      let first := firstRounded step reference (ofInt start)
      if first.exceeds stop then .ok (.whole 0)
      else .ok (.real ((((ofInt stop).subtract first).floorDivide step).add (ofInt 1)))
    else .error .unbounded

/-- The count for a reference that is a number of any kind. What is no number is only noticed if
there is something to count. -/
def countFrom (period : Int) (reference : Value) (start stop : Int) : Except Error Count :=
  match reference with
  | .bool b => .ok (.whole (count period (if b then 1 else 0) start stop))
  | .int n => .ok (.whole (count period n start stop))
  | .real x => countRounded period x start stop
  | _ => if period ≤ 0 ∨ stop < start then .ok (.whole 0) else .error .notNumeric

@[simp] theorem countFrom_int (period n start stop : Int) :
    countFrom period (.int n) start stop = .ok (.whole (count period n start stop)) := rfl

end Almanac.Recurrence

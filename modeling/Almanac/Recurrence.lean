/-!
# Recurrences

A recurrence is the set of instants `reference + k * period` for all integers `k`. `count` gives how
many of them lie between two instants without going through them: it finds the first one that is not
too early (`first_spec`) and divides what remains.
-/

namespace Almanac.Recurrence

def first (period reference start : Int) : Int :=
  reference + -Int.fdiv (reference - start) period * period

/-- How many instants of the recurrence lie from `start` through `stop`; none if the period is not
positive. -/
def count (period reference start stop : Int) : Nat :=
  if period ≤ 0 ∨ stop < start then 0
  else
    let first := first period reference start
    if stop < first then 0 else (Int.fdiv (stop - first) period + 1).toNat

theorem first_spec {period : Int} (h : 0 < period) (reference start : Int) :
    start ≤ first period reference start ∧ first period reference start < start + period := by
  have hf : Int.fdiv (reference - start) period = (reference - start) / period :=
    Int.fdiv_eq_ediv_of_nonneg _ (Int.le_of_lt h)
  have hd := Int.mul_ediv_add_emod (reference - start) period
  have hl := Int.emod_nonneg (reference - start) (Int.ne_of_gt h)
  have hu := Int.emod_lt_of_pos (reference - start) h
  rw [first, hf, Int.neg_mul, Int.mul_comm]
  omega

end Almanac.Recurrence

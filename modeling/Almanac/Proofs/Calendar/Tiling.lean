import Almanac.Calendar.Instant
import Mathlib

/-!
# Tiling with days

Consecutive days of equal length cover a stretch of instants without overlap, so the elements of a
set that lie in the stretch are those that lie in the days, each counted once.
-/

namespace Almanac

theorem Icc_succ_days (start : Instant) (n : Nat) :
    Set.Icc start (start + (n + 1 : Nat) * dayMillis - 1) =
      Set.Icc start (start + n * dayMillis - 1) ∪
        Set.Icc (start + n * dayMillis) (start + n * dayMillis + (dayMillis - 1)) := by
  ext t
  simp only [Set.mem_union, Set.mem_Icc, dayMillis, Instant]
  omega

/-- The elements of a set within a number of days are counted day by day. -/
theorem sum_ncard_days (s : Set Instant) (start : Instant) (n : Nat) :
    ((List.range n).map fun (k : Nat) =>
      (s ∩ Set.Icc (start + k * dayMillis) (start + k * dayMillis + (dayMillis - 1))).ncard).sum =
      (s ∩ Set.Icc start (start + n * dayMillis - 1)).ncard := by
  induction n with
  | zero =>
      have he : Set.Icc start (start + (0 : Nat) * dayMillis - 1) = ∅ := by
        apply Set.Icc_eq_empty
        simp only [dayMillis, Instant]
        omega
      rw [he, Set.inter_empty, Set.ncard_empty]
      rfl
  | succ n ih =>
      have hd : Disjoint (s ∩ Set.Icc start (start + n * dayMillis - 1))
          (s ∩ Set.Icc (start + n * dayMillis) (start + n * dayMillis + (dayMillis - 1))) := by
        apply Set.disjoint_left.2
        intro t ht hn
        have he := ht.2.2
        have hs := hn.2.1
        simp only [Instant] at he hs
        omega
      rw [List.range_succ, List.map_append, List.sum_append, ih, Icc_succ_days,
        Set.inter_union_distrib_left, Set.ncard_union_eq hd ((Set.finite_Icc _ _).inter_of_right s)
          ((Set.finite_Icc _ _).inter_of_right s)]
      simp

end Almanac

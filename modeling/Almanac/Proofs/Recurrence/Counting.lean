import Almanac.Recurrence
import Mathlib

/-!
# Counting a recurrence

The instants of a recurrence that are not before some start are its first one from there and those
that follow it at whole periods. `count` says how many of them a window holds
(`ncard_instants_inter_Icc`), wherever the reference lies, and so how many multipliers have their
instants there.
-/

namespace Almanac.Recurrence

variable {period reference start stop t : Int}

def instants (period reference : Int) : Set Int := {t | ∃ k : Int, t = reference + k * period}

def nth (period reference start : Int) (j : Nat) : Int := first period reference start + j * period

theorem nth_mem_instants (period reference start : Int) (j : Nat) :
    nth period reference start j ∈ instants period reference := by
  refine ⟨-Int.fdiv (reference - start) period + j, ?_⟩
  rw [nth, first, Int.add_mul, Int.add_assoc]

theorem start_le_nth (h : 0 < period) (reference start : Int) (j : Nat) :
    start ≤ nth period reference start j := by
  have hf := (first_spec h reference start).1
  have hj : 0 ≤ (j : Int) * period := Int.mul_nonneg (Int.natCast_nonneg j) (Int.le_of_lt h)
  unfold nth
  omega

theorem nth_injective (h : 0 < period) (reference start : Int) :
    Function.Injective (nth period reference start) := by
  intro i j hij
  have hm : (i : Int) * period = j * period := by
    unfold nth at hij
    omega
  exact Int.ofNat.inj (Int.eq_of_mul_eq_mul_right (Int.ne_of_gt h) hm)

theorem exists_nth_eq (h : 0 < period) (ht : t ∈ instants period reference) (hs : start ≤ t) :
    ∃ j, nth period reference start j = t := by
  rcases ht with ⟨k, rfl⟩
  have hf := (first_spec h reference start).2
  have hlow : -Int.fdiv (reference - start) period ≤ k := by
    by_contra hc
    have hm : (k + 1) * period ≤ -Int.fdiv (reference - start) period * period :=
      Int.mul_le_mul_of_nonneg_right (by omega) (Int.le_of_lt h)
    rw [Int.add_mul, Int.one_mul] at hm
    unfold first at hf
    omega
  refine ⟨(k - -Int.fdiv (reference - start) period).toNat, ?_⟩
  rw [nth, first, Int.toNat_of_nonneg (by omega), Int.sub_mul]
  omega

theorem lt_count_iff (h : 0 < period) {j : Nat} :
    j < count period reference start stop ↔ nth period reference start j ≤ stop := by
  have hs := start_le_nth h reference start j
  have hj : 0 ≤ (j : Int) * period := Int.mul_nonneg (Int.natCast_nonneg j) (Int.le_of_lt h)
  unfold count
  by_cases hw : stop < start
  · rw [if_pos (.inr hw)]
    omega
  · rw [if_neg (by omega)]
    dsimp only
    unfold nth at hs ⊢
    by_cases hf : stop < first period reference start
    · rw [if_pos hf]
      omega
    · rw [if_neg hf, Int.fdiv_eq_ediv_of_nonneg _ (Int.le_of_lt h)]
      have hq :=
        Int.le_ediv_iff_mul_le (a := (j : Int)) (b := stop - first period reference start) h
      omega

theorem instants_inter_Icc (h : 0 < period) (reference start stop : Int) :
    instants period reference ∩ Set.Icc start stop =
      nth period reference start '' (Finset.range (count period reference start stop)) := by
  ext t
  constructor
  · intro hx
    rcases hx with ⟨ht, hs, he⟩
    rcases exists_nth_eq h ht hs with ⟨j, rfl⟩
    exact ⟨j, by simpa using (lt_count_iff h).2 he, rfl⟩
  · intro hx
    rcases hx with ⟨j, hj, rfl⟩
    have hc : j < count period reference start stop := by simpa using hj
    exact ⟨nth_mem_instants period reference start j, start_le_nth h reference start j,
      (lt_count_iff h).1 hc⟩

/-- A window holds exactly as many instants of a recurrence as are counted. -/
theorem ncard_instants_inter_Icc (h : 0 < period) (reference start stop : Int) :
    (instants period reference ∩ Set.Icc start stop).ncard = count period reference start stop := by
  rw [instants_inter_Icc h, Set.ncard_image_of_injective _ (nth_injective h reference start),
    Set.ncard_coe_finset, Finset.card_range]

/-! ## Multipliers -/

def multipliers (period reference start stop : Int) : Set Int :=
  {k | start ≤ reference + k * period ∧ reference + k * period ≤ stop}

theorem multiple_injective (h : 0 < period) (reference : Int) :
    Function.Injective fun k : Int => reference + k * period := by
  intro i j hij
  have hm : i * period = j * period := by
    dsimp only at hij
    omega
  exact Int.eq_of_mul_eq_mul_right (Int.ne_of_gt h) hm

theorem image_multipliers (period reference start stop : Int) :
    (fun k : Int => reference + k * period) '' multipliers period reference start stop =
      instants period reference ∩ Set.Icc start stop := by
  ext t
  constructor
  · intro h
    rcases h with ⟨k, hk, rfl⟩
    exact ⟨⟨k, rfl⟩, hk⟩
  · intro h
    rcases h with ⟨⟨k, rfl⟩, hwindow⟩
    exact ⟨k, hwindow, rfl⟩

theorem finite_multipliers (h : 0 < period) (reference start stop : Int) :
    (multipliers period reference start stop).Finite := by
  apply Set.Finite.of_finite_image _ (multiple_injective h reference).injOn
  rw [image_multipliers]
  exact (Set.finite_Icc start stop).inter_of_right _

theorem ncard_multipliers (h : 0 < period) (reference start stop : Int) :
    (multipliers period reference start stop).ncard = count period reference start stop := by
  rw [← ncard_instants_inter_Icc h, ← image_multipliers,
    Set.ncard_image_of_injective _ (multiple_injective h reference)]

theorem count_eq_zero (h : period ≤ 0 ∨ stop < start) : count period reference start stop = 0 := by
  rw [count, if_pos h]

/-- The count as an integer, which nothing in it keeps from being negative. -/
def signedCount (period reference start stop : Int) : Int :=
  if period ≤ 0 ∨ stop < start then 0
  else
    let first := first period reference start
    if stop < first then 0 else Int.fdiv (stop - first) period + 1

/-- The quotient is only taken where it is not negative. -/
theorem signedCount_eq_count (period reference start stop : Int) :
    signedCount period reference start stop = count period reference start stop := by
  unfold signedCount count
  by_cases hw : period ≤ 0 ∨ stop < start
  · rw [if_pos hw, if_pos hw]
    rfl
  · rw [if_neg hw, if_neg hw]
    dsimp only
    by_cases hf : stop < first period reference start
    · rw [if_pos hf, if_pos hf]
      rfl
    · have hq : 0 ≤ Int.fdiv (stop - first period reference start) period :=
        Int.fdiv_nonneg (by omega) (by omega)
      rw [if_neg hf, if_neg hf, Int.toNat_of_nonneg (by omega)]

/-- Whatever the integers, the count is the number of multipliers whose instants lie in the window,
or zero if the period is not positive. It is zero for every window that ends before it starts, and
never cut off at zero. -/
theorem count_eq_ncard_multipliers (period reference start stop : Int) :
    (0 < period → (multipliers period reference start stop).Finite ∧
      count period reference start stop = (multipliers period reference start stop).ncard) ∧
    (period ≤ 0 → count period reference start stop = 0) ∧
    (stop < start → count period reference start stop = 0) ∧
    signedCount period reference start stop = count period reference start stop := by
  refine ⟨?_, ?_, ?_, signedCount_eq_count period reference start stop⟩
  · intro h
    exact ⟨finite_multipliers h reference start stop,
      (ncard_multipliers h reference start stop).symm⟩
  · intro h
    exact count_eq_zero (.inl h)
  · intro h
    exact count_eq_zero (.inr h)

/-- The reference lies past the window, which starts before the epoch and ends after it. -/
theorem count_eq_ncard_multipliers_across_epoch :
    (multipliers 7 100 (-20) 15).Finite ∧ (multipliers 7 100 (-20) 15).ncard = 5 ∧
      count (-7) 100 (-20) 15 = 0 ∧ count 7 100 15 (-20) = 0 := by
  have hwindow := (count_eq_ncard_multipliers 7 100 (-20) 15).1 (by decide)
  have hfive : count 7 100 (-20) 15 = 5 := by decide
  have hbackwards := (count_eq_ncard_multipliers (-7) 100 (-20) 15).2.1 (by decide)
  have hinverted := (count_eq_ncard_multipliers 7 100 15 (-20)).2.2.1 (by decide)
  exact ⟨hwindow.1, hwindow.2.symm.trans hfive, hbackwards, hinverted⟩

end Almanac.Recurrence

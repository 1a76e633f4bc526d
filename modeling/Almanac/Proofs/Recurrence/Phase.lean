import Almanac.Proofs.Recurrence.Counting

/-!
# The phase of a recurrence

What a window sees of a recurrence depends on the reference only through the phase, which is how
long after the start of the window the first instant comes. Whole periods added to the reference do
not change the phase, so they do not change the count. A recurrence that starts with the window has
the greatest count, and no phase loses more than one instant.
-/

namespace Almanac.Recurrence

variable {period reference start stop : Int}

/-- How long after the start of a window the first instant of the recurrence comes. -/
def phase (period reference start : Int) : Int := (reference - start) % period

theorem phase_nonneg (h : 0 < period) (reference start : Int) : 0 ≤ phase period reference start :=
  Int.emod_nonneg _ (Int.ne_of_gt h)

theorem phase_lt (h : 0 < period) (reference start : Int) : phase period reference start < period :=
  Int.emod_lt_of_pos _ h

@[simp] theorem phase_self (period start : Int) : phase period start start = 0 := by
  simp [phase]

theorem phase_add_mul (period reference k start : Int) :
    phase period (reference + k * period) start = phase period reference start := by
  have hshift : reference + k * period - start = reference - start + k * period := by omega
  rw [phase, hshift, Int.add_mul_emod_self_right, phase]

theorem first_eq_add_phase (h : 0 < period) (reference start : Int) :
    first period reference start = start + phase period reference start := by
  have hd := Int.mul_ediv_add_emod (reference - start) period
  rw [first, phase, Int.fdiv_eq_ediv_of_nonneg _ (Int.le_of_lt h), Int.neg_mul, Int.mul_comm]
  omega

/-- The count of a window that is not reversed. Where the first instant comes too late, the quotient
is `-1`. -/
theorem count_eq_ediv (h : 0 < period) (hw : start ≤ stop) (reference : Int) :
    (count period reference start stop : Int) =
      (stop - start - phase period reference start) / period + 1 := by
  have hphase := phase_lt h reference start
  have hfirst := first_eq_add_phase h reference start
  have hwindow : ¬ (period ≤ 0 ∨ stop < start) := by omega
  rw [count, if_neg hwindow]
  dsimp only
  by_cases hlate : stop < first period reference start
  · have hquotient : (stop - start - phase period reference start) / period = -1 :=
      Int.ediv_eq_neg_one_of_neg_of_le (by omega) (by omega)
    rw [if_pos hlate, hquotient]
    rfl
  · have hrest : stop - first period reference start =
        stop - start - phase period reference start := by omega
    have hquotient : 0 ≤ (stop - start - phase period reference start) / period :=
      Int.ediv_nonneg (by omega) (Int.le_of_lt h)
    rw [if_neg hlate, Int.fdiv_eq_ediv_of_nonneg _ (Int.le_of_lt h), hrest,
      Int.toNat_of_nonneg (by omega)]

/-- Whole periods may be added to the reference, in either direction and whatever the period is. -/
theorem count_add_mul (period reference k start stop : Int) :
    count period (reference + k * period) start stop = count period reference start stop := by
  by_cases hwindow : period ≤ 0 ∨ stop < start
  · rw [count_eq_zero hwindow, count_eq_zero hwindow]
  · have hp : 0 < period := by omega
    have hw : start ≤ stop := by omega
    apply Int.ofNat.inj
    rw [Int.ofNat_eq_natCast, Int.ofNat_eq_natCast, count_eq_ediv hp hw, count_eq_ediv hp hw,
      phase_add_mul]

/-! ## Windows of a given length -/

theorem count_le_count_start (h : 0 < period) (hw : start ≤ stop) (reference : Int) :
    count period reference start stop ≤ count period start start stop := by
  have hphase := phase_nonneg h reference start
  have hquotient :=
    Int.ediv_le_ediv h (show stop - start - phase period reference start ≤ stop - start by omega)
  have hcount := count_eq_ediv h hw reference
  have hstart := count_eq_ediv h hw start
  rw [phase_self, Int.sub_zero] at hstart
  omega

theorem count_start_le (h : 0 < period) (hw : start ≤ stop) (reference : Int) :
    count period start start stop ≤ count period reference start stop + 1 := by
  have hphase := phase_lt h reference start
  have hquotient := Int.ediv_le_ediv h
    (show stop - start + -1 * period ≤ stop - start - phase period reference start by omega)
  rw [Int.add_mul_ediv_right _ _ (Int.ne_of_gt h)] at hquotient
  have hcount := count_eq_ediv h hw reference
  have hstart := count_eq_ediv h hw start
  rw [phase_self, Int.sub_zero] at hstart
  omega

theorem count_eq_count_start (h : 0 < period) (hw : start ≤ stop) (hd : period ∣ stop - start + 1)
    (reference : Int) :
    count period reference start stop = count period start start stop := by
  have hle := count_le_count_start h hw reference
  have hphase := phase_lt h reference start
  have hcount := count_eq_ediv h hw reference
  have hstart := count_eq_ediv h hw start
  rw [phase_self, Int.sub_zero] at hstart
  have hperiods := Int.ediv_mul_cancel hd
  -- the last millisecond of the window is in the last period, which is whole
  have hlast : (stop - start) / period < (stop - start + 1) / period := by
    rw [Int.ediv_lt_iff_lt_mul h]
    omega
  have hquotient : (stop - start + 1) / period - 1 ≤
      (stop - start - phase period reference start) / period := by
    rw [Int.le_ediv_iff_mul_le h, Int.sub_mul]
    omega
  omega

theorem count_start_pos (h : 0 < period) (hw : start ≤ stop) :
    0 < count period start start stop := by
  have hstart := count_eq_ediv h hw start
  have hquotient : 0 ≤ (stop - start - phase period start start) / period := by
    rw [phase_self]
    exact Int.ediv_nonneg (by omega) (Int.le_of_lt h)
  omega

/-- A recurrence that starts with the window has an instant for each period that the window
begins. -/
theorem count_start_eq_ceil (h : 0 < period) (hw : start ≤ stop) :
    count period start start stop = ⌈((stop - start + 1 : Int) : ℚ) / period⌉₊ := by
  have hpos := count_start_pos h hw
  have hstart := count_eq_ediv h hw start
  rw [phase_self, Int.sub_zero] at hstart
  have hperiod : (0 : ℚ) < period := Int.cast_pos.2 h
  have hlow : (stop - start) / period * period ≤ stop - start := Int.ediv_mul_le _ (Int.ne_of_gt h)
  have hhigh : stop - start < ((stop - start) / period + 1) * period :=
    Int.lt_ediv_add_one_mul_self _ h
  apply Eq.symm
  rw [Nat.ceil_eq_iff (Nat.ne_of_gt hpos), lt_div_iff₀ hperiod, div_le_iff₀ hperiod]
  constructor
  · have hcast : ((count period start start stop - 1 : Nat) : Int) = (stop - start) / period := by
      omega
    have hlt : ((count period start start stop - 1 : Nat) : Int) * period < stop - start + 1 := by
      rw [hcast]
      omega
    exact_mod_cast hlt
  · have hle : stop - start + 1 ≤ (count period start start stop : Int) * period := by
      rw [hstart]
      omega
    exact_mod_cast hle

end Almanac.Recurrence

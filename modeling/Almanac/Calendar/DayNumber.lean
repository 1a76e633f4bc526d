import Almanac.Calendar.Date

/-!
# Dates and day numbers

Dates and day numbers correspond: a date is found by its day number, and a day number within the
calendar is that of the date found for it (`ofDayNumber?_eq_some_iff`). The year comes from a mean
length that is off by one year at most, the month from adding up the lengths of months.
-/

namespace Almanac.Date

/-! ## Years -/

theorem isLeap_iff (year : Nat) : isLeap year = true ↔
    year % 4 = 0 ∧ (year % 100 ≠ 0 ∨ year % 400 = 0) := by
  simp [isLeap]

theorem daysBeforeYear_succ {year : Nat} (h : 1 ≤ year) :
    daysBeforeYear (year + 1) = daysBeforeYear year + (if isLeap year then 366 else 365) := by
  obtain ⟨z, rfl⟩ : ∃ z, year = z + 1 := ⟨year - 1, by omega⟩
  simp only [daysBeforeYear, isLeap_iff, Nat.add_sub_cancel]
  have h4 : (z + 1) / 4 = z / 4 + if (z + 1) % 4 = 0 then 1 else 0 := by split <;> omega
  have h100 : (z + 1) / 100 = z / 100 + if (z + 1) % 100 = 0 then 1 else 0 := by split <;> omega
  have h400 : (z + 1) / 400 = z / 400 + if (z + 1) % 400 = 0 then 1 else 0 := by split <;> omega
  have m100 : (z + 1) % 100 = 0 → (z + 1) % 4 = 0 := by omega
  have m400 : (z + 1) % 400 = 0 → (z + 1) % 100 = 0 := by omega
  have hle : z / 100 ≤ z / 4 := by omega
  rw [h4, h100, h400]
  generalize z / 4 = a at *
  generalize z / 100 = b at *
  generalize z / 400 = c at *
  by_cases p4 : (z + 1) % 4 = 0
  · by_cases p100 : (z + 1) % 100 = 0
    · by_cases p400 : (z + 1) % 400 = 0
      · simp only [p4, p100, p400, if_true, true_and, ne_eq, not_true, false_or]
        omega
      · simp only [p4, p100, p400, if_true, if_false, true_and, ne_eq, not_true, false_or]
        omega
    · have p400 : (z + 1) % 400 ≠ 0 := fun h => p100 (m400 h)
      simp only [p4, p100, p400, if_true, if_false, true_and, ne_eq, not_false_eq_true, true_or]
      omega
  · have p100 : (z + 1) % 100 ≠ 0 := fun h => p4 (m100 h)
    have p400 : (z + 1) % 400 ≠ 0 := fun h => p100 (m400 h)
    simp only [p4, p100, p400, if_false, false_and]
    omega

/-- The mean year has 146097 days in 400 years, and no year starts far from its mean. -/
theorem daysBeforeYear_near (z : Nat) :
    400 * daysBeforeYear (z + 1) ≤ 146097 * z + 396 ∧
      146097 * z ≤ 400 * daysBeforeYear (z + 1) + 699 := by
  simp only [daysBeforeYear, Nat.add_sub_cancel]
  omega

theorem yearOfOrdinal_spec (n : Nat) :
    1 ≤ yearOfOrdinal n ∧ daysBeforeYear (yearOfOrdinal n) ≤ n ∧
      n < daysBeforeYear (yearOfOrdinal n + 1) := by
  have hx : 146097 * (n * 400 / 146097) ≤ n * 400 ∧ n * 400 < 146097 * (n * 400 / 146097 + 1) := by
    omega
  unfold yearOfOrdinal
  dsimp only
  generalize n * 400 / 146097 = x at hx
  have upper := (daysBeforeYear_near (x + 1 + 1)).2
  split
  · rename_i h
    cases x with
    | zero => simp [daysBeforeYear] at h
    | succ x =>
        have lower := (daysBeforeYear_near x).1
        refine ⟨by omega, ?_, ?_⟩
        · simp only [Nat.add_sub_cancel]
          omega
        · simpa only [Nat.add_sub_cancel] using h
  · split
    · rename_i h
      exact ⟨by omega, h, by omega⟩
    · exact ⟨by omega, by omega, by omega⟩

/-! ## Months -/

theorem locate_spec (lengths : List Nat) (position : Nat) (h : position < daysOf lengths) :
    ∃ index rest, locate lengths position = some (index, rest) ∧ index < lengths.length ∧
      rest < lengths.getD index 0 ∧ daysOf (lengths.take index) + rest = position := by
  induction lengths generalizing position with
  | nil => simp at h
  | cons length lengths ih =>
      unfold locate
      split
      · rename_i hp
        exact ⟨0, position, rfl, by simp, by simpa using hp, by simp⟩
      · rename_i hp
        have hs : position - length < daysOf lengths := by simp at h; omega
        obtain ⟨index, rest, he, hi, hr, ht⟩ := ih _ hs
        refine ⟨index + 1, rest, by simp [he], by simpa using hi, by simpa using hr, ?_⟩
        simp
        omega

theorem daysOf_monthLengths (leap : Bool) :
    daysOf (monthLengths leap) = if leap then 366 else 365 := by
  cases leap <;> rfl

theorem monthLengths_length (leap : Bool) : (monthLengths leap).length = 12 := rfl

theorem yearOfOrdinal_le {n : Nat} (h : n ≤ lastOrdinal) : yearOfOrdinal n ≤ 9999 := by
  have hl := (yearOfOrdinal_spec n).2.1
  simp only [lastOrdinal] at h
  refine Nat.le_of_not_lt fun hc => ?_
  obtain ⟨z, hz⟩ : ∃ z, yearOfOrdinal n = z + 1 := ⟨yearOfOrdinal n - 1, by omega⟩
  rw [hz] at hl hc
  simp only [daysBeforeYear, Nat.add_sub_cancel] at hl
  omega

theorem ofFields?_eq_some {y m d : Nat} (hy : 1 ≤ y ∧ y ≤ 9999) (hm : 1 ≤ m ∧ m ≤ 12)
    (hd : 1 ≤ d ∧ d ≤ monthLength y m) : ofFields? y m d = some ⟨y, m, d, hy, hm, hd⟩ := by
  simp only [ofFields?, Int.toNat_natCast]
  rw [dif_pos ⟨hy, hm, hd⟩]

theorem ofFields?_eq_some_iff {year month day : Int} {date : Date} :
    ofFields? year month day = some date ↔
      date.year = year ∧ date.month = month ∧ date.day = day := by
  constructor
  · intro h
    simp only [ofFields?] at h
    split at h
    · obtain rfl := Option.some.inj h
      dsimp only
      omega
    · contradiction
  · intro h
    rcases h with ⟨rfl, rfl, rfl⟩
    exact ofFields?_eq_some date.year_bounds date.month_bounds date.day_bounds

theorem eq_iff_fields {date other : Date} :
    other = date ↔ other.year = date.year ∧ other.month = date.month ∧ other.day = date.day := by
  cases other
  cases date
  simp only [Date.mk.injEq]

theorem ofOrdinal?_spec {n : Nat} (h : n ≤ lastOrdinal) :
    ∃ date, ofOrdinal? n = some date ∧ date.ordinal = n := by
  obtain ⟨h1, hl, hu⟩ := yearOfOrdinal_spec n
  have hy := yearOfOrdinal_le h
  rw [daysBeforeYear_succ h1, ← daysOf_monthLengths] at hu
  obtain ⟨month, day, he, hm, hd, hs⟩ :=
    locate_spec (monthLengths (isLeap (yearOfOrdinal n))) (n - daysBeforeYear (yearOfOrdinal n))
      (by omega)
  rw [monthLengths_length] at hm
  have hd' : 1 ≤ day + 1 ∧ day + 1 ≤ monthLength (yearOfOrdinal n) (month + 1) := by
    refine ⟨by omega, ?_⟩
    exact Nat.succ_le_of_lt (by simpa [monthLength] using hd)
  refine ⟨⟨yearOfOrdinal n, month + 1, day + 1, ⟨h1, hy⟩, by omega, hd'⟩, ?_, ?_⟩
  · simp only [ofOrdinal?, he]
    exact ofFields?_eq_some ⟨h1, hy⟩ (by omega) hd'
  · simp only [ordinal, daysBeforeMonth, Nat.add_sub_cancel]
    omega

/-! ## Positions of dates -/

theorem daysBeforeYear_mono {a b : Nat} (h : a ≤ b) : daysBeforeYear a ≤ daysBeforeYear b := by
  induction h with
  | refl => exact Nat.le_refl _
  | step _ ih =>
      rename_i m _
      refine Nat.le_trans ih ?_
      cases m with
      | zero => exact Nat.le_refl _
      | succ m =>
          rw [Nat.succ_eq_add_one, daysBeforeYear_succ (Nat.le_add_left 1 m)]
          exact Nat.le_add_right _ _

theorem daysOf_take_add_getD_le (lengths : List Nat) (index : Nat) :
    daysOf (lengths.take index) + lengths.getD index 0 ≤ daysOf lengths := by
  induction lengths generalizing index with
  | nil => simp
  | cons length lengths ih =>
      cases index with
      | zero => simp
      | succ index =>
          have := ih index
          simp only [List.take_succ_cons, daysOf_cons, List.getD_cons_succ]
          omega

theorem locate_daysOf_take {lengths : List Nat} {index rest : Nat}
    (h : rest < lengths.getD index 0) :
    locate lengths (daysOf (lengths.take index) + rest) = some (index, rest) := by
  induction lengths generalizing index with
  | nil => simp at h
  | cons length lengths ih =>
      cases index with
      | zero => simp_all [locate]
      | succ index =>
          have found := ih (by simpa using h)
          have hs : daysOf ((length :: lengths).take (index + 1)) =
              length + daysOf (lengths.take index) := by simp
          rw [hs, locate, if_neg (by omega),
            show length + daysOf (lengths.take index) + rest - length =
            daysOf (lengths.take index) + rest by omega, found]
          rfl

theorem ordinal_bounds (date : Date) :
    daysBeforeYear date.year ≤ date.ordinal ∧ date.ordinal < daysBeforeYear (date.year + 1) := by
  rw [daysBeforeYear_succ date.year_bounds.1, ← daysOf_monthLengths]
  have hs := daysOf_take_add_getD_le (monthLengths (isLeap date.year)) (date.month - 1)
  have hd := date.day_bounds
  simp only [monthLength] at hd
  simp only [ordinal, daysBeforeMonth]
  omega

theorem ordinal_le (date : Date) : date.ordinal ≤ lastOrdinal := by
  have h := (ordinal_bounds date).2
  have hm :=
    daysBeforeYear_mono (a := date.year + 1) (b := 10000) (by have := date.year_bounds; omega)
  simp only [daysBeforeYear] at h hm
  simp only [lastOrdinal]
  omega

theorem yearOfOrdinal_ordinal (date : Date) : yearOfOrdinal date.ordinal = date.year := by
  obtain ⟨h1, hl, hu⟩ := yearOfOrdinal_spec date.ordinal
  obtain ⟨hl', hu'⟩ := ordinal_bounds date
  rcases Nat.lt_trichotomy (yearOfOrdinal date.ordinal) date.year with h | h | h
  · have := daysBeforeYear_mono (Nat.succ_le_of_lt h)
    simp only [Nat.succ_eq_add_one] at this
    omega
  · exact h
  · have := daysBeforeYear_mono (Nat.succ_le_of_lt h)
    simp only [Nat.succ_eq_add_one] at this
    omega

theorem ofOrdinal?_ordinal (date : Date) : ofOrdinal? date.ordinal = some date := by
  have hd := date.day_bounds
  have hm := date.month_bounds
  simp only [ofOrdinal?, yearOfOrdinal_ordinal]
  have hr : date.day - 1 < (monthLengths (isLeap date.year)).getD (date.month - 1) 0 := by
    simp only [monthLength] at hd
    omega
  have hl := locate_daysOf_take hr
  have hs : date.ordinal - daysBeforeYear date.year =
      daysOf ((monthLengths (isLeap date.year)).take (date.month - 1)) + (date.day - 1) := by
    simp only [ordinal, daysBeforeMonth]
    omega
  rw [hs, hl]
  dsimp only
  rw [show ((date.month - 1 : Nat) : Int) + 1 = date.month by omega,
    show ((date.day - 1 : Nat) : Int) + 1 = date.day by omega]
  exact ofFields?_eq_some date.year_bounds hm hd

@[simp] theorem ofDayNumber?_dayNumber (date : Date) : ofDayNumber? date.dayNumber = some date := by
  have := ordinal_le date
  have hn : date.dayNumber + epochOrdinal = date.ordinal := by simp only [dayNumber]; omega
  rw [ofDayNumber?, hn]
  rw [if_pos (by omega), Int.toNat_natCast]
  exact ofOrdinal?_ordinal date

/-- A day number belongs to exactly the date that has it. -/
theorem ofDayNumber?_eq_some_iff {number : Int} {date : Date} :
    ofDayNumber? number = some date ↔ date.dayNumber = number := by
  constructor
  · intro h
    simp only [ofDayNumber?] at h
    split at h
    · rename_i hn
      obtain ⟨found, hf, ho⟩ := ofOrdinal?_spec (n := (number + epochOrdinal).toNat) (by omega)
      rw [hf] at h
      simp only [Option.some.injEq] at h
      subst h
      simp only [dayNumber, ho]
      omega
    · simp at h
  · intro h
    exact h ▸ ofDayNumber?_dayNumber date

end Almanac.Date

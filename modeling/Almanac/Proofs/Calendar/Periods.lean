import Almanac.Proofs.Calendar.MonthEnds

/-!
# Years, months and weeks as intervals of days

The dates of a year, of a month and of a week from Sunday to Saturday are those between a first and
a last day. So whether two dates share a period is a question about day numbers.
-/

namespace Almanac.Date

variable {date other : Date}

/-! ## Days -/

theorem dayNumber_inj : other.dayNumber = date.dayNumber ↔ other = date := by
  constructor
  · intro h
    have hfound := ofDayNumber?_dayNumber other
    rw [h, ofDayNumber?_dayNumber] at hfound
    exact (Option.some.inj hfound).symm
  · intro h
    rw [h]

/-! ## Years -/

theorem ordinal_firstOfYear (date : Date) :
    date.firstOfYear.ordinal = daysBeforeYear date.year := rfl

theorem ordinal_lastOfYear (date : Date) :
    date.lastOfYear.ordinal + 1 = daysBeforeYear (date.year + 1) := by
  have hlengths : daysOf ((monthLengths (isLeap date.year)).take 11) + 31 =
      if isLeap date.year then 366 else 365 := by
    cases isLeap date.year <;> rfl
  rw [daysBeforeYear_succ date.year_bounds.1, ← hlengths]
  rfl

theorem year_eq_iff {year : Nat} :
    other.year = year ↔
      daysBeforeYear year ≤ other.ordinal ∧ other.ordinal < daysBeforeYear (year + 1) := by
  have hbounds := ordinal_bounds other
  constructor
  · intro hy
    rwa [hy] at hbounds
  · intro hyear
    rcases Nat.lt_trichotomy other.year year with h | h | h
    · have hm : daysBeforeYear (other.year + 1) ≤ daysBeforeYear year := daysBeforeYear_mono h
      omega
    · exact h
    · have hm : daysBeforeYear (year + 1) ≤ daysBeforeYear other.year := daysBeforeYear_mono h
      omega

theorem year_eq_iff_between : other.year = date.year ↔
    date.firstOfYear.dayNumber ≤ other.dayNumber ∧ other.dayNumber ≤ date.lastOfYear.dayNumber := by
  have hf := ordinal_firstOfYear date
  have hl := ordinal_lastOfYear date
  rw [year_eq_iff]
  simp only [dayNumber]
  omega

/-! ## Months -/

/-- Blocks that follow one another end before a later one starts. -/
theorem daysOf_take_add_getD_le_of_lt (lengths : List Nat) {i j : Nat} (h : i < j) :
    daysOf (lengths.take i) + lengths.getD i 0 ≤ daysOf (lengths.take j) := by
  have hle := daysOf_take_add_getD_le (lengths.take j) i
  have htake : (lengths.take j).take i = lengths.take i := by
    rw [List.take_take, Nat.min_eq_left (Nat.le_of_lt h)]
  have hget : (lengths.take j).getD i 0 = lengths.getD i 0 := by
    simp only [List.getD_eq_getElem?_getD, List.getElem?_take_of_lt h]
  rwa [htake, hget] at hle

theorem ordinal_bounds_month (date : Date) :
    date.firstOfMonth.ordinal ≤ date.ordinal ∧ date.ordinal ≤ date.lastOfMonth.ordinal := by
  have hd := date.day_bounds
  simp only [ordinal, firstOfMonth, lastOfMonth]
  omega

theorem lastOfMonth_lt_firstOfMonth (hy : other.year = date.year) (hm : other.month < date.month) :
    other.lastOfMonth.ordinal < date.firstOfMonth.ordinal := by
  have hpos := other.month_bounds.1
  have hlt : other.month - 1 < date.month - 1 := by omega
  have hblock := daysOf_take_add_getD_le_of_lt (monthLengths (isLeap date.year)) hlt
  have hlast := ordinal_lastOfMonth other
  rw [ordinal_firstOfMonth, hy, monthLength, daysBeforeMonth] at hlast
  rw [ordinal_firstOfMonth, daysBeforeMonth]
  omega

/-- The dates of a month are those from its first through its last day. -/
theorem month_eq_iff_between : other.year = date.year ∧ other.month = date.month ↔
    date.firstOfMonth.dayNumber ≤ other.dayNumber ∧
      other.dayNumber ≤ date.lastOfMonth.dayNumber := by
  have hbounds := ordinal_bounds_month other
  constructor
  · intro h
    rcases h with ⟨hy, hm⟩
    have hf : other.firstOfMonth.ordinal = date.firstOfMonth.ordinal := by
      rw [ordinal_firstOfMonth, ordinal_firstOfMonth, hy, hm]
    have hl : other.lastOfMonth.ordinal + 1 = date.lastOfMonth.ordinal + 1 := by
      rw [ordinal_lastOfMonth, ordinal_lastOfMonth, hf, hy, hm]
    simp only [dayNumber]
    omega
  · intro hdays
    simp only [dayNumber] at hdays
    have hy : other.year = date.year := by
      have hfirst : daysBeforeYear date.year ≤ date.firstOfMonth.ordinal :=
        (ordinal_bounds date.firstOfMonth).1
      have hlast : date.lastOfMonth.ordinal < daysBeforeYear (date.year + 1) :=
        (ordinal_bounds date.lastOfMonth).2
      exact year_eq_iff.2 ⟨by omega, by omega⟩
    refine ⟨hy, ?_⟩
    rcases Nat.lt_trichotomy other.month date.month with h | h | h
    · have hbefore := lastOfMonth_lt_firstOfMonth hy h
      omega
    · exact h
    · have hafter := lastOfMonth_lt_firstOfMonth hy.symm h
      omega

/-! ## Weeks -/

/-- The day number of the Sunday on or before a date, whether or not the calendar reaches it. -/
def sundayNumber (date : Date) : Int := date.dayNumber - date.weekday

theorem sundayNumber_eq (date : Date) : date.sundayNumber = (date.dayNumber + 4) / 7 * 7 - 4 := by
  simp only [sundayNumber, weekday]
  omega

theorem startOfWeek_eq_ok_iff {sunday : Date} :
    date.startOfWeek = .ok sunday ↔ sunday.dayNumber = date.sundayNumber := by
  rw [startOfWeek, addDays_eq_ok_iff, sundayNumber, Int.sub_eq_add_neg]

theorem sundayNumber_eq_iff_between : other.sundayNumber = date.sundayNumber ↔
    date.sundayNumber ≤ other.dayNumber ∧ other.dayNumber ≤ date.sundayNumber + 6 := by
  rw [sundayNumber_eq, sundayNumber_eq]
  omega

def HasWholeWeek (date : Date) : Prop :=
  ∀ number, date.sundayNumber ≤ number → number ≤ date.sundayNumber + 6 →
    ∃ day : Date, day.dayNumber = number

theorem hasWholeWeek_iff : date.HasWholeWeek ↔
    ∃ sunday saturday : Date, sunday.dayNumber = date.sundayNumber ∧
      saturday.dayNumber = date.sundayNumber + 6 := by
  constructor
  · intro h
    rcases h date.sundayNumber (Int.le_refl _) (by omega) with ⟨sunday, hs⟩
    rcases h (date.sundayNumber + 6) (by omega) (Int.le_refl _) with ⟨saturday, he⟩
    exact ⟨sunday, saturday, hs, he⟩
  · intro h number hlow hhigh
    rcases h with ⟨sunday, saturday, hs, he⟩
    have hfirst := (dayNumber_bounds sunday).1
    have hlast := (dayNumber_bounds saturday).2
    exact exists_dayNumber ⟨by omega, by omega⟩

theorem exists_day_of_week (h : date.HasWholeWeek) {k : Nat} (hk : k < 7) :
    ∃ day : Date, day.dayNumber = date.sundayNumber + k ∧ day.weekday = k := by
  rcases h (date.sundayNumber + k) (by omega) (by omega) with ⟨day, hd⟩
  have hnumber := hd
  rw [sundayNumber_eq] at hnumber
  refine ⟨day, hd, ?_⟩
  rw [weekday, hnumber]
  omega

end Almanac.Date

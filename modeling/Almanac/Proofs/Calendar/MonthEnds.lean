import Almanac.Proofs.Calendar.Days

/-!
# The ends of months

A month has as many days as its length says, so the day before the next month is the one with that
number. December, which no month of its year follows, ends with the year.
-/

namespace Almanac.Date

variable {date next : Date}

def lastOfMonth (date : Date) : Date :=
  { date with
    day := monthLength date.year date.month
    day_bounds :=
      ⟨Nat.le_trans (by decide) (monthLength_bounds date.month_bounds date.year).1, Nat.le_refl _⟩ }

theorem ordinal_firstOfMonth (date : Date) :
    date.firstOfMonth.ordinal = daysBeforeYear date.year + daysBeforeMonth date.year date.month :=
  rfl

theorem ordinal_lastOfMonth (date : Date) :
    date.lastOfMonth.ordinal + 1 = date.firstOfMonth.ordinal +
      monthLength date.year date.month := by
  have hpos := (monthLength_bounds date.month_bounds date.year).1
  simp only [ordinal, firstOfMonth, lastOfMonth]
  omega

/-! ## The next month -/

theorem daysOf_take_succ (lengths : List Nat) (index : Nat) :
    daysOf (lengths.take (index + 1)) = daysOf (lengths.take index) + lengths.getD index 0 := by
  induction lengths generalizing index with
  | nil => simp
  | cons length lengths ih =>
      cases index with
      | zero => simp
      | succ index =>
          rw [List.take_succ_cons, List.take_succ_cons, daysOf_cons, daysOf_cons, ih,
            List.getD_cons_succ]
          omega

theorem daysBeforeMonth_succ {month : Nat} (h : 1 ≤ month) (year : Nat) :
    daysBeforeMonth year (month + 1) = daysBeforeMonth year month + monthLength year month := by
  have hm : month + 1 - 1 = month - 1 + 1 := by omega
  rw [daysBeforeMonth, hm, daysOf_take_succ]
  rfl

theorem ordinal_of_next_month (hy : next.year = date.year) (hm : next.month = date.month + 1)
    (hd : next.day = 1) : next.ordinal = date.lastOfMonth.ordinal + 1 := by
  rw [ordinal_lastOfMonth, ordinal_firstOfMonth, ordinal, hy, hm, hd,
    daysBeforeMonth_succ date.month_bounds.1]
  omega

theorem exists_next_month (h : date.month ≠ 12) : ∃ next, date.addMonths 1 = .ok next ∧
    next.year = date.year ∧ next.month = date.month + 1 ∧ next.day = 1 := by
  have hbounds := date.month_bounds
  have hnext : 1 ≤ date.month + 1 ∧ date.month + 1 ≤ 12 := by omega
  have hlength := (monthLength_bounds hnext date.year).1
  have hone : 1 ≤ monthLength date.year (date.month + 1) := by omega
  let next : Date := ⟨date.year, date.month + 1, 1, date.year_bounds, hnext, Nat.le_refl 1, hone⟩
  have hyear : (date.year : Int) + ((date.month : Int) + 1 - 1) / 12 = date.year := by omega
  have hmonth : ((date.month : Int) + 1 - 1) % 12 + 1 = date.month + 1 := by omega
  have hwide := date.year_bounds
  have hfields : ofFields? date.year (date.month + 1) 1 = some next :=
    ofFields?_eq_some_iff.2 ⟨rfl, rfl, rfl⟩
  refine ⟨next, ?_, rfl, rfl, rfl⟩
  rw [addMonths, monthStart, hyear, hmonth, if_neg (by omega), hfields]

/-! ## The last day -/

theorem lastOfMonth_of_december (h : date.month = 12) : date.lastOfMonth = date.lastOfYear := by
  have hlength : monthLength date.year date.month = 31 := by
    rw [h]
    rfl
  exact eq_iff_fields.2 ⟨rfl, h, hlength⟩

/-- The day before the next month, or the end of the year, is the day that the length of the month
tells. -/
theorem endOfMonth_eq (date : Date) : date.endOfMonth = .ok date.lastOfMonth := by
  by_cases h : date.month = 12
  · rw [endOfMonth, if_pos h, lastOfMonth_of_december h]
  · rcases exists_next_month h with ⟨next, hnext, hy, hm, hd⟩
    have hordinal := ordinal_of_next_month hy hm hd
    rw [endOfMonth, if_neg h, hnext]
    refine addDays_eq_ok_iff.2 ?_
    simp only [dayNumber]
    omega

theorem lastOfMonth_firstOfMonth (date : Date) :
    date.firstOfMonth.lastOfMonth = date.lastOfMonth := rfl

end Almanac.Date

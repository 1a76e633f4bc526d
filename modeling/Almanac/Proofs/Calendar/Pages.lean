import Almanac.Calendar.View
import Almanac.Proofs.Calendar.MonthEnds

/-!
# Pages as rows of days

The range of a page runs from the start of one day through the end of another that is not before it,
so it is a whole number of days.
-/

namespace Almanac

namespace Date

theorem dayNumber_firstOfMonth_le (date : Date) :
    date.firstOfMonth.dayNumber ≤ date.lastOfMonth.dayNumber := by
  have hd := date.day_bounds
  simp only [dayNumber, ordinal, firstOfMonth, lastOfMonth]
  omega

theorem dayNumber_firstOfYear_le (date : Date) :
    date.firstOfYear.dayNumber ≤ date.lastOfYear.dayNumber := by
  have hm : daysBeforeMonth date.year 1 = 0 := rfl
  simp only [dayNumber, ordinal, firstOfYear, lastOfYear, hm]
  omega

end Date

theorem View.month_days (date : Date) :
    View.month.days date = .ok (date.firstOfMonth, date.lastOfMonth) := by
  rw [days, Date.endOfMonth_eq, Date.lastOfMonth_firstOfMonth]
  rfl

theorem View.days_ordered {view : View} {date first last : Date}
    (h : view.days date = .ok (first, last)) :
    first.dayNumber ≤ last.dayNumber := by
  cases view with
  | day =>
      rcases Prod.mk.inj (Except.ok.inj h) with ⟨rfl, rfl⟩
      exact Int.le_refl _
  | week =>
      rcases bind_eq_ok_iff.1 h with ⟨sunday, -, hr⟩
      obtain ⟨saturday, hs, he⟩ := bind_eq_ok_iff.1 hr
      rcases Prod.mk.inj (Except.ok.inj he) with ⟨rfl, rfl⟩
      rw [Date.addDays_eq_ok_iff.1 hs]
      omega
  | month =>
      rw [month_days] at h
      rcases Prod.mk.inj (Except.ok.inj h) with ⟨rfl, rfl⟩
      exact date.dayNumber_firstOfMonth_le
  | year =>
      rcases Prod.mk.inj (Except.ok.inj h) with ⟨rfl, rfl⟩
      exact date.dayNumber_firstOfYear_le

theorem DateRange.days_of_date {range : DateRange} {first last : Date}
    (hs : Instant.date range.start = .ok first) (hl : Instant.date range.stop = .ok last) :
    range.days = .ok (last.dayNumber - first.dayNumber + 1) := by
  rw [days, hl, hs]
  rfl

theorem DateRange.days_of_dates (first last : Date) :
    days ⟨first.start, last.stop⟩ = .ok (last.dayNumber - first.dayNumber + 1) :=
  days_of_date (Instant.date_start first) (Instant.date_stop last)

/-- A page covers the days from one date through another. -/
theorem DateRange.exists_dates_of_page {view : View} {anchor : TimePoint} {range : DateRange}
    (h : page view anchor = .ok range) :
    ∃ first last : Date, range = ⟨first.start, last.stop⟩ ∧ first.dayNumber ≤ last.dayNumber := by
  rcases bind_eq_ok_iff.1 h with ⟨date, -, hd⟩
  obtain ⟨⟨first, last⟩, hv, he⟩ := bind_eq_ok_iff.1 hd
  exact ⟨first, last, (Except.ok.inj he).symm, View.days_ordered hv⟩

end Almanac

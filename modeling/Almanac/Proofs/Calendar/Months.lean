import Almanac.Proofs.Calendar.Partition

/-!
# Months in a row

The months of the calendar are numbered through its years. A step by months adds to this number and
a step by years adds twelve times as much, whatever carries into the year. So steps compose, and
they keep the order of time. A page of a month or of a year ends where the first day of the next one
starts, though its last day is found by its length.
-/

namespace Almanac

namespace Date

variable {date other first next : Date} {year month a b n : Int}

/-- The number of a date's month, counted through the years. -/
def monthIndex (date : Date) : Int := 12 * date.year + date.month - 1

theorem monthIndex_bounds (date : Date) : 12 ≤ date.monthIndex ∧ date.monthIndex ≤ 119999 := by
  have hy := date.year_bounds
  have hm := date.month_bounds
  simp only [monthIndex]
  omega

theorem exists_monthIndex {index : Int} (h : 12 ≤ index ∧ index ≤ 119999) :
    ∃ first : Date, first.monthIndex = index ∧ first.day = 1 := by
  have hy : 1 ≤ (index / 12).toNat ∧ (index / 12).toNat ≤ 9999 := by omega
  have hm : 1 ≤ (index % 12).toNat + 1 ∧ (index % 12).toNat + 1 ≤ 12 := by omega
  have hd := (monthLength_bounds hm (index / 12).toNat).1
  refine ⟨⟨_, _, 1, hy, hm, Nat.le_refl 1, by omega⟩, ?_, rfl⟩
  simp only [monthIndex]
  omega

/-! ## Carrying -/

/-- Carrying months into the year keeps the number of the month. -/
theorem monthStart_eq_ok_iff :
    monthStart year month = .ok first ↔
      first.monthIndex = 12 * year + month - 1 ∧ first.day = 1 := by
  have hy := first.year_bounds
  have hm := first.month_bounds
  have hfields : ofFields? (year + (month - 1) / 12) ((month - 1) % 12 + 1) 1 = some first ↔
      first.monthIndex = 12 * year + month - 1 ∧ first.day = 1 := by
    rw [ofFields?_eq_some_iff, monthIndex]
    omega
  rw [← hfields]
  simp only [monthStart]
  split
  · rw [ofFields?_eq_some_iff]
    constructor
    · intro h
      contradiction
    · intro h
      omega
  · cases ofFields? (year + (month - 1) / 12) ((month - 1) % 12 + 1) 1 <;> simp

/-- Why there is no month of a number: its year is outside the calendar, or even too wide for 32
bits. -/
def monthError (index : Int) : Error :=
  if index / 12 < -0x80000000 ∨ 0x80000000 ≤ index / 12 then .yearTooWide else .noSuchYear

theorem monthStart_eq_error {error : Error} (h : monthStart year month = .error error) :
    error = monthError (12 * year + month - 1) := by
  have hcarried : (12 * year + month - 1) / 12 = year + (month - 1) / 12 := by omega
  rw [monthError, hcarried]
  simp only [monthStart] at h
  split at h
  · rename_i hwide
    rw [if_pos hwide, ← Except.error.inj h]
  · rename_i hwide
    rw [if_neg hwide]
    split at h
    · contradiction
    · exact (Except.error.inj h).symm

theorem monthStart_of_not_bounded
    (h : ¬ (12 ≤ 12 * year + month - 1 ∧ 12 * year + month - 1 ≤ 119999)) :
    monthStart year month = .error (monthError (12 * year + month - 1)) := by
  cases hs : monthStart year month with
  | error error => rw [monthStart_eq_error hs]
  | ok first =>
      have hb := monthIndex_bounds first
      rw [(monthStart_eq_ok_iff.1 hs).1] at hb
      exact absurd hb h

theorem monthStart_congr {year' month' : Int} (h : 12 * year + month = 12 * year' + month') :
    monthStart year month = monthStart year' month' := by
  have hy : year + (month - 1) / 12 = year' + (month' - 1) / 12 := by omega
  have hm : (month - 1) % 12 = (month' - 1) % 12 := by omega
  rw [monthStart, monthStart, hy, hm]

/-! ## Steps from a date -/

theorem monthIndex_add (date : Date) (n : Int) :
    12 * (date.year : Int) + (date.month + n) - 1 = date.monthIndex + n := by
  rw [monthIndex]
  omega

theorem addMonths_eq_ok_iff : date.addMonths n = .ok first ↔
    first.monthIndex = date.monthIndex + n ∧ first.day = 1 := by
  rw [addMonths, monthStart_eq_ok_iff, monthIndex_add]

theorem addMonths_of_not_bounded (h : ¬ (12 ≤ date.monthIndex + n ∧ date.monthIndex + n ≤ 119999)) :
    date.addMonths n = .error (monthError (date.monthIndex + n)) := by
  rw [← monthIndex_add] at h ⊢
  exact monthStart_of_not_bounded h

theorem addMonths_congr (h : date.monthIndex + a = other.monthIndex + b) :
    date.addMonths a = other.addMonths b := by
  simp only [monthIndex] at h
  exact monthStart_congr (by omega)

theorem addYears_eq_addMonths (date : Date) (n : Int) : date.addYears n = date.addMonths (12 * n) :=
  monthStart_congr (by omega)

/-! ## Order -/

theorem dayNumber_lt_of_monthIndex_lt (h : other.monthIndex < date.monthIndex) :
    other.dayNumber < date.dayNumber := by
  have ho := other.month_bounds
  have hd := date.month_bounds
  simp only [monthIndex] at h
  simp only [dayNumber]
  rcases Nat.lt_trichotomy other.year date.year with hy | hy | hy
  · have hmono := @daysBeforeYear_mono (other.year + 1) date.year hy
    have hother := (ordinal_bounds other).2
    have hdate := (ordinal_bounds date).1
    omega
  · have hmonths := @lastOfMonth_lt_firstOfMonth date other hy (by omega)
    have hother := (ordinal_bounds_month other).2
    have hdate := (ordinal_bounds_month date).1
    omega
  · omega

/-! ## The next month -/

/-- A month ends on the day before the next one. -/
theorem dayNumber_of_next_month (hi : next.monthIndex = date.monthIndex + 1) (hd : next.day = 1) :
    next.dayNumber = date.lastOfMonth.dayNumber + 1 := by
  have hmonth := date.month_bounds
  have hnext := next.month_bounds
  simp only [monthIndex] at hi
  have hlast : next.ordinal = date.lastOfMonth.ordinal + 1 := by
    -- the month after December is the first of another year, before which days are counted by years
    by_cases hdecember : date.month = 12
    · have hy : next.year = date.year + 1 := by omega
      have hm : next.month = 1 := by omega
      rw [lastOfMonth_of_december hdecember, ordinal_lastOfYear, ordinal, hy, hm, hd]
      rfl
    · have hy : next.year = date.year := by omega
      have hm : next.month = date.month + 1 := by omega
      exact ordinal_of_next_month hy hm hd
  simp only [dayNumber]
  omega

theorem start_of_next_day (h : next.dayNumber = date.dayNumber + 1) :
    next.start = date.stop + 1 := by
  rw [stop_eq, start_eq, start_eq, h]
  simp only [dayMillis, Instant]
  omega

end Date

/-! ## Steps from an instant -/

namespace Instant

variable {t start stop : Instant} {found : Date} {a b n : Int}

theorem addMonths_of_date (h : date t = .ok found) (n : Int) :
    addMonths t n = (found.addMonths n).map (·.start) := by
  rw [addMonths, h]
  rfl

theorem addYears_of_date (h : date t = .ok found) (n : Int) :
    addYears t n = (found.addYears n).map (·.start) := by
  rw [addYears, h]
  rfl

theorem addMonths_eq_ok_iff (h : date t = .ok found) : addMonths t n = .ok start ↔
    ∃ first : Date, (first.monthIndex = found.monthIndex + n ∧ first.day = 1) ∧
      first.start = start := by
  rw [addMonths_of_date h, map_eq_ok_iff]
  simp only [Date.addMonths_eq_ok_iff]

theorem addMonths_of_not_bounded (h : date t = .ok found)
    (hn : ¬ (12 ≤ found.monthIndex + n ∧ found.monthIndex + n ≤ 119999)) :
    addMonths t n = .error (Date.monthError (found.monthIndex + n)) := by
  rw [addMonths_of_date h, Date.addMonths_of_not_bounded hn]
  rfl

theorem addMonths_addMonths (h : addMonths t a = .ok start) :
    addMonths start b = addMonths t (a + b) := by
  rcases bind_eq_ok_iff.1 h with ⟨found, hd, -⟩
  rcases (addMonths_eq_ok_iff hd).1 h with ⟨first, ⟨hi, -⟩, rfl⟩
  have hsum : first.monthIndex + b = found.monthIndex + (a + b) := by omega
  rw [addMonths_of_date (date_start first), addMonths_of_date hd, Date.addMonths_congr hsum]

theorem addYears_eq_addMonths (t : Instant) (n : Int) : addYears t n = addMonths t (12 * n) := by
  cases hd : date t with
  | error error =>
      rw [addYears, addMonths, hd]
      rfl
  | ok found => rw [addYears_of_date hd, addMonths_of_date hd, Date.addYears_eq_addMonths]

theorem addMonths_lt_addMonths (ha : addMonths t a = .ok start) (hb : addMonths t b = .ok stop)
    (h : a < b) :
    start < stop := by
  rcases bind_eq_ok_iff.1 ha with ⟨found, hd, -⟩
  rcases (addMonths_eq_ok_iff hd).1 ha with ⟨first, ⟨hfirst, -⟩, rfl⟩
  rcases (addMonths_eq_ok_iff hd).1 hb with ⟨last, ⟨hlast, -⟩, rfl⟩
  have hdays := @Date.dayNumber_lt_of_monthIndex_lt last first (by omega)
  rw [Date.start_eq, Date.start_eq]
  simp only [dayMillis, Instant]
  omega

/-! ## Pages -/

theorem addMonths_zero (h : date t = .ok found) : addMonths t 0 = .ok found.firstOfMonth.start :=
  (addMonths_eq_ok_iff h).2 ⟨found.firstOfMonth, ⟨(Int.add_zero _).symm, rfl⟩, rfl⟩

theorem addMonths_one (h : date t = .ok found) (hn : found.monthIndex ≠ 119999) :
    addMonths t 1 = .ok (found.lastOfMonth.stop + 1) := by
  have hb := found.monthIndex_bounds
  have ⟨next, hi, hday⟩ := @Date.exists_monthIndex (found.monthIndex + 1) (by omega)
  exact (addMonths_eq_ok_iff h).2 ⟨next, ⟨hi, hday⟩,
    Date.start_of_next_day (Date.dayNumber_of_next_month hi hday)⟩

theorem addYears_one (h : found.year ≠ 9999) :
    addYears found.firstOfYear.start 1 = .ok (found.lastOfYear.stop + 1) := by
  have hy := found.year_bounds
  have hfirst : found.lastOfYear.monthIndex + 1 = found.firstOfYear.monthIndex + 12 * 1 := by
    simp only [Date.monthIndex, Date.lastOfYear, Date.firstOfYear]
    omega
  have hb : 12 ≤ found.lastOfYear.monthIndex + 1 ∧ found.lastOfYear.monthIndex + 1 ≤ 119999 := by
    simp only [Date.monthIndex, Date.lastOfYear]
    omega
  rcases Date.exists_monthIndex hb with ⟨next, hi, hday⟩
  have hlast : found.lastOfYear.lastOfMonth = found.lastOfYear := Date.lastOfMonth_of_december rfl
  have hdays := Date.dayNumber_of_next_month hi hday
  rw [hlast] at hdays
  rw [addYears_eq_addMonths, addMonths_eq_ok_iff (date_start found.firstOfYear)]
  exact ⟨next, ⟨hi.trans hfirst, hday⟩, Date.start_of_next_day hdays⟩

/-- Months are stepped by adding to their number, up to the ends of the calendar. Two steps make
one, a step by years is one by twelve times as many months, and later months start later. The page
of a month starts with the month and ends where the next one starts, and so does the page of a
year. -/
theorem month_steps_agree_with_pages {point : TimePoint} {t : Instant} (ht : point.instant = .ok t)
    (h : t.IsDated) :
    ∃ found, Instant.date t = .ok found ∧
      (∀ n, if 12 ≤ found.monthIndex + n ∧ found.monthIndex + n ≤ 119999 then
          ∃ start first, addMonths t n = .ok start ∧
            Instant.dateTime start = .ok ⟨first, .midnight⟩ ∧
            first.monthIndex = found.monthIndex + n ∧ first.day = 1
        else addMonths t n = .error (Date.monthError (found.monthIndex + n))) ∧
      (∀ a b start, addMonths t a = .ok start → addMonths start b = addMonths t (a + b)) ∧
      (∀ n, addYears t n = addMonths t (12 * n)) ∧
      (∀ a b start stop, addMonths t a = .ok start → addMonths t b = .ok stop → a < b →
        start < stop) ∧
      (∃ range, DateRange.page .month point = .ok range ∧ addMonths t 0 = .ok range.start ∧
        (¬ (found.year = 9999 ∧ found.month = 12) → addMonths t 1 = .ok (range.stop + 1))) ∧
      ∃ range, DateRange.page .year point = .ok range ∧
        (found.year ≠ 9999 → addYears range.start 1 = .ok (range.stop + 1)) := by
  have ⟨found, hd⟩ := exists_date h
  have hpoint := TimePoint.date_of_instant ht hd
  refine ⟨found, hd, ?_, fun a b start ha => addMonths_addMonths ha, addYears_eq_addMonths t,
    fun a b start stop ha hb hab => addMonths_lt_addMonths ha hb hab, ?_, ?_⟩
  · intro n
    split
    · rename_i hb
      have ⟨first, hi, hday⟩ := Date.exists_monthIndex hb
      exact ⟨first.start, first, (addMonths_eq_ok_iff hd).2 ⟨first, ⟨hi, hday⟩, rfl⟩,
        dateTime_start first, hi, hday⟩
    · rename_i hb
      exact addMonths_of_not_bounded hd hb
  · have hpage := DateRange.month_page_of_date hpoint
    refine ⟨_, hpage, addMonths_zero hd, fun hlast => ?_⟩
    apply addMonths_one hd
    have hy := found.year_bounds
    have hm := found.month_bounds
    simp only [Date.monthIndex]
    omega
  · have hpage := @DateRange.page_of_date .year point found hpoint
    exact ⟨_, hpage, fun hlast => addYears_one hlast⟩

/-- In December, the last instant before 1970: back over a month end, and on past the year 9999. -/
theorem month_steps_agree_with_pages_in_december :
    (TimePoint.ofInstant (-1)).instant = .ok (-1) ∧ IsDated (-1) ∧
      addMonths (-1) (-1) = .ok (-5270400000) ∧
      (∀ b, addMonths (-5270400000) b = addMonths (-1) (-1 + b)) ∧
      addMonths (-1) 96361 = .error .noSuchYear ∧
      (∃ range, DateRange.page .month (.ofInstant (-1)) = .ok range ∧
        addMonths (-1) 1 = .ok (range.stop + 1)) ∧
      ∃ range, DateRange.page .year (.ofInstant (-1)) = .ok range ∧
        addYears range.start 1 = .ok (range.stop + 1) := by
  have hfields : (Instant.date (-1)).map (fun found => (found.year, found.month)) =
      .ok (1969, 12) := by decide +kernel
  have hnovember : addMonths (-1) (-1) = .ok (-5270400000) := by decide +kernel
  have hdated : IsDated (-1) := by decide
  have ⟨found, hd, hsteps, hsum, _, _, ⟨month, hmonth, _, hnext⟩, year, hyear, hafter⟩ :=
    month_steps_agree_with_pages (TimePoint.instant_ofInstant (-1)) hdated
  rw [hd] at hfields
  have ⟨hy, hm⟩ := Prod.mk.inj (Except.ok.inj hfields)
  have hindex : found.monthIndex = 23639 := by rw [Date.monthIndex, hy, hm]; rfl
  have hbeyond := hsteps 96361
  rw [hindex, if_neg (by decide)] at hbeyond
  exact ⟨rfl, hdated, hnovember, fun b => hsum (-1) b _ hnovember, hbeyond,
    ⟨month, hmonth, hnext (by omega)⟩, year, hyear, hafter (by omega)⟩

end Instant

end Almanac

import Almanac.Proofs.Calendar.Pages
import Almanac.Proofs.Calendar.Periods

/-!
# Pages partition the calendar

The page of a date shows the dates that share its day, week, month or year, and no others. So two
pages of one view are equal or apart, and every instant of a page has that page. Only the page of a
week can be missing, where the calendar does not reach the whole week.
-/

namespace Almanac

namespace View

variable {view : View} {date other first last : Date}

def Joins (view : View) (date other : Date) : Prop :=
  match view with
  | .day => other.year = date.year ∧ other.month = date.month ∧ other.day = date.day
  | .week => other.sundayNumber = date.sundayNumber
  | .month => other.year = date.year ∧ other.month = date.month
  | .year => other.year = date.year

theorem week_days_eq_ok_iff : View.week.days date = .ok (first, last) ↔
    first.dayNumber = date.sundayNumber ∧ last.dayNumber = date.sundayNumber + 6 := by
  constructor
  · intro h
    rcases bind_eq_ok_iff.1 h with ⟨sunday, hs, hr⟩
    rcases bind_eq_ok_iff.1 hr with ⟨saturday, he, hp⟩
    obtain ⟨rfl, rfl⟩ := Prod.mk.inj (Except.ok.inj hp)
    rw [Date.startOfWeek_eq_ok_iff] at hs
    rw [Date.addDays_eq_ok_iff, hs] at he
    exact ⟨hs, he⟩
  · intro h
    have hsunday : date.startOfWeek = .ok first := Date.startOfWeek_eq_ok_iff.2 h.1
    have hsaturday : first.addDays 6 = .ok last := Date.addDays_eq_ok_iff.2 (by rw [h.2, h.1])
    simp only [days, hsunday, hsaturday, bind, Except.bind]
    rfl

/-- A page shows the dates that share its period. -/
theorem joins_iff_between (h : view.days date = .ok (first, last)) :
    view.Joins date other ↔
      first.dayNumber ≤ other.dayNumber ∧ other.dayNumber ≤ last.dayNumber := by
  cases view with
  | day =>
      obtain ⟨rfl, rfl⟩ := Prod.mk.inj (Except.ok.inj h)
      have hday : View.day.Joins date other ↔ other.dayNumber = date.dayNumber :=
        Date.eq_iff_fields.symm.trans Date.dayNumber_inj.symm
      rw [hday]
      omega
  | week =>
      have hweek := week_days_eq_ok_iff.1 h
      rw [hweek.1, hweek.2]
      exact Date.sundayNumber_eq_iff_between
  | month =>
      rw [month_days] at h
      obtain ⟨rfl, rfl⟩ := Prod.mk.inj (Except.ok.inj h)
      exact Date.month_eq_iff_between
  | year =>
      obtain ⟨rfl, rfl⟩ := Prod.mk.inj (Except.ok.inj h)
      exact Date.year_eq_iff_between

theorem days_of_joins (hj : view.Joins date other) (h : view.days date = .ok (first, last)) :
    view.days other = .ok (first, last) := by
  cases view with
  | day =>
      rw [Date.eq_iff_fields.2 hj]
      exact h
  | week =>
      have hweek := week_days_eq_ok_iff.1 h
      have hlast := congrArg (· + 6) hj.symm
      exact week_days_eq_ok_iff.2 ⟨hweek.1.trans hj.symm, hweek.2.trans hlast⟩
  | month =>
      rw [month_days] at h
      obtain ⟨rfl, rfl⟩ := Prod.mk.inj (Except.ok.inj h)
      have hf : other.firstOfMonth = date.firstOfMonth := Date.eq_iff_fields.2 ⟨hj.1, hj.2, rfl⟩
      have hl : other.lastOfMonth = date.lastOfMonth :=
        Date.eq_iff_fields.2 ⟨hj.1, hj.2, by simp only [Date.lastOfMonth, hj.1, hj.2]⟩
      rw [month_days, hf, hl]
  | year =>
      obtain ⟨rfl, rfl⟩ := Prod.mk.inj (Except.ok.inj h)
      have hf : other.firstOfYear = date.firstOfYear := Date.eq_iff_fields.2 ⟨hj, rfl, rfl⟩
      have hl : other.lastOfYear = date.lastOfYear := Date.eq_iff_fields.2 ⟨hj, rfl, rfl⟩
      rw [days, hf, hl]

theorem eq_outsideCalendar_of_week_days {error : Error} (h : View.week.days date = .error error) :
    error = .outsideCalendar := by
  rcases bind_eq_error_iff.1 h with hs | ⟨sunday, -, hr⟩
  · exact Date.eq_outsideCalendar_of_addDays hs
  · rcases bind_eq_error_iff.1 hr with he | ⟨saturday, -, hp⟩
    · exact Date.eq_outsideCalendar_of_addDays he
    · contradiction

/-- Only a week has no page, and it has none exactly if the calendar does not reach all of it. -/
theorem days_eq_error_iff {error : Error} :
    view.days date = .error error ↔
      error = .outsideCalendar ∧ view = .week ∧ ¬ date.HasWholeWeek := by
  cases view with
  | week =>
      have hwhole : date.HasWholeWeek ↔ ∃ first last, View.week.days date = .ok (first, last) := by
        simp only [Date.hasWholeWeek_iff, week_days_eq_ok_iff]
      rw [hwhole]
      constructor
      · intro h
        refine ⟨eq_outsideCalendar_of_week_days h, rfl, ?_⟩
        intro hdays
        rcases hdays with ⟨first, last, hok⟩
        rw [h] at hok
        contradiction
      · intro hmissing
        cases h : View.week.days date with
        | error other => rw [eq_outsideCalendar_of_week_days h, hmissing.1]
        | ok pair => exact absurd ⟨pair.1, pair.2, h⟩ hmissing.2.2
  | month => simp [month_days]
  | _ => simp [days]

end View

namespace DateRange

variable {view : View} {anchor point : TimePoint} {date : Date} {range : DateRange} {t : Instant}

theorem contains_eq_ok_true_iff (h : point.instant = .ok t) :
    range.contains point = .ok true ↔ range.start ≤ t ∧ t ≤ range.stop := by
  simp [contains, h, Except.map, holds]

theorem contains_ofInstant_iff : range.contains (.ofInstant t) = .ok true ↔
    range.start ≤ t ∧ t ≤ range.stop :=
  contains_eq_ok_true_iff (TimePoint.instant_ofInstant t)

theorem page_of_date (h : anchor.date = .ok date) :
    page view anchor = (view.days date).map fun days => ⟨days.1.start, days.2.stop⟩ := by
  rw [page, h]
  cases hd : view.days date <;> simp [bind, Except.bind, hd, Except.map, pure, Except.pure]

theorem month_page_of_date (h : anchor.date = .ok date) :
    page .month anchor = .ok ⟨date.firstOfMonth.start, date.lastOfMonth.stop⟩ := by
  rw [page_of_date h, View.month_days]
  rfl

theorem page_eq_ok_iff (h : anchor.date = .ok date) : page view anchor = .ok range ↔
    ∃ first last, view.days date = .ok (first, last) ∧ range = ⟨first.start, last.stop⟩ := by
  rw [page_of_date h, map_eq_ok_iff]
  constructor
  · intro h
    rcases h with ⟨⟨first, last⟩, hd, rfl⟩
    exact ⟨first, last, hd, rfl⟩
  · intro h
    rcases h with ⟨first, last, hd, rfl⟩
    exact ⟨(first, last), hd, rfl⟩

theorem page_eq_error_iff (h : anchor.date = .ok date) {error : Error} :
    page view anchor = .error error ↔ view.days date = .error error := by
  rw [page_of_date h]
  cases view.days date <;> simp [Except.map]

theorem exists_page (hv : view ≠ .week) {a : Instant} (ha : anchor.instant = .ok a)
    (hs : a.IsDated) :
    ∃ range, page view anchor = .ok range := by
  obtain ⟨date, hdate⟩ := Instant.exists_date hs
  have hanchor := TimePoint.date_of_instant ha hdate
  cases hp : page view anchor with
  | ok range => exact ⟨range, rfl⟩
  | error error =>
      rw [page_eq_error_iff hanchor, View.days_eq_error_iff] at hp
      exact absurd hp.2.1 hv

theorem between_iff_date {first last : Date} : first.start ≤ t ∧ t ≤ last.stop ↔
    ∃ other, Instant.date t = .ok other ∧ first.dayNumber ≤ other.dayNumber ∧
      other.dayNumber ≤ last.dayNumber := by
  have hf := Date.dayNumber_bounds first
  have hl := Date.dayNumber_bounds last
  simp only [Instant.date_eq_ok_iff]
  constructor
  · intro h
    have hdays : first.dayNumber ≤ t / dayMillis ∧ t / dayMillis ≤ last.dayNumber := by
      simp only [Date.stop_eq, Date.start_eq, dayMillis, Instant] at h ⊢
      omega
    have hbounds : -719162 ≤ t / dayMillis ∧ t / dayMillis ≤ 2932896 :=
      ⟨Int.le_trans hf.1 hdays.1, Int.le_trans hdays.2 hl.2⟩
    obtain ⟨other, ho⟩ := Date.exists_dayNumber hbounds
    rw [← ho] at hdays
    exact ⟨other, ho, hdays⟩
  · intro h
    rcases h with ⟨other, ho, hs, he⟩
    simp only [Date.stop_eq, Date.start_eq, dayMillis, Instant] at ho ⊢
    omega

theorem contains_iff_joins (h : anchor.date = .ok date) (hp : page view anchor = .ok range) :
    range.contains (.ofInstant t) = .ok true ↔
      ∃ other, Instant.date t = .ok other ∧ view.Joins date other := by
  obtain ⟨first, last, hd, rfl⟩ := (page_eq_ok_iff h).1 hp
  simp only [contains_ofInstant_iff, between_iff_date, View.joins_iff_between hd]

theorem page_of_contains (h : anchor.date = .ok date) (hp : page view anchor = .ok range)
    (hc : range.contains point = .ok true) : page view point = .ok range := by
  obtain ⟨t, ht, hholds⟩ := map_eq_ok_iff.1 hc
  have hcontains : range.contains (.ofInstant t) = .ok true := by
    rw [contains_ofInstant_iff, ← contains_eq_ok_true_iff ht]
    exact hc
  obtain ⟨other, ho, hj⟩ := (contains_iff_joins h hp).1 hcontains
  have hpoint := TimePoint.date_of_instant ht ho
  obtain ⟨first, last, hd, rfl⟩ := (page_eq_ok_iff h).1 hp
  exact (page_eq_ok_iff hpoint).2 ⟨first, last, View.days_of_joins hj hd, rfl⟩

theorem contains_anchor (h : anchor.date = .ok date) (hp : page view anchor = .ok range) :
    range.contains anchor = .ok true := by
  obtain ⟨t, ht, hdate⟩ := bind_eq_ok_iff.1 h
  rw [contains_eq_ok_true_iff ht, ← contains_ofInstant_iff, contains_iff_joins h hp]
  obtain ⟨first, last, hd, rfl⟩ := (page_eq_ok_iff h).1 hp
  refine ⟨date, hdate, ?_⟩
  cases view <;> simp [View.Joins]

theorem exists_date_of_page (hp : page view anchor = .ok range) :
    ∃ date, anchor.date = .ok date := by
  obtain ⟨date, hd, -⟩ := bind_eq_ok_iff.1 hp
  exact ⟨date, hd⟩

theorem eq_of_contains {next : DateRange} (hp : page view anchor = .ok range)
    (hn : page view point = .ok next)
    (hr : range.contains (.ofInstant t) = .ok true) (hc : next.contains (.ofInstant t) = .ok true) :
    next = range := by
  obtain ⟨date, hd⟩ := exists_date_of_page hp
  obtain ⟨other, ho⟩ := exists_date_of_page hn
  have hfirst := page_of_contains hd hp hr
  have hsecond := page_of_contains ho hn hc
  exact Except.ok.inj (hsecond.symm.trans hfirst)

theorem bounds_of_page (hp : page view (.ofInstant t) = .ok range) :
    range.start ≤ t ∧ t ≤ range.stop := by
  rcases exists_date_of_page hp with ⟨date, hd⟩
  exact contains_ofInstant_iff.1 (contains_anchor hd hp)

theorem start_le_stop_of_page (hp : page view anchor = .ok range) : range.start ≤ range.stop := by
  obtain ⟨first, last, rfl, hle⟩ := exists_dates_of_page hp
  exact Date.start_le_stop_iff.2 hle

/-- Two pages of one view are the same, or one ends before the other starts. -/
theorem eq_or_apart {next : DateRange} (hp : page view anchor = .ok range)
    (hn : page view point = .ok next) :
    next = range ∨ next.stop < range.start ∨ range.stop < next.start := by
  have hrange := start_le_stop_of_page hp
  have hnext := start_le_stop_of_page hn
  by_cases hmeet : range.start ≤ next.stop ∧ next.start ≤ range.stop
  · left
    rcases Int.le_total next.start range.start with h | h
    · have hr : range.contains (.ofInstant range.start) = .ok true :=
        contains_ofInstant_iff.2 ⟨Int.le_refl _, hrange⟩
      exact eq_of_contains hp hn hr (contains_ofInstant_iff.2 ⟨h, hmeet.1⟩)
    · have hr : range.contains (.ofInstant next.start) = .ok true :=
        contains_ofInstant_iff.2 ⟨h, hmeet.2⟩
      exact eq_of_contains hp hn hr (contains_ofInstant_iff.2 ⟨Int.le_refl _, hnext⟩)
  · right
    simp only [Instant] at hmeet ⊢
    omega

theorem start_of_page_after {next : DateRange} (hp : page view anchor = .ok range)
    (hn : page view (.ofInstant (range.stop + 1)) = .ok next) : next.start = range.stop + 1 := by
  have hbounds := bounds_of_page hn
  have hrange := start_le_stop_of_page hp
  rcases eq_or_apart hp hn with rfl | h | h <;> simp only [Instant] at * <;> omega

theorem stop_of_page_before {previous : DateRange} (hp : page view anchor = .ok range)
    (hn : page view (.ofInstant (range.start - 1)) = .ok previous) :
    previous.stop = range.start - 1 := by
  have hbounds := bounds_of_page hn
  have hrange := start_le_stop_of_page hp
  rcases eq_or_apart hp hn with rfl | h | h <;> simp only [Instant] at * <;> omega

/-- The page of an anchor contains the instants of the calendar that share its day, week, month or
year. Pages of one view do not overlap and follow one another without a gap, and each instant of a
page has that page. Only the page of a week can fail, and does so exactly if the calendar does not
reach the whole week. -/
theorem pages_partition_calendar (view : View) {anchor : TimePoint} {a : Instant}
    (ha : anchor.instant = .ok a) (hs : a.IsDated) :
    ∃ date, Instant.date a = .ok date ∧
      (∀ error, page view anchor = .error error ↔
        error = .outsideCalendar ∧ view = .week ∧ ¬ date.HasWholeWeek) ∧
      ∀ range, page view anchor = .ok range →
        (∀ t, range.contains (.ofInstant t) = .ok true ↔
          t.IsDated ∧ ∃ other, Instant.date t = .ok other ∧ view.Joins date other) ∧
        range.contains anchor = .ok true ∧
        (∀ point, range.contains point = .ok true → page view point = .ok range) ∧
        (∀ point other, page view point = .ok other →
          other = range ∨ other.stop < range.start ∨ range.stop < other.start) ∧
        (∀ next, page view (.ofInstant (range.stop + 1)) = .ok next → next.start = range.stop + 1) ∧
        ∀ previous, page view (.ofInstant (range.start - 1)) = .ok previous →
          previous.stop = range.start - 1 := by
  obtain ⟨date, hdate⟩ := Instant.exists_date hs
  have hanchor : anchor.date = .ok date := bind_eq_ok_iff.2 ⟨a, ha, hdate⟩
  refine ⟨date, hdate, ?_, ?_⟩
  · intro error
    rw [page_eq_error_iff hanchor, View.days_eq_error_iff]
  · intro range hp
    refine ⟨?_, contains_anchor hanchor hp, ?_, ?_, ?_, ?_⟩
    · intro t
      rw [contains_iff_joins hanchor hp]
      constructor
      · intro h
        rcases h with ⟨other, ho, hj⟩
        exact ⟨Instant.isDated_of_date ho, other, ho, hj⟩
      · intro h
        exact h.2
    · intro point hc
      exact page_of_contains hanchor hp hc
    · intro point other ho
      exact eq_or_apart hp ho
    · intro next hn
      exact start_of_page_after hp hn
    · intro previous hn
      exact stop_of_page_before hp hn

theorem pages_partition_calendar_at_epoch :
    ∃ date, Instant.date (-1) = .ok date ∧
      (∀ error, page .week (.ofInstant (-1)) = .error error ↔
        error = .outsideCalendar ∧ View.week = .week ∧ ¬ date.HasWholeWeek) ∧
      page .week (.ofInstant (-1)) = .ok ⟨-345600000, 259199999⟩ ∧
      ∀ t, contains ⟨-345600000, 259199999⟩ (.ofInstant t) = .ok true ↔
        t.IsDated ∧ ∃ other, Instant.date t = .ok other ∧ View.week.Joins date other := by
  obtain ⟨date, hd, herror, hpage⟩ :=
    @pages_partition_calendar .week (.ofInstant (-1)) (-1) rfl (by decide)
  have hweek : page .week (.ofInstant (-1)) = .ok ⟨-345600000, 259199999⟩ := by decide +kernel
  exact ⟨date, hd, herror, hweek, (hpage _ hweek).1⟩

end DateRange

end Almanac

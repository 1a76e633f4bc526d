import Almanac.Proofs.Calendar.Partition

/-!
# Month grids

The grid of a month is its days between two stretches of padding. The first stretch is as long as
the weekday of the month's first day, so that each day stands in the column of its weekday; the
second one fills the last row. Both are shorter than a row, and no row is left without a day.
-/

namespace Almanac

namespace Date

variable {date other : Date} {i : Nat} {cell : GridCell} {day : Instant}

def daysOfMonth (date : Date) : List Instant := date.firstOfMonth.startsThrough date.lastOfMonth

def leading (date : Date) : Nat := date.firstOfMonth.weekday

def trailing (date : Date) : Nat := (7 - (date.leading + date.daysOfMonth.length) % 7) % 7

def monthGrid (date : Date) : List GridCell :=
  List.replicate date.leading .padding ++ date.daysOfMonth.map .ofDay ++
    List.replicate date.trailing .padding

theorem leading_lt (date : Date) : date.leading < 7 := weekday_lt date.firstOfMonth

theorem trailing_lt (date : Date) : date.trailing < 7 := by
  rw [trailing]
  omega

theorem length_monthGrid (date : Date) :
    date.monthGrid.length = date.leading + date.daysOfMonth.length + date.trailing := by
  simp [monthGrid, Nat.add_assoc]

theorem dvd_length_monthGrid (date : Date) : 7 ∣ date.monthGrid.length := by
  rw [length_monthGrid, trailing]
  omega

theorem length_daysOfMonth_pos (date : Date) : 0 < date.daysOfMonth.length := by
  have hle := dayNumber_firstOfMonth_le date
  exact List.length_pos_of_ne_nil (startsThrough_ne_nil (by omega))

theorem filterMap_day_monthGrid (date : Date) :
    date.monthGrid.filterMap (·.day) = date.daysOfMonth := by
  have hpadding : ∀ n, (List.replicate n GridCell.padding).filterMap (·.day) = [] := by
    intro n
    simp [GridCell.padding]
  have hdays : (date.daysOfMonth.map GridCell.ofDay).filterMap (·.day) = date.daysOfMonth := by
    rw [List.filterMap_map]
    exact List.filterMap_some
  rw [monthGrid, List.filterMap_append, List.filterMap_append, hpadding, hpadding, hdays,
    List.nil_append, List.append_nil]

theorem inMonth_iff_of_mem_monthGrid (h : cell ∈ date.monthGrid) : cell.inMonth = true ↔
    cell.day.isSome = true := by
  have hcell : cell = .padding ∨ ∃ day, cell = .ofDay day := by
    simp only [monthGrid, List.mem_append, List.mem_replicate, List.mem_map] at h
    rcases h with (⟨-, rfl⟩ | ⟨day, -, rfl⟩) | ⟨-, rfl⟩
    · exact .inl rfl
    · exact .inr ⟨day, rfl⟩
    · exact .inl rfl
  rcases hcell with rfl | ⟨day, rfl⟩
  · simp [GridCell.padding]
  · simp [GridCell.ofDay]

/-! ## Columns -/

theorem getElem?_daysOfMonth (h : i < date.daysOfMonth.length) :
    date.daysOfMonth[i]? = some (date.firstOfMonth.start + i * dayMillis) :=
  getElem?_startsThrough h

theorem getElem?_monthGrid (h : i < date.daysOfMonth.length) :
    date.monthGrid[date.leading + i]? =
      some (.ofDay (date.firstOfMonth.start + i * dayMillis)) := by
  have hpadding : (List.replicate date.leading GridCell.padding).length = date.leading :=
    List.length_replicate
  rw [monthGrid, List.append_assoc, List.getElem?_append_right (by omega), hpadding,
    Nat.add_sub_cancel_left, List.getElem?_append_left (by simpa using h), List.getElem?_map,
    getElem?_daysOfMonth h]
  rfl

theorem exists_of_getElem?_monthGrid (hi : date.monthGrid[i]? = some cell)
    (hd : cell.day = some day) :
    ∃ k, i = date.leading + k ∧ day = date.firstOfMonth.start + k * dayMillis := by
  have hpadding : cell ≠ .padding := by
    rintro rfl
    contradiction
  simp only [monthGrid, List.getElem?_append, List.length_append, List.length_replicate,
    List.length_map, List.getElem?_replicate] at hi
  -- the cell stands before the days, among them, behind them or behind the grid
  split at hi
  · split at hi
    · exact absurd (Option.some.inj hi).symm hpadding
    · have hk : i - date.leading < date.daysOfMonth.length := by omega
      rw [List.getElem?_map, getElem?_daysOfMonth hk] at hi
      obtain rfl := Option.some.inj hi
      exact ⟨i - date.leading, by omega, (Option.some.inj hd).symm⟩
  · split at hi
    · exact absurd (Option.some.inj hi).symm hpadding
    · contradiction

theorem weekday_of_getElem?_monthGrid (hi : date.monthGrid[i]? = some cell)
    (hd : cell.day = some day) :
    (day / dayMillis + 4) % 7 = (i % 7 : Nat) := by
  rcases exists_of_getElem?_monthGrid hi hd with ⟨k, rfl, rfl⟩
  rw [start_eq, leading, weekday]
  simp only [dayMillis, Instant]
  omega

/-! ## Rows -/

/-- The leading padding is too short for the first row and the trailing padding for any other. -/
theorem exists_day_in_row {row : Nat} (h : 7 * row < date.monthGrid.length) :
    ∃ i cell, i / 7 = row ∧ date.monthGrid[i]? = some cell ∧ cell.inMonth = true := by
  have hlength := length_monthGrid date
  have hwhole := dvd_length_monthGrid date
  have hdays := length_daysOfMonth_pos date
  have hleading := leading_lt date
  have htrailing := trailing_lt date
  have hk : 7 * row - date.leading < date.daysOfMonth.length := by omega
  exact ⟨date.leading + (7 * row - date.leading), _, by omega, getElem?_monthGrid hk, rfl⟩

/-! ## Months -/

theorem monthGrid_congr (hy : other.year = date.year) (hm : other.month = date.month) :
    other.monthGrid = date.monthGrid := by
  have hjoins : View.month.Joins date other := ⟨hy, hm⟩
  have hpages : View.month.days other = .ok (date.firstOfMonth, date.lastOfMonth) :=
    View.days_of_joins hjoins (View.month_days date)
  rw [View.month_days] at hpages
  have ⟨hfirst, hlast⟩ := Prod.mk.inj (Except.ok.inj hpages)
  rw [monthGrid, monthGrid, leading, leading, trailing, trailing, leading, leading, daysOfMonth,
    daysOfMonth, hfirst, hlast]

end Date

/-! ## Filling rows -/

theorem GridCell.fillRow_eq (cells : List GridCell) :
    fillRow cells = cells ++ List.replicate ((7 - cells.length % 7) % 7) padding := by
  induction cells using fillRow.induct with
  | case1 cells h =>
      rw [fillRow, if_pos h, h]
      simp
  | case2 cells h ih =>
      have hlacks : (7 - cells.length % 7) % 7 = (7 - (cells.length + 1) % 7) % 7 + 1 := by omega
      rw [fillRow, if_neg h, ih, List.length_append, List.length_singleton, hlacks,
        List.append_assoc, List.replicate_succ]
      rfl

theorem Date.startsOfDays_of_month (date : Date) :
    date.firstOfMonth.startsOfDays date.lastOfMonth.day = .ok date.daysOfMonth := by
  have hlength := ordinal_lastOfMonth date
  have hcount : (date.lastOfMonth.dayNumber - date.firstOfMonth.dayNumber + 1).toNat =
      date.lastOfMonth.day := by
    show _ = monthLength date.year date.month
    simp only [dayNumber]
    omega
  rw [← hcount, startsOfDays_eq_startsThrough, daysOfMonth]

/-- A grid that is filled row by row is the days of the month between its two stretches of
padding. -/
theorem monthGrid_of_date {point : TimePoint} {date : Date} (h : point.date = .ok date) :
    monthGrid point = .ok date.monthGrid := by
  have hcells :
      GridCell.fillRow (List.replicate date.leading .padding ++ date.daysOfMonth.map .ofDay) =
      date.monthGrid := by
    rw [GridCell.fillRow_eq, List.length_append, List.length_replicate, List.length_map]
    rfl
  have hend : date.firstOfMonth.endOfMonth = .ok date.lastOfMonth :=
    Date.endOfMonth_eq date.firstOfMonth
  simp only [monthGrid, h, hend, Date.startsOfDays_of_month, bind, Except.bind]
  exact congrArg Except.ok hcells

/-- The grid of an anchor shows the days of its month in order, in rows of seven from Sunday to
Saturday, where padding shorter than a row comes before and after. A cell is marked as one of the
month exactly if it has a day, each day stands in the column of its weekday, and each row has a day.
All anchors of the month have the grid. -/
theorem monthGrid_lays_out_month {anchor : TimePoint} {a : Instant} (ha : anchor.instant = .ok a)
    (h : a.IsDated) :
    ∃ date cells range days, Instant.date a = .ok date ∧ monthGrid anchor = .ok cells ∧
      DateRange.page .month anchor = .ok range ∧
      listDays (.ofInstant range.start) (.ofInstant range.stop) = .ok days ∧
      7 ∣ cells.length ∧ cells.filterMap (·.day) = days ∧
      (∀ cell ∈ cells, cell.inMonth = true ↔ cell.day.isSome = true) ∧
      (∃ leading trailing, leading < 7 ∧ trailing < 7 ∧
        cells = List.replicate leading .padding ++ days.map .ofDay ++
          List.replicate trailing .padding) ∧
      (∀ i cell day, cells[i]? = some cell → cell.day = some day →
        (day / dayMillis + 4) % 7 = (i % 7 : Nat)) ∧
      (∀ row, 7 * row < cells.length → ∃ i cell, i / 7 = row ∧ cells[i]? = some cell ∧
        cell.inMonth = true) ∧
      ∀ point other, point.date = .ok other → other.year = date.year → other.month = date.month →
        monthGrid point = .ok cells := by
  have ⟨date, hd⟩ := Instant.exists_date h
  have hanchor := TimePoint.date_of_instant ha hd
  have hlisted : listDays (.ofInstant date.firstOfMonth.start) (.ofInstant date.lastOfMonth.stop) =
      .ok date.daysOfMonth :=
    listDays_of_dates (Instant.date_start _) (Instant.date_stop _)
  refine ⟨date, date.monthGrid, _, date.daysOfMonth, hd, monthGrid_of_date hanchor,
    DateRange.month_page_of_date hanchor, hlisted, date.dvd_length_monthGrid,
    date.filterMap_day_monthGrid, fun cell => Date.inMonth_iff_of_mem_monthGrid,
    ⟨date.leading, date.trailing, date.leading_lt, date.trailing_lt, rfl⟩,
    fun i cell day => Date.weekday_of_getElem?_monthGrid, fun row => Date.exists_day_in_row, ?_⟩
  intro point other ho hy hm
  rw [monthGrid_of_date ho, Date.monthGrid_congr hy hm]

/-- The first month of the calendar begins on a Monday. The Sunday before is not of the calendar,
but has a cell. -/
theorem monthGrid_lays_out_first_month :
    (TimePoint.ofInstant Instant.first).instant = .ok Instant.first ∧ Instant.first.IsDated ∧
      Instant.startOfWeek Instant.first = .error .outsideCalendar ∧
      ∃ cells range days, monthGrid (.ofInstant Instant.first) = .ok cells ∧ cells.length = 35 ∧
        DateRange.page .month (.ofInstant Instant.first) = .ok range ∧
        listDays (.ofInstant range.start) (.ofInstant range.stop) = .ok days ∧
        cells.filterMap (·.day) = days ∧
        ∀ row < 5, ∃ i cell, i / 7 = row ∧ cells[i]? = some cell ∧ cell.inMonth = true := by
  have hlength : (monthGrid (.ofInstant Instant.first)).map List.length = .ok 35 := by
    decide +kernel
  have hdated : Instant.first.IsDated := by decide
  have hsunday : Instant.startOfWeek Instant.first = .error .outsideCalendar := by decide +kernel
  have ⟨_, cells, range, days, _, hcells, hpage, hlisted, _, hdays, _, _, _, hrows, _⟩ :=
    monthGrid_lays_out_month (TimePoint.instant_ofInstant Instant.first) hdated
  rw [hcells] at hlength
  have hthirtyfive : cells.length = 35 := Except.ok.inj hlength
  exact ⟨rfl, hdated, hsunday, cells, range, days, hcells, hthirtyfive, hpage, hlisted, hdays,
    fun row hrow => hrows row (by omega)⟩

end Almanac

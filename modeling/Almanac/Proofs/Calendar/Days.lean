import Almanac.Calendar.DayNumber
import Almanac.Calendar.Instant
import Almanac.Proofs.Result

/-!
# Days as intervals of instants

The day of a date is an interval of `dayMillis` milliseconds that starts at `dayNumber * dayMillis`.
Every instant of the calendar lies in the day of exactly one date, which `Instant.date` finds, and
the days from one date through another follow one another without a gap.
-/

namespace Almanac

namespace Date

theorem start_eq (date : Date) : date.start = date.dayNumber * dayMillis := by
  simp only [start, DateTime.millis, DateTime.micros, TimeOfDay.midnight, TimeOfDay.micros,
    TimeOfDay.microsPerDay, dayMillis, Instant]
  omega

theorem stop_eq (date : Date) : date.stop = date.start + (dayMillis - 1) := by
  rw [start_eq]
  simp only [stop, DateTime.millis, DateTime.micros, TimeOfDay.lastMillisecond, TimeOfDay.micros,
    TimeOfDay.microsPerDay, dayMillis, Instant]
  omega

theorem start_le_start_iff {first last : Date} : first.start ≤ last.start ↔
    first.dayNumber ≤ last.dayNumber := by
  rw [start_eq, start_eq]
  simp only [dayMillis, Instant]
  omega

theorem start_le_stop_iff {first last : Date} : first.start ≤ last.stop ↔
    first.dayNumber ≤ last.dayNumber := by
  rw [stop_eq, start_eq, start_eq]
  simp only [dayMillis, Instant]
  omega

theorem start_le_stop (date : Date) : date.start ≤ date.stop := start_le_stop_iff.2 (Int.le_refl _)

theorem stop_sub_start (date : Date) : date.stop - date.start + 1 = dayMillis := by
  rw [stop_eq]
  simp only [dayMillis, Instant]
  omega

theorem start_sub_start (first last : Date) :
    (last.start - first.start) / dayMillis = last.dayNumber - first.dayNumber := by
  rw [start_eq, start_eq]
  simp only [dayMillis, Instant]
  omega

theorem dayNumber_bounds (date : Date) : -719162 ≤ date.dayNumber ∧ date.dayNumber ≤ 2932896 := by
  have h := ordinal_le date
  simp only [lastOrdinal] at h
  simp only [dayNumber, epochOrdinal]
  omega

theorem weekday_lt (date : Date) : date.weekday < 7 := by
  rw [weekday]
  omega

theorem exists_dayNumber {number : Int} (h : -719162 ≤ number ∧ number ≤ 2932896) :
    ∃ date : Date, date.dayNumber = number := by
  have hn : (number + epochOrdinal).toNat ≤ lastOrdinal := by
    simp only [epochOrdinal, lastOrdinal]
    omega
  obtain ⟨date, -, ho⟩ := ofOrdinal?_spec hn
  refine ⟨date, ?_⟩
  simp only [dayNumber, ho, epochOrdinal]
  omega

theorem addDays_eq_ok_iff {date later : Date} {n : Int} :
    date.addDays n = .ok later ↔ later.dayNumber = date.dayNumber + n := by
  rw [addDays, ← ofDayNumber?_eq_some_iff]
  cases ofDayNumber? (date.dayNumber + n) <;> simp

theorem eq_outsideCalendar_of_addDays {date : Date} {n : Int} {error : Error}
    (h : date.addDays n = .error error) :
    error = .outsideCalendar := by
  unfold addDays at h
  split at h
  · contradiction
  · exact (Except.error.inj h).symm

end Date

/-! ## The date of an instant -/

namespace Instant

theorem date_eq (t : Instant) :
    date t = match Date.ofDayNumber? (t / dayMillis) with
      | some found => .ok found
      | none => .error .outsideCalendar := by
  have hd : t * 1000 / (TimeOfDay.microsPerDay : Int) = t / dayMillis := by
    simp only [TimeOfDay.microsPerDay, dayMillis, Instant]
    omega
  simp only [date, dateTime, DateTime.ofMicros, hd]
  cases Date.ofDayNumber? (t / dayMillis) <;> rfl

theorem date_eq_ok_iff {t : Instant} {found : Date} :
    date t = .ok found ↔ found.dayNumber = t / dayMillis := by
  rw [date_eq, ← Date.ofDayNumber?_eq_some_iff]
  cases Date.ofDayNumber? (t / dayMillis) <;> simp

/-- The date of an instant is the one whose day holds it. -/
theorem date_eq_ok_iff_mem {t : Instant} {found : Date} :
    date t = .ok found ↔ found.start ≤ t ∧ t ≤ found.stop := by
  rw [date_eq_ok_iff, Date.stop_eq, Date.start_eq]
  simp only [dayMillis, Instant]
  omega

@[simp] theorem date_start (found : Date) : date found.start = .ok found := by
  rw [date_eq_ok_iff, Date.start_eq]
  simp [dayMillis]

@[simp] theorem date_stop (found : Date) : date found.stop = .ok found := by
  rw [date_eq_ok_iff_mem, Date.stop_eq]
  simp only [dayMillis, Instant]
  omega

theorem dateTime_start (found : Date) : dateTime found.start = .ok ⟨found, .midnight⟩ := by
  have hday : found.start * 1000 / (TimeOfDay.microsPerDay : Int) = found.dayNumber := by
    rw [Date.start_eq]
    simp only [TimeOfDay.microsPerDay, dayMillis, Instant]
    omega
  have htime : found.start * 1000 % (TimeOfDay.microsPerDay : Int) = 0 := by
    rw [Date.start_eq]
    simp only [TimeOfDay.microsPerDay, dayMillis, Instant]
    omega
  rw [dateTime, DateTime.ofMicros, hday, htime, Date.ofDayNumber?_dayNumber]
  rfl

theorem exists_date {t : Instant} (h : IsDated t) : ∃ found, date t = .ok found := by
  obtain ⟨hf, hl⟩ := h
  have hb : -719162 ≤ t / dayMillis ∧ t / dayMillis ≤ 2932896 := by
    simp only [first, last, Instant] at hf hl
    simp only [dayMillis, Instant]
    omega
  rcases Date.exists_dayNumber hb with ⟨found, hn⟩
  exact ⟨found, date_eq_ok_iff.2 hn⟩

theorem isDated_of_date {t : Instant} {found : Date} (h : date t = .ok found) : IsDated t := by
  have hn := date_eq_ok_iff.1 h
  have hb := Date.dayNumber_bounds found
  simp only [dayMillis, Instant] at hn
  simp only [IsDated, first, last, Instant]
  omega

theorem dayNumber_le_of_le {a b : Instant} {earlier later : Date} (ha : date a = .ok earlier)
    (hb : date b = .ok later) (h : a ≤ b) : earlier.dayNumber ≤ later.dayNumber := by
  rw [date_eq_ok_iff.1 ha, date_eq_ok_iff.1 hb]
  simp only [dayMillis, Instant] at h ⊢
  omega

theorem startOfDay_of_date {t : Instant} {found : Date} (h : date t = .ok found) :
    startOfDay t = .ok found.start := by
  rw [startOfDay, h]
  rfl

theorem endOfDay_of_date {t : Instant} {found : Date} (h : date t = .ok found) :
    endOfDay t = .ok found.stop := by
  rw [endOfDay, h]
  rfl

theorem startOfWeek_of_date {t : Instant} {found : Date} (h : date t = .ok found) :
    startOfWeek t = found.startOfWeek.map (·.start) := by
  rw [startOfWeek, h]
  rfl

theorem addDays_of_date {t : Instant} {found : Date} (h : date t = .ok found) (n : Int) :
    addDays t n = (found.addDays n).map (·.start) := by
  rw [addDays, h]
  rfl

theorem addDays_eq_ok_iff {t start : Instant} {found : Date} (h : date t = .ok found) {n : Int} :
    addDays t n = .ok start ↔
      ∃ later : Date, later.dayNumber = found.dayNumber + n ∧ later.start = start := by
  rw [addDays_of_date h]
  simp only [← Date.addDays_eq_ok_iff]
  cases found.addDays n <;> simp [Except.map]

end Instant

theorem TimePoint.date_of_instant {point : TimePoint} {t : Instant} {found : Date}
    (ht : point.instant = .ok t) (hd : Instant.date t = .ok found) : point.date = .ok found := by
  rw [date, ht]
  exact hd

/-! ## Days in a row -/

namespace Date

/-- The starts of the days from one date through another; none if the second is the earlier one. -/
def startsThrough (first last : Date) : List Instant :=
  (List.range (last.dayNumber - first.dayNumber + 1).toNat).map fun (k : Nat) =>
    first.start + k * dayMillis

theorem startsOfDays_eq_ok {first last : Date} {count : Nat}
    (h : first.dayNumber + count ≤ last.dayNumber + 1) :
    first.startsOfDays count =
      .ok ((List.range count).map fun (k : Nat) => first.start + k * dayMillis) := by
  apply mapM_eq_ok_map
  intro k hk
  rw [List.mem_range] at hk
  have hf := dayNumber_bounds first
  have hl := dayNumber_bounds last
  have hb : -719162 ≤ first.dayNumber + k ∧ first.dayNumber + k ≤ 2932896 := by omega
  rcases exists_dayNumber hb with ⟨date, hd⟩
  have hstart : date.start = first.start + k * dayMillis := by
    rw [start_eq, start_eq, hd, Int.add_mul]
  rw [addDays_eq_ok_iff.2 hd, ← hstart]
  rfl

theorem startsOfDays_eq_startsThrough (first last : Date) :
    first.startsOfDays (last.dayNumber - first.dayNumber + 1).toNat =
      .ok (first.startsThrough last) := by
  by_cases h : first.dayNumber ≤ last.dayNumber
  · exact startsOfDays_eq_ok (by omega : _ ≤ last.dayNumber + 1)
  · have hnone : (last.dayNumber - first.dayNumber + 1).toNat = 0 := by omega
    rw [startsThrough, hnone]
    rfl

theorem length_startsThrough (first last : Date) :
    (first.startsThrough last).length = (last.dayNumber - first.dayNumber + 1).toNat := by
  simp [startsThrough]

theorem getElem?_startsThrough {first last : Date} {i : Nat}
    (h : i < (first.startsThrough last).length) :
    (first.startsThrough last)[i]? = some (first.start + i * dayMillis) := by
  rw [length_startsThrough] at h
  rw [startsThrough, List.getElem?_map, List.getElem?_range h]
  rfl

theorem startsThrough_of_lt {first last : Date} (h : last.dayNumber < first.dayNumber) :
    first.startsThrough last = [] := by
  apply List.eq_nil_of_length_eq_zero
  rw [length_startsThrough]
  omega

@[simp] theorem startsThrough_self (date : Date) : date.startsThrough date = [date.start] := by
  simp [startsThrough]

theorem startsThrough_ne_nil {first last : Date} (h : first.dayNumber ≤ last.dayNumber) :
    first.startsThrough last ≠ [] := by
  have hpos : 0 < (first.startsThrough last).length := by
    rw [length_startsThrough]
    omega
  exact List.ne_nil_of_length_pos hpos

theorem exists_of_mem_startsThrough {first last : Date} {day : Instant}
    (h : day ∈ first.startsThrough last) :
    ∃ date : Date, date.start = day ∧ first.dayNumber ≤ date.dayNumber ∧
      date.dayNumber ≤ last.dayNumber := by
  rcases List.mem_map.1 h with ⟨k, hk, rfl⟩
  rw [List.mem_range] at hk
  have hf := dayNumber_bounds first
  have hl := dayNumber_bounds last
  have hb : -719162 ≤ first.dayNumber + k ∧ first.dayNumber + k ≤ 2932896 := by omega
  rcases exists_dayNumber hb with ⟨date, hd⟩
  refine ⟨date, ?_, by omega, by omega⟩
  rw [start_eq, start_eq, hd, Int.add_mul]

theorem pairwise_startsThrough (first last : Date) :
    (first.startsThrough last).Pairwise (· < ·) := by
  apply List.pairwise_map.2
  apply List.pairwise_lt_range.imp
  intro i j hij
  simp only [dayMillis, Instant]
  omega

theorem nodup_startsThrough (first last : Date) : (first.startsThrough last).Nodup :=
  (pairwise_startsThrough first last).imp fun h => Int.ne_of_lt h

/-- The listed starts are those of all dates within the range. -/
theorem mem_startsThrough_iff {first last : Date} {day : Instant} :
    day ∈ first.startsThrough last ↔
      ∃ date : Date, date.start = day ∧ first.start ≤ day ∧ day ≤ last.stop := by
  constructor
  · intro h
    rcases exists_of_mem_startsThrough h with ⟨date, rfl, hf, hl⟩
    exact ⟨date, rfl, start_le_start_iff.2 hf, start_le_stop_iff.2 hl⟩
  · intro h
    rcases h with ⟨date, rfl, hf, hl⟩
    rw [start_le_start_iff] at hf
    rw [start_le_stop_iff] at hl
    refine List.mem_map.2 ⟨(date.dayNumber - first.dayNumber).toNat,
      List.mem_range.2 (by omega), ?_⟩
    simp only [start_eq, dayMillis, Instant]
    omega

end Date

theorem listDays_of_points {start stop : TimePoint} {first last : Date}
    (hs : start.date = .ok first)
    (hl : stop.date = .ok last) : listDays start stop = .ok (first.startsThrough last) := by
  rw [listDays, hs, hl]
  exact Date.startsOfDays_eq_startsThrough first last

theorem listDays_of_dates {start stop : Instant} {first last : Date}
    (hs : Instant.date start = .ok first) (hl : Instant.date stop = .ok last) :
    listDays (.ofInstant start) (.ofInstant stop) = .ok (first.startsThrough last) :=
  listDays_of_points hs hl

end Almanac

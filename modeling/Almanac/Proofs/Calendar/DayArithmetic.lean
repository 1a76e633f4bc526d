import Almanac.Proofs.Calendar.Days

/-!
# Day arithmetic

The start and the end of a day, the start of a week and the day some days away are found by way of
year, month and day. Division by the length of a day gives the same instants: its quotient is the
number of the day, before 1970 and across leap years too. An operation fails exactly if the calendar
does not reach the instant that it starts from or the one that it leads to.
-/

namespace Almanac

namespace Instant

variable {t : Instant}

theorem date_of_not_isDated (h : ¬ t.IsDated) : date t = .error .outsideCalendar := by
  rw [date_eq]
  cases hd : Date.ofDayNumber? (t / dayMillis) with
  | none => rfl
  | some found =>
      have hdate : date t = .ok found := date_eq_ok_iff.2 (Date.ofDayNumber?_eq_some_iff.1 hd)
      exact absurd (isDated_of_date hdate) h

theorem isDated_day_iff {number : Int} : IsDated (number * dayMillis) ↔
    ∃ found : Date, found.dayNumber = number := by
  have hday : number * dayMillis / dayMillis = number := Int.mul_ediv_cancel number (by decide)
  constructor
  · intro h
    have ⟨found, hd⟩ := exists_date h
    exact ⟨found, (date_eq_ok_iff.1 hd).trans hday⟩
  · intro h
    rcases h with ⟨found, rfl⟩
    exact isDated_of_date (date_eq_ok_iff.2 hday.symm)

end Instant

theorem Date.start_addDays (date : Date) (n : Int) :
    (date.addDays n).map (·.start) =
      if Instant.IsDated ((date.dayNumber + n) * dayMillis) then
        .ok ((date.dayNumber + n) * dayMillis)
      else .error .outsideCalendar := by
  cases h : date.addDays n with
  | ok later =>
      have hnumber := addDays_eq_ok_iff.1 h
      rw [if_pos (Instant.isDated_day_iff.2 ⟨later, hnumber⟩), ← hnumber, ← start_eq]
      rfl
  | error error =>
      have hnone : ¬ Instant.IsDated ((date.dayNumber + n) * dayMillis) := by
        intro hdated
        rcases Instant.isDated_day_iff.1 hdated with ⟨later, hnumber⟩
        rw [addDays_eq_ok_iff.2 hnumber] at h
        contradiction
      rw [if_neg hnone, eq_outsideCalendar_of_addDays h]
      rfl

namespace Instant

variable (t : Instant)

theorem startOfDay_eq :
    startOfDay t = if t.IsDated then .ok (t / dayMillis * dayMillis)
    else .error .outsideCalendar := by
  by_cases h : t.IsDated
  · have ⟨found, hd⟩ := exists_date h
    rw [if_pos h, startOfDay_of_date hd, Date.start_eq, date_eq_ok_iff.1 hd]
  · rw [if_neg h, startOfDay, date_of_not_isDated h]
    rfl

theorem endOfDay_eq :
    endOfDay t = if t.IsDated then .ok (t / dayMillis * dayMillis + (dayMillis - 1))
    else .error .outsideCalendar := by
  by_cases h : t.IsDated
  · have ⟨found, hd⟩ := exists_date h
    rw [if_pos h, endOfDay_of_date hd, Date.stop_eq, Date.start_eq, date_eq_ok_iff.1 hd]
  · rw [if_neg h, endOfDay, date_of_not_isDated h]
    rfl

theorem addDays_eq (n : Int) :
    addDays t n =
      if t.IsDated ∧ IsDated ((t / dayMillis + n) * dayMillis) then
        .ok ((t / dayMillis + n) * dayMillis)
      else .error .outsideCalendar := by
  by_cases h : t.IsDated
  · have ⟨found, hd⟩ := exists_date h
    rw [addDays_of_date hd, Date.start_addDays, date_eq_ok_iff.1 hd]
    simp only [h, true_and]
  · rw [if_neg (fun hboth => h hboth.1), addDays, date_of_not_isDated h]
    rfl

/-- Day zero is a Thursday, so that its number plus four counts from a Sunday. -/
theorem startOfWeek_eq_addDays : startOfWeek t = addDays t (-((t / dayMillis + 4) % 7)) := by
  cases hd : date t with
  | error error =>
      rw [startOfWeek, addDays, hd]
      rfl
  | ok found =>
      have hweekday : (found.weekday : Int) = (t / dayMillis + 4) % 7 := by
        rw [Date.weekday, date_eq_ok_iff.1 hd]
        omega
      rw [startOfWeek_of_date hd, addDays_of_date hd, Date.startOfWeek, hweekday]

/-- Start and end of a day, the start of a week and the day some days away are what division by the
length of a day gives. Where one of the instants is outside the calendar, they fail. -/
theorem day_arithmetic_eq_division :
    startOfDay t = (if t.IsDated then .ok (t / dayMillis * dayMillis)
      else .error .outsideCalendar) ∧
    endOfDay t =
      (if t.IsDated then .ok (t / dayMillis * dayMillis + (dayMillis - 1))
        else .error .outsideCalendar) ∧
    (∀ n, addDays t n =
      if t.IsDated ∧ IsDated ((t / dayMillis + n) * dayMillis) then
        .ok ((t / dayMillis + n) * dayMillis)
      else .error .outsideCalendar) ∧
    startOfWeek t =
      if t.IsDated ∧ IsDated ((t / dayMillis - (t / dayMillis + 4) % 7) * dayMillis) then
        .ok ((t / dayMillis - (t / dayMillis + 4) % 7) * dayMillis)
      else .error .outsideCalendar :=
  ⟨startOfDay_eq t, endOfDay_eq t, addDays_eq t, (startOfWeek_eq_addDays t).trans (addDays_eq t _)⟩

end Instant

end Almanac

import Mathlib.Data.List.Lex
import Almanac.Proofs.Calendar.Periods
import Almanac.Proofs.Text.Order

/-!
# The order of dates and times by their fields

Dates and times compare by their fields, from the year down to the microsecond, and the first field
that differs decides. That is the order of day numbers and of microseconds, since no month and no
year reaches into the next one.
-/

namespace Almanac

namespace Date

variable {a b : Date}

def fields (date : Date) : List Nat := [date.year, date.month, date.day]

theorem fields_inj : a.fields = b.fields ↔ a = b := by
  rw [eq_iff_fields]
  simp [fields]

theorem fields_lt_iff_or : a.fields < b.fields ↔
    a.year < b.year ∨ a.year = b.year ∧
      (a.month < b.month ∨ a.month = b.month ∧ a.day < b.day) := by
  simp [fields, List.cons_lt_cons_iff]

/-- An earlier year ends before a later one starts, and so does an earlier month. -/
theorem ordinal_lt_of_fields_lt (h : a.fields < b.fields) : a.ordinal < b.ordinal := by
  rcases fields_lt_iff_or.1 h with hy | ⟨hy, hm | ⟨hm, hd⟩⟩
  · have hyears := daysBeforeYear_mono (Nat.succ_le_of_lt hy)
    exact Nat.lt_of_lt_of_le (ordinal_bounds a).2 (Nat.le_trans hyears (ordinal_bounds b).1)
  · have hmonths := lastOfMonth_lt_firstOfMonth hy hm
    exact Nat.lt_of_le_of_lt (ordinal_bounds_month a).2
      (Nat.lt_of_lt_of_le hmonths (ordinal_bounds_month b).1)
  · have hpos := a.day_bounds.1
    simp only [ordinal, hy, hm]
    omega

theorem fields_lt_iff : a.fields < b.fields ↔ a.dayNumber < b.dayNumber := by
  have hordinal : a.dayNumber < b.dayNumber ↔ a.ordinal < b.ordinal := by
    simp only [dayNumber]
    omega
  rw [hordinal]
  constructor
  · exact ordinal_lt_of_fields_lt
  · intro h
    rcases lt_trichotomy a.fields b.fields with hlt | heq | hgt
    · exact hlt
    · rw [fields_inj.1 heq] at h
      exact absurd h (Nat.lt_irrefl _)
    · exact absurd h (Nat.lt_asymm (ordinal_lt_of_fields_lt hgt))

end Date

namespace TimeOfDay

variable {a b : TimeOfDay}

def fields (time : TimeOfDay) : List Nat := [time.hour, time.minute, time.second, time.microsecond]

theorem fields_lt_iff_or : a.fields < b.fields ↔
    a.hour < b.hour ∨ a.hour = b.hour ∧ (a.minute < b.minute ∨ a.minute = b.minute ∧
      (a.second < b.second ∨ a.second = b.second ∧ a.microsecond < b.microsecond)) := by
  simp [fields, List.cons_lt_cons_iff]

theorem fields_lt_iff : a.fields < b.fields ↔ a.micros < b.micros := by
  have := a.minute_lt
  have := b.minute_lt
  have := a.second_lt
  have := b.second_lt
  have := a.microsecond_lt
  have := b.microsecond_lt
  rw [fields_lt_iff_or, micros, micros]
  omega

end TimeOfDay

namespace DateTime

variable {a b : DateTime}

def fields (dateTime : DateTime) : List Nat := dateTime.date.fields ++ dateTime.time.fields

theorem fields_lt_iff_or : a.fields < b.fields ↔
    a.date.fields < b.date.fields ∨ a.date = b.date ∧ a.time.fields < b.time.fields := by
  have hlength : a.date.fields.length = b.date.fields.length := rfl
  rw [fields, fields, Text.append_lt_append_iff hlength, Date.fields_inj]

/-- The order by fields is the order in time. -/
theorem fields_lt_iff : a.fields < b.fields ↔ a.micros < b.micros := by
  have ha := a.time.micros_lt
  have hb := b.time.micros_lt
  rw [fields_lt_iff_or, Date.fields_lt_iff, TimeOfDay.fields_lt_iff, ← Date.dayNumber_inj,
    micros, micros]
  simp only [TimeOfDay.microsPerDay] at ha hb ⊢
  omega

end DateTime

end Almanac

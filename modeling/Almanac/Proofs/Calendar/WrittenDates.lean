import Mathlib.Tactic.Tauto
import Almanac.Calendar.IsoText
import Almanac.Proofs.Calendar.FieldOrder

/-!
# Written dates and times

A written date, and a written date and time, reads back as what was written. Each field has a fixed
number of digits, years before 1000 too, so texts compare as the fields do. A fraction of a second
makes a text longer, but its point sorts after the sign of the offset that stands there otherwise.
-/

namespace Almanac

open Almanac.Text

theorem Date.digits?_fixed {width n : Nat} (hw : 0 < width) (hn : n < 10 ^ width) :
    digits? (fixed width n) = some n := by
  have h := isNumeral_fixed hw hn
  rw [digits?, if_pos h.isDigits, h.2.2]

/-! ## Bounds of the fields -/

namespace Date

variable (date : Date)

theorem year_fits : date.year < 10 ^ 4 := by
  have := date.year_bounds
  omega

theorem month_fits : date.month < 10 ^ 2 := by
  have := date.month_bounds
  omega

theorem day_fits : date.day < 10 ^ 2 := by
  have := date.day_bounds
  have := monthLength_bounds date.month_bounds date.year
  omega

end Date

namespace TimeOfDay

variable (time : TimeOfDay)

theorem hour_fits : time.hour < 10 ^ 2 := Nat.lt_trans time.hour_lt (by decide)

theorem minute_fits : time.minute < 10 ^ 2 := Nat.lt_trans time.minute_lt (by decide)

theorem second_fits : time.second < 10 ^ 2 := Nat.lt_trans time.second_lt (by decide)

theorem microsecond_fits : time.microsecond < 10 ^ 6 := time.microsecond_lt

end TimeOfDay

/-! ## Dates -/

namespace Date

variable {a b : Date} {s t : List Char}

theorem text_eq (date : Date) :
    date.text =
      fixed 4 date.year ++ ('-' :: (fixed 2 date.month ++ ('-' :: fixed 2 date.day))) := by
  rw [text, List.append_assoc]
  rfl

@[simp] theorem length_text (date : Date) : date.text.length = 10 := by
  simp [text_eq]

theorem ofText?_text (date : Date) : ofText? date.text = some date := by
  have hyear := digits?_fixed (by decide) date.year_fits
  have hmonth := digits?_fixed (by decide) date.month_fits
  have hday := digits?_fixed (by decide) date.day_fits
  have hfields : ofFields? date.year date.month date.day = some date :=
    ofFields?_eq_some_iff.2 ⟨rfl, rfl, rfl⟩
  show (digits? (fixed 4 date.year) >>= fun year => digits? (fixed 2 date.month) >>= fun month =>
    digits? (fixed 2 date.day) >>= fun day => ofFields? year month day) = _
  rw [hyear, hmonth, hday]
  exact hfields

theorem text_append_lt_iff : a.text ++ s < b.text ++ t ↔ a.fields < b.fields ∨ a = b ∧ s < t := by
  have hmark : ¬ '-' < '-' := Char.lt_irrefl '-'
  rw [fields_lt_iff_or, eq_iff_fields]
  simp only [text_eq, List.append_assoc, List.cons_append,
    fixed_append_lt_iff a.year_fits b.year_fits, fixed_append_lt_iff a.month_fits b.month_fits,
    fixed_append_lt_iff a.day_fits b.day_fits, List.cons_lt_cons_iff, hmark]
  tauto

theorem text_lt_iff : a.text < b.text ↔ a.fields < b.fields := by
  have h := @text_append_lt_iff a b [] []
  simpa using h

end Date

/-! ## Times -/

namespace TimeOfDay

variable {a b : TimeOfDay}

theorem text_append (time : TimeOfDay) (rest : List Char) :
    time.text ++ rest =
      fixed 2 time.hour ++ (':' :: (fixed 2 time.minute ++
        (':' :: (fixed 2 time.second ++ (time.fractionText ++ rest))))) := by
  simp [text]

/-- Without a fraction, the sign of the offset comes next, and it sorts before the point of a
fraction. -/
theorem fractionText_lt_iff :
    a.fractionText ++ DateTime.utcMark < b.fractionText ++ DateTime.utcMark ↔
      a.microsecond < b.microsecond := by
  have hsign : '+' < '.' := by decide
  have hpoint : ¬ '.' < '+' := by decide
  by_cases ha : a.microsecond = 0
  · by_cases hb : b.microsecond = 0
    · simp [fractionText, ha, hb]
    · simp [fractionText, ha, hb, DateTime.utcMark, List.cons_lt_cons_iff, hsign,
        Nat.pos_of_ne_zero hb]
  · by_cases hb : b.microsecond = 0
    · simp [fractionText, ha, hb, DateTime.utcMark, List.cons_lt_cons_iff, hpoint]
    · simp [fractionText, ha, hb, fixed_append_lt_iff a.microsecond_fits b.microsecond_fits]

theorem text_append_utcMark_lt_iff :
    a.text ++ DateTime.utcMark < b.text ++ DateTime.utcMark ↔ a.fields < b.fields := by
  have hmark : ¬ ':' < ':' := Char.lt_irrefl ':'
  rw [fields_lt_iff_or]
  simp only [text_append, fixed_append_lt_iff a.hour_fits b.hour_fits,
    fixed_append_lt_iff a.minute_fits b.minute_fits,
    fixed_append_lt_iff a.second_fits b.second_fits, List.cons_lt_cons_iff, hmark,
    fractionText_lt_iff]
  tauto

end TimeOfDay

/-! ## Dates with times -/

namespace DateTime

variable {a b : DateTime}

theorem text_eq (dateTime : DateTime) :
    dateTime.text = dateTime.date.text ++ ('T' :: (dateTime.time.text ++ utcMark)) := by
  simp [text]

theorem text_lt_iff : a.text < b.text ↔ a.fields < b.fields := by
  rw [text_eq, text_eq, Date.text_append_lt_iff, List.cons_lt_cons_iff,
    TimeOfDay.text_append_utcMark_lt_iff, fields_lt_iff_or]
  simp

theorem fraction?_text (time : TimeOfDay) :
    fraction? (time.fractionText ++ utcMark) = some (time.microsecond, utcMark) := by
  by_cases h : time.microsecond = 0
  · rw [TimeOfDay.fractionText, if_pos h, h]
    rfl
  · have hdigits := Date.digits?_fixed (by decide) time.microsecond_fits
    rw [TimeOfDay.fractionText, if_neg h]
    show (Date.digits? (fixed 6 time.microsecond)).map _ = _
    rw [hdigits]
    rfl

theorem ofText?_text (dateTime : DateTime) : ofText? dateTime.text = some dateTime.micros := by
  have hlength : dateTime.date.text.length = 10 := Date.length_text dateTime.date
  have hhour := Date.digits?_fixed (by decide) dateTime.time.hour_fits
  have hminute := Date.digits?_fixed (by decide) dateTime.time.minute_fits
  have hsecond := Date.digits?_fixed (by decide) dateTime.time.second_fits
  rw [text_eq, TimeOfDay.text_append, ofText?, List.drop_left' hlength, List.take_left' hlength]
  -- the reader takes two characters at a time, which are the digits of a field
  show (do
    let date ← Date.ofText? dateTime.date.text
    let hour ← Date.digits? (fixed 2 dateTime.time.hour)
    let minute ← Date.digits? (fixed 2 dateTime.time.minute)
    let second ← Date.digits? (fixed 2 dateTime.time.second)
    let last ← fraction? (dateTime.time.fractionText ++ utcMark)
    if last.2 = utcMark then
      some (date.dayNumber * TimeOfDay.microsPerDay +
        (((hour * 60 + minute) * 60 + second) * 1000000 + last.1 : Nat))
    else none) = some dateTime.micros
  rw [Date.ofText?_text, hhour, hminute, hsecond, fraction?_text]
  simp [micros, TimeOfDay.micros]

end DateTime

end Almanac

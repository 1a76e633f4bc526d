import Mathlib.Data.List.Sort
import Almanac.Proofs.Cron.DailyCount
import Almanac.Proofs.Cron.Enumeration
import Almanac.Proofs.Cron.Numbers
import Almanac.Proofs.Label.Shapes

/-!
# What labelled texts run

Where a text is an expression, the numbers of its label are the numbers of its fields. Its firings
are then known: those of an expression that restricts its minute alone are the allowed minutes of
every hour, and those of an expression with one minute and one hour are at most one a day, as the
weekday decides.
-/

namespace Almanac

open Almanac.Cron Almanac.Text Almanac.Label

variable {given label : String} {expression : Expression}
  {minute hour dayOfMonth month dayOfWeek : List Char}

/-! ## Numbers of labels -/

namespace Label

/-- A described text that is an expression has the shape of its label. -/
theorem hasShape_of_ofText (h : Expression.ofText given = .ok expression)
    (hl : cronText given = .ok label)
    (hc : IsCaption label.toList) : HasShape (words given.toList) label := by
  rcases cronText_cases given with ⟨found, hs⟩ | hu | hself
  · have hfound := cronText_of_hasShape hs
    rw [hl] at hfound
    rwa [Except.ok.inj hfound]
  · have herror := cronText_of_isUnread hu
    rw [hl] at herror
    contradiction
  · rw [hl] at hself
    rw [Except.ok.inj hself] at hc
    -- the first word of an expression is its minute, and has only digits and marks
    obtain ⟨first, rest, hw, hcomma, c, hmem, hfigure, hasterisk, hslash, hdash⟩ := hc.words_eq
    obtain ⟨_, _, _, _, _, hfive, hf⟩ := Expression.ofText_eq_ok_iff.1 h
    rw [hw] at hfive
    obtain ⟨rfl, -⟩ := List.cons.inj hfive
    have hdigit : c.isDigit = false := by
      by_contra hd
      rw [isFigure_of_isDigit (by simpa using hd)] at hfigure
      contradiction
    have hmark := Expression.mem_marks_of_field (Expression.ofWords_eq_ok_iff.1 hf).2.1 hmem hdigit
    have hne : c ≠ ',' := fun he => hcomma (he ▸ hmem)
    simp [marks, hasterisk, hslash, hdash, hne] at hmark

end Label

namespace Cron.Expression

theorem fields_of_words (h : ofText given = .ok expression)
    (hw : words given.toList = [minute, hour, dayOfMonth, month, dayOfWeek]) :
    field .minute minute = .ok expression.minute ∧ field .hour hour = .ok expression.hour ∧
      field .dayOfMonth dayOfMonth = .ok expression.dayOfMonth ∧
        field .month month = .ok expression.month ∧
        field .dayOfWeek dayOfWeek = .ok expression.dayOfWeek := by
  obtain ⟨_, _, _, _, _, hfive, hf⟩ := ofText_eq_ok_iff.1 h
  rw [hw] at hfive
  cases hfive
  exact (ofWords_eq_ok_iff.1 hf).2

theorem mem_values_of_writes {kind : FieldKind} {word : List Char} {found : Field} {n : Nat}
    (h : field kind word = .ok found) (hn : Writes word n) :
    n ≤ kind.high ∧
      ∀ m, m ∈ found.values ↔ m = if kind = .dayOfWeek then Pattern.weekday n else n := by
  obtain ⟨k, hr, hle, hmem⟩ := field_of_figures hn.1 h
  have hsame : k = n := Option.some.inj (hr.natural?.symm.trans hn.2)
  subst hsame
  exact ⟨hle, hmem⟩

theorem mem_values_of_writes_step {word : List Char} {found : Field} {n : Nat}
    (h : field .minute ('*' :: '/' :: word) = .ok found) (hn : Writes word n) :
    1 ≤ n ∧ ∀ m, m ∈ found.values ↔ m ∈ progression 0 n 59 := by
  obtain ⟨step, hr, hpos, hmem⟩ := field_of_step hn.1 (by decide) h
  have hsame : step = n := Option.some.inj (hr.natural?.symm.trans hn.2)
  subst hsame
  exact ⟨hpos, hmem⟩

/-! ## Firings -/

theorem firingsOn_eq_map {date : Date} {minutes : List Nat} (hp : minutes.Pairwise (· < ·))
    (h : ∀ k, k ∈ expression.minutesOn date ↔ k ∈ minutes) :
    expression.firingsOn date = minutes.map fun k : Nat => date.start + k * minuteMillis := by
  have hascending : (expression.minutesOn date).Pairwise (· < ·) := List.pairwise_lt_range.filter _
  rw [firingsOn, hascending.eq_of_mem_iff hp h]

/-- With one minute and one hour, an expression that leaves the days open fires at that time on its
weekdays. -/
theorem firingsOn_of_time (h : ofText given = .ok expression)
    (hw : words given.toList = [minute, hour, ['*'], ['*'], dayOfWeek]) {m o : Nat}
    (hm : Writes minute m) (ho : Writes hour o) (date : Date) :
    expression.firingsOn date =
      if date.weekday ∈ expression.dayOfWeek.values then
        [date.start + (o * 60 + m : Nat) * minuteMillis] else [] := by
  obtain ⟨hminute, hhour, hday, hmonth, -⟩ := fields_of_words h hw
  obtain ⟨hlow, hminutes⟩ := mem_values_of_writes hminute hm
  obtain ⟨-, hhours⟩ := mem_values_of_writes hhour ho
  simp only [FieldKind.high, reduceCtorEq, if_false] at hlow hminutes hhours
  have hallowed := @allowsDate_iff_weekday _ _ date h hday hmonth
  have hmem := fun k => @mem_minutesOn_iff_mem_values _ _ date h k
  split
  · rename_i hweekday
    refine firingsOn_eq_map (List.pairwise_singleton _ _) fun k => ?_
    rw [hmem, hallowed, and_iff_right hweekday, hminutes, hhours, List.mem_singleton]
    omega
  · rename_i hweekday
    refine firingsOn_eq_map List.Pairwise.nil fun k => ?_
    rw [hmem, hallowed]
    simp [hweekday]

theorem mem_minutesOn_of_open (h : ofText given = .ok expression)
    (hw : words given.toList = [minute, ['*'], ['*'], ['*'], ['*']]) {date : Date} {k : Nat} :
    k ∈ expression.minutesOn date ↔ k < minutesPerDay ∧ k % 60 ∈ expression.minute.values := by
  obtain ⟨-, hhour, hday, hmonth, hweekday⟩ := fields_of_words h hw
  have hallowed : expression.AllowsDate date :=
    (allowsDate_iff_weekday h hday hmonth).2 (weekday_mem_of_asterisk hweekday date)
  have hhours : k / 60 ∈ expression.hour.values ↔ k / 60 < 24 :=
    ⟨hour_lt_of_ofText h, fun hlt =>
      mem_values_of_asterisk hhour ⟨Nat.zero_le _, Nat.le_of_lt_succ hlt⟩⟩
  rw [mem_minutesOn_iff_mem_values h, and_iff_right hallowed, hhours, minutesPerDay, and_comm]
  exact and_congr_left fun _ => by omega

end Cron.Expression

end Almanac

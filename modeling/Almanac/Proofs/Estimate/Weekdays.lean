import Almanac.Proofs.Cron.Enumeration
import Almanac.Proofs.Estimate.WeekRuns

/-!
# Weekdays of weeks and of cron texts

A week of the calendar starts on a Sunday, and cron texts number the weekdays from Sunday as well.
So the days since the start of its week say whether a day is allowed by an expression that leaves
the day of the month open, and the estimates of a week come in the order of the weekday numbers.
-/

namespace Almanac

open Almanac.Cron Almanac.Text

/-! ## The days of a week in order -/

theorem Instant.startOfWeek_eq_ok_iff {t start : Instant} {found : Date} (h : date t = .ok found) :
    startOfWeek t = .ok start ↔
      ∃ sunday : Date, sunday.dayNumber = found.sundayNumber ∧ sunday.start = start := by
  rw [startOfWeek_of_date h, map_eq_ok_iff]
  simp only [Date.startOfWeek_eq_ok_iff]

namespace Date

variable {date sunday saturday : Date}

theorem start_sub_sunday (h : sunday.dayNumber = date.sundayNumber) :
    date.start - sunday.start = date.weekday * dayMillis := by
  rw [start_eq, start_eq, h, sundayNumber]
  simp only [dayMillis, Instant]
  omega

theorem startsThrough_week (hs : sunday.dayNumber = date.sundayNumber)
    (hl : saturday.dayNumber = date.sundayNumber + 6) :
    sunday.startsThrough saturday = (List.range 7).map fun (k : Nat) =>
      sunday.start + k * dayMillis := by
  have hseven : (saturday.dayNumber - sunday.dayNumber + 1).toNat = 7 := by omega
  rw [startsThrough, hseven]

end Date

/-! ## The runs of a day by its weekday -/

namespace Cron.Expression

variable {given : String} {expression : Expression} {date : Date}

theorem firingsOn_ne_nil_iff (h : ofText given = .ok expression) :
    expression.firingsOn date ≠ [] ↔ expression.AllowsDate date := by
  rw [← exists_matchesAt_iff h]
  simp only [Instant.date_eq_ok_iff_mem, ← mem_firingsOn_iff]
  constructor
  · intro hne
    exact List.exists_mem_of_ne_nil _ hne
  · intro hfires
    rcases hfires with ⟨t, ht⟩
    exact List.ne_nil_of_mem ht

theorem countOn_eq_ite_weekday (h : ofText given = .ok expression)
    (hday : field .dayOfMonth ['*'] = .ok expression.dayOfMonth)
    (hmonth : field .month ['*'] = .ok expression.month) :
    expression.countOn date = if date.weekday ∈ expression.dayOfWeek.values then
      expression.minute.values.toFinset.card * expression.hour.values.toFinset.card else 0 := by
  have hallows := @allowsDate_iff_weekday _ _ date h hday hmonth
  split
  · rename_i hw
    exact countOn_of_allowsDate h (hallows.2 hw)
  · rename_i hw
    exact countOn_of_not_allowsDate h (mt hallows.1 hw)

end Cron.Expression

/-! ## The estimates of a week -/

namespace Uncached

variable {given : String} {expression : Expression} {config : Config} {job : Job}

theorem perDay_week (h : Expression.ofText given = .ok expression)
    (hday : Expression.field .dayOfMonth ['*'] = .ok expression.dayOfMonth)
    (hmonth : Expression.field .month ['*'] = .ok expression.month) (he : job.isEnabled = true)
    (hk : job.schedule = .cron (.text given)) (hn : 7 ≤ config.dayLimit)
    {date sunday saturday : Date} (hs : sunday.dayNumber = date.sundayNumber)
    (hl : saturday.dayNumber = date.sundayNumber + 6) :
    perDay config job (.ofInstant sunday.start) (.ofInstant saturday.stop) =
      .ok ((List.range 7).map fun (k : Nat) => ⟨sunday.start + k * dayMillis,
        .whole (if k ∈ expression.dayOfWeek.values then
          expression.minute.values.toFinset.card * expression.hour.values.toFinset.card
          else 0)⟩) := by
  have hspan : saturday.dayNumber - sunday.dayNumber + 1 ≤ config.dayLimit := by omega
  have hwhole : date.HasWholeWeek := Date.hasWholeWeek_iff.2 ⟨sunday, saturday, hs, hl⟩
  rw [perDay_eq_ncard (Job.isScheduled_of_ofText hk h) rfl rfl (Instant.date_start sunday)
      (Instant.date_stop saturday) hspan,
    Job.firings_of_ofText he hk h, Date.startsThrough_week hs hl, List.map_map]
  apply congrArg Except.ok
  apply List.map_congr_left
  intro k hrange
  have ⟨day, hd, hweekday⟩ := Date.exists_day_of_week hwhole (List.mem_range.1 hrange)
  have hstart : sunday.start + k * dayMillis = day.start := by
    rw [Date.start_eq, Date.start_eq, hd, hs, Int.add_mul]
  rw [Function.comp_apply, hstart, ← Date.stop_eq, Expression.ncard_matching_eq_countOn,
    Expression.countOn_eq_ite_weekday h hday hmonth, hweekday]

end Uncached

namespace Cron.Expression

/-- Where the day of the month is the asterisk, a day has runs exactly if its month is allowed and
so is the weekday that the number of days since the start of its week is. If the month is the
asterisk too, the estimates of a week are, from Sunday on, one run for each allowed minute of each
allowed hour on the allowed weekdays and none on the others. -/
theorem weekdays_agree_with_weeks {given : String} {expression : Expression}
    (h : ofText given = .ok expression) :
    ∃ word : FieldKind → List Char, words given.toList = FieldKind.inOrder.map word ∧
      (word .dayOfMonth = ['*'] →
        (∀ (point : TimePoint) (t sunday : Instant), point.instant = .ok t →
          Instant.startOfWeek t = .ok sunday →
          ∃ date midnight minutes, ∃ weekday : Nat, Instant.date t = .ok date ∧
            Instant.startOfDay t = .ok midnight ∧
            midnight - sunday = weekday * dayMillis ∧ weekday ≤ 6 ∧
            expression.firings point = .ok minutes ∧
            (minutes ≠ [] ↔
              date.month ∈ expression.month.values ∧ weekday ∈ expression.dayOfWeek.values)) ∧
        (word .month = ['*'] →
          ∀ anchor range config past job, DateRange.page .week anchor = .ok range →
            7 ≤ config.dayLimit → job.isEnabled = true → job.schedule = .cron (.text given) →
            (Estimator.perDay config job (.ofInstant range.start) (.ofInstant range.stop)
                (Session.after config (Session.fresh config) past)).result =
              .ok ((List.range 7).map fun (k : Nat) => ⟨range.start + k * dayMillis,
                .whole (if k ∈ expression.dayOfWeek.values then
                  expression.minute.values.toFinset.card * expression.hour.values.toFinset.card
                  else 0)⟩))) := by
  have ⟨word, hw, hfield⟩ := exists_words h
  refine ⟨word, hw, fun hany => ?_⟩
  have hday := hfield .dayOfMonth
  rw [hany] at hday
  constructor
  · intro point t sunday ht hsunday
    rcases bind_eq_ok_iff.1 hsunday with ⟨date, hd, -⟩
    rcases (Instant.startOfWeek_eq_ok_iff hd).1 hsunday with ⟨first, hfirst, rfl⟩
    have hsix := date.weekday_lt
    have hallows := @allowsDate_iff_of_any_day _ _ date h hday
    exact ⟨date, date.start, expression.firingsOn date, date.weekday, hd,
      Instant.startOfDay_of_date hd, Date.start_sub_sunday hfirst, by omega,
      firings_of_date expression ht hd, (firingsOn_ne_nil_iff h).trans hallows⟩
  · intro hopen anchor range config past job hp hn he hk
    have hmonth := hfield .month
    rw [hopen] at hmonth
    have ⟨date, hd⟩ := DateRange.exists_date_of_page hp
    rcases (DateRange.page_eq_ok_iff hd).1 hp with ⟨first, last, hdays, rfl⟩
    have ⟨hfirst, hlast⟩ := View.week_days_eq_ok_iff.1 hdays
    have hcache := Session.isCoherent_after_fresh config past
    have hyields :=
      Uncached.yields_perDay config job (.ofInstant first.start) (.ofInstant last.stop) _ hcache
    rw [hyields.1, Uncached.perDay_week h hday hmonth he hk hn hfirst hlast]

/-- The first day of 1970 was a Thursday. Sunday is named by a seven. -/
theorem weekdays_agree_with_weeks_at_epoch :
    let job : Job := ⟨.text "a", .bool true, .cron (.text "15 6,18 * * 4-7"), .null⟩
    ∃ expression, ofText "15 6,18 * * 4-7" = .ok expression ∧
      Instant.startOfWeek 0 = .ok (-345600000) ∧
      (∃ date minutes, Instant.date 0 = .ok date ∧ expression.firings (.ofInstant 0) = .ok minutes ∧
        (minutes ≠ [] ↔ date.month ∈ expression.month.values ∧ 4 ∈ expression.dayOfWeek.values)) ∧
      DateRange.page .week (.ofInstant 0) = .ok ⟨-345600000, 259199999⟩ ∧
      (Estimator.perDay .standard job (.ofInstant (-345600000)) (.ofInstant 259199999)
          (Session.after .standard (Session.fresh .standard) [.ok .clear])).result =
        .ok ((List.range 7).map fun (k : Nat) => ⟨-345600000 + k * dayMillis,
          .whole (if k ∈ [0, 4, 5, 6] then 2 else 0)⟩) := by
  intro job
  have ⟨expression, h, hminute, hhour, hvalues⟩ : ∃ expression,
      ofText "15 6,18 * * 4-7" = .ok expression ∧
      expression.minute.values = [15] ∧ expression.hour.values = [6, 18] ∧
      expression.dayOfWeek.values = [0, 4, 5, 6] :=
    ⟨_, rfl, rfl, rfl, rfl⟩
  have hpage : DateRange.page .week (.ofInstant 0) = .ok ⟨-345600000, 259199999⟩ := by
    decide +kernel
  have hsunday : Instant.startOfWeek 0 = .ok (-345600000) := by decide +kernel
  have ⟨word, hw, hagree⟩ := weekdays_agree_with_weeks h
  have hwords : words "15 6,18 * * 4-7".toList =
      ["15", "6,18", "*", "*", "4-7"].map String.toList := by decide +kernel
  rw [hwords] at hw
  have hday : "*".toList = word .dayOfMonth := Option.some.inj (congrArg (·[2]?) hw)
  have hmonth : "*".toList = word .month := Option.some.inj (congrArg (·[3]?) hw)
  have ⟨hdays, hweeks⟩ := hagree hday.symm
  have ⟨date, midnight, minutes, weekday, hd, hstart, hsince, _, hfirings, hruns⟩ :=
    hdays (.ofInstant 0) 0 _ rfl hsunday
  have hzero : Instant.startOfDay 0 = .ok 0 := by decide +kernel
  have hmidnight : midnight = 0 := Except.ok.inj (hstart.symm.trans hzero)
  have hthursday : weekday = 4 := by
    rw [hmidnight] at hsince
    simp only [dayMillis, Instant] at hsince
    omega
  rw [hthursday] at hruns
  have hweek := hweeks hmonth.symm _ _ .standard [.ok .clear] job hpage (by decide) rfl rfl
  rw [hminute, hhour, hvalues] at hweek
  exact ⟨expression, h, hsunday, ⟨date, minutes, hd, hfirings, hruns⟩, hpage, hweek⟩

end Cron.Expression

end Almanac

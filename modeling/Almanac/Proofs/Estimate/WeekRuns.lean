import Almanac.Proofs.Calendar.Partition
import Almanac.Proofs.Cron.DailyCount
import Almanac.Proofs.Estimate.Firings

/-!
# Weeks with a run

A whole week has each of the seven weekdays. So an expression that leaves the day of the month and
the month open fires in every week, if it allows any weekday at all. It allows none only where its
weekday field always starts past Saturday, and then it never fires.
-/

namespace Almanac

open Almanac.Cron Almanac.Text

/-! ## The days of a week -/

theorem Date.exists_weekday {date : Date} (h : date.HasWholeWeek) {n : Nat} (hn : n ≤ 6) :
    ∃ day : Date, day.sundayNumber = date.sundayNumber ∧ day.weekday = n := by
  rcases exists_day_of_week h (Nat.lt_succ_of_le hn) with ⟨day, hd, hweekday⟩
  exact ⟨day, sundayNumber_eq_iff_between.2 (by omega), hweekday⟩

theorem DateRange.hasWholeWeek_of_page {anchor : TimePoint} {range : DateRange} {date : Date}
    (hd : anchor.date = .ok date) (hp : page .week anchor = .ok range) : date.HasWholeWeek := by
  obtain ⟨first, last, hdays, -⟩ := (page_eq_ok_iff hd).1 hp
  exact Date.hasWholeWeek_iff.2 ⟨first, last, View.week_days_eq_ok_iff.1 hdays⟩

namespace Cron

namespace Expression

variable {given : String} {expression : Expression} {date : Date}

/-! ## Firing on a day -/

theorem exists_matchesAt_iff (h : ofText given = .ok expression) :
    (∃ t, Instant.date t = .ok date ∧ expression.MatchesAt t) ↔ expression.AllowsDate date := by
  constructor
  · intro hfires
    rcases hfires with ⟨t, hd, hmatch⟩
    have ht := (mem_firingsOn_iff expression).2 ⟨Instant.date_eq_ok_iff_mem.1 hd, hmatch⟩
    rcases List.mem_map.1 ht with ⟨k, hk, -⟩
    exact ((mem_minutesOn_iff_mem_values h).1 hk).1
  · intro hdate
    have ⟨m, hm⟩ : ∃ m, m ∈ expression.minute.values :=
      @exists_value_of_ofText .minute _ _ h (by decide)
    have ⟨o, ho⟩ : ∃ o, o ∈ expression.hour.values :=
      @exists_value_of_ofText .hour _ _ h (by decide)
    have hlt := minute_lt_of_ofText h hm
    have hminute : (o * 60 + m) % 60 = m := by omega
    have hhour : (o * 60 + m) / 60 = o := by omega
    have hk : o * 60 + m ∈ expression.minutesOn date := by
      rw [mem_minutesOn_iff_mem_values h, hminute, hhour]
      exact ⟨hdate, hm, ho⟩
    have ht := (mem_firingsOn_iff expression).1 (List.mem_map_of_mem hk)
    exact ⟨_, Instant.date_eq_ok_iff_mem.2 ht.1, ht.2⟩

/-! ## Firing in a week -/

/-- An expression that leaves the day of the month and the month open fires in a week exactly if it
allows a weekday. -/
theorem exists_matchesAt_week_iff (h : ofText given = .ok expression)
    (hday : field .dayOfMonth ['*'] = .ok expression.dayOfMonth)
    (hmonth : field .month ['*'] = .ok expression.month)
    {anchor : TimePoint} {range : DateRange} (hp : DateRange.page .week anchor = .ok range) :
    (∃ t, range.contains (.ofInstant t) = .ok true ∧ expression.MatchesAt t) ↔
      expression.dayOfWeek.values ≠ [] := by
  obtain ⟨date, hd⟩ := DateRange.exists_date_of_page hp
  constructor
  · intro hfires
    rcases hfires with ⟨t, hc, hmatch⟩
    rcases (DateRange.contains_iff_joins hd hp).1 hc with ⟨day, ht, -⟩
    have hallowed := (exists_matchesAt_iff h).1 ⟨t, ht, hmatch⟩
    exact List.ne_nil_of_mem ((allowsDate_iff_weekday h hday hmonth).1 hallowed)
  · intro hne
    obtain ⟨n, hn⟩ := List.exists_mem_of_ne_nil _ hne
    have hsix : n ≤ 6 := (@bounds_of_ofText .dayOfWeek _ _ h _ hn).2
    obtain ⟨day, hs, hweekday⟩ := Date.exists_weekday (DateRange.hasWholeWeek_of_page hd hp) hsix
    rw [← hweekday] at hn
    have hallowed := (allowsDate_iff_weekday h hday hmonth).2 hn
    obtain ⟨t, ht, hmatch⟩ := (exists_matchesAt_iff h).2 hallowed
    exact ⟨t, (DateRange.contains_iff_joins hd hp).2 ⟨day, ht, hs⟩, hmatch⟩

end Expression

end Cron

/-! ## The estimate of a week -/

namespace Job

variable {job : Job} {given : String} {expression : Expression}

theorem isScheduled_of_ofText (hs : job.schedule = .cron (.text given))
    (h : Expression.ofText given = .ok expression) :
    job.IsScheduled := by
  intro _
  rw [hs]
  exact ⟨expression, h⟩

theorem firings_of_ofText (he : job.isEnabled = true) (hs : job.schedule = .cron (.text given))
    (h : Expression.ofText given = .ok expression) :
    job.firings = {t | expression.MatchesAt t} := by
  have hvalue : Expression.ofValue (.text given) = .ok expression := h
  rw [firings_of_isEnabled he, hs, Schedule.firings_cron hvalue]

end Job

namespace Uncached

theorem total_eq_ncard {config : Config} {job : Job} (h : job.IsScheduled) {first last : Date}
    (hle : first.dayNumber ≤ last.dayNumber)
    (hn : last.dayNumber - first.dayNumber + 1 ≤ config.dayLimit) :
    total config job (.ofInstant first.start) (.ofInstant last.stop) =
      .ok (.whole (job.firings ∩ Set.Icc first.start last.stop).ncard) := by
  have hper :=
    perDay_eq_ncard h (TimePoint.instant_ofInstant first.start)
      (TimePoint.instant_ofInstant last.stop)
    (Instant.date_start first) (Instant.date_stop last) hn
  rw [total, hper, ← totalOf_ncard job.firings hle]
  rfl

end Uncached

/-- The runs over a week are none exactly if the job does not fire in it. -/
theorem Estimator.exists_week_total (config : Config) (past : List (Except Error Request))
    {job : Job} (h : job.IsScheduled) (hn : 7 ≤ config.dayLimit) {anchor : TimePoint}
    {range : DateRange} (hp : DateRange.page .week anchor = .ok range) :
    ∃ runs, (total config job (.ofInstant range.start) (.ofInstant range.stop)
        (Session.after config (Session.fresh config) past)).result = .ok (.whole runs) ∧
      (0 < runs ↔ ∃ t, range.contains (.ofInstant t) = .ok true ∧ t ∈ job.firings) := by
  obtain ⟨date, hd⟩ := DateRange.exists_date_of_page hp
  obtain ⟨first, last, hdays, rfl⟩ := (DateRange.page_eq_ok_iff hd).1 hp
  have hfirst := (View.week_days_eq_ok_iff.1 hdays).1
  have hlast := (View.week_days_eq_ok_iff.1 hdays).2
  have hcache := Session.isCoherent_after_fresh config past
  have hyields :=
    ((Uncached.yields_total config job (.ofInstant first.start) (.ofInstant last.stop)) _ hcache).1
  have htotal := @Uncached.total_eq_ncard config job h first last (by omega) (by omega)
  have hfinite : (job.firings ∩ Set.Icc first.start last.stop).Finite :=
    (Set.finite_Icc first.start last.stop).inter_of_right job.firings
  refine ⟨_, hyields.trans htotal, ?_⟩
  rw [Set.ncard_pos hfinite]
  simp only [DateRange.contains_ofInstant_iff]
  exact exists_congr fun t => and_comm

namespace Cron.Expression

/-- The fields of an accepted expression allow numbers in their bounds only, and each allows some,
unless the weekday field always starts past Saturday. If day of the month and month are the
asterisk, every week has a run with the same exception. -/
theorem runs_every_week {given : String} {expression : Expression}
    (h : ofText given = .ok expression) :
    ∃ word : FieldKind → List Char, words given.toList = FieldKind.inOrder.map word ∧
      (∀ kind, ∀ n ∈ (expression.fieldOf kind).values, kind.low ≤ n ∧ n ≤ kind.stepHigh) ∧
      (∀ kind, (expression.fieldOf kind).values = [] ↔
        kind = .dayOfWeek ∧ Pattern.AlwaysPastSaturday (word kind)) ∧
      (word .dayOfMonth = ['*'] → word .month = ['*'] →
        ∀ anchor range, DateRange.page .week anchor = .ok range →
          ((∃ t, range.contains (.ofInstant t) = .ok true ∧ expression.MatchesAt t) ↔
            ¬ Pattern.AlwaysPastSaturday (word .dayOfWeek)) ∧
          ∀ config past job, 7 ≤ config.dayLimit → job.isEnabled = true →
            job.schedule = .cron (.text given) →
            ∃ runs, (Estimator.total config job (.ofInstant range.start) (.ofInstant range.stop)
                (Session.after config (Session.fresh config) past)).result = .ok (.whole runs) ∧
              (0 < runs ↔ ¬ Pattern.AlwaysPastSaturday (word .dayOfWeek))) := by
  obtain ⟨word, hw, hfield⟩ := exists_words h
  have hempty := fun kind => values_eq_nil_iff_of_field (hfield kind)
  refine ⟨word, hw, fun kind n hn => bounds_of_ofText h hn, hempty, ?_⟩
  intro hday hmonth anchor range hp
  have hdays := hfield .dayOfMonth
  have hmonths := hfield .month
  rw [hday] at hdays
  rw [hmonth] at hmonths
  have hsome : expression.dayOfWeek.values ≠ [] ↔ ¬ Pattern.AlwaysPastSaturday (word .dayOfWeek) :=
    not_congr ((hempty .dayOfWeek).trans (and_iff_right rfl))
  have hweek := (exists_matchesAt_week_iff h hdays hmonths hp).trans hsome
  refine ⟨hweek, ?_⟩
  intro config past job hlimit he hs
  obtain ⟨runs, htotal, hpos⟩ :=
    Estimator.exists_week_total config past (Job.isScheduled_of_ofText hs h) hlimit hp
  rw [Job.firings_of_ofText he hs h] at hpos
  exact ⟨runs, htotal, hpos.trans hweek⟩

/-- One of the two weekday items covers nothing, the other one Friday and Sunday. -/
theorem runs_every_week_at_epoch :
    let job : Job := ⟨.text "a", .bool true, .cron (.text "30 6 * * 7/3,5-7/2"), .null⟩
    ∃ expression, ofText "30 6 * * 7/3,5-7/2" = .ok expression ∧
      expression.dayOfWeek.values = [0, 5] ∧
      DateRange.page .week (.ofInstant 0) = .ok ⟨-345600000, 259199999⟩ ∧
      ∃ runs, (Estimator.total .standard job (.ofInstant (-345600000)) (.ofInstant 259199999)
        (Session.after .standard (Session.fresh .standard) [.ok .clear])).result =
          .ok (.whole runs) ∧ 0 < runs := by
  intro job
  obtain ⟨expression, h, hvalues⟩ : ∃ expression, ofText "30 6 * * 7/3,5-7/2" = .ok expression ∧
      expression.dayOfWeek.values = [0, 5] := ⟨_, rfl, rfl⟩
  have hpage : DateRange.page .week (.ofInstant 0) = .ok ⟨-345600000, 259199999⟩ := by
    decide +kernel
  obtain ⟨word, hw, -, hempty, hweek⟩ := runs_every_week h
  have hday := (Option.some.inj (congrArg (·[2]?) hw)).symm
  have hmonth := (Option.some.inj (congrArg (·[3]?) hw)).symm
  have hsome : ¬ Pattern.AlwaysPastSaturday (word .dayOfWeek) := by
    intro hpast
    have hnil : expression.dayOfWeek.values = [] := (hempty .dayOfWeek).2 ⟨rfl, hpast⟩
    rw [hvalues] at hnil
    contradiction
  obtain ⟨runs, htotal, hpos⟩ :=
    (hweek hday hmonth _ _ hpage).2 .standard [.ok .clear] job (by decide) rfl rfl
  exact ⟨expression, h, hvalues, hpage, runs, htotal, hpos.2 hsome⟩

/-- A weekday that starts past Saturday is accepted, and then the week has no run. -/
theorem accepted_without_run :
    (∃ expression, ofText "0 0 * * 7/7" = .ok expression ∧ expression.dayOfWeek.values = []) ∧
      DateRange.page .week (.ofInstant 0) = .ok ⟨-345600000, 259199999⟩ ∧
      (Estimator.total .standard ⟨.text "a", .bool true, .cron (.text "0 0 * * 7/7"), .null⟩
        (.ofInstant (-345600000)) (.ofInstant 259199999) (Session.fresh .standard)).result =
          .ok (.whole 0) :=
  ⟨⟨_, rfl, rfl⟩, by decide +kernel, by decide +kernel⟩

end Cron.Expression

end Almanac

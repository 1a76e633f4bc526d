import Almanac.Proofs.Calendar.Partition
import Almanac.Proofs.Cron.Faults
import Almanac.Proofs.Page.Totals

/-!
# Refused jobs do not take a page down

The row of a job whose cron text is refused shows the refusal and no runs, and all other rows and
the page are there nevertheless. Only a text with too long a numeral is neither an expression nor
refused, and a job with such a text leaves no page.
-/

namespace Almanac

open Almanac.Cron Almanac.Text

def Job.IsRefused (job : Job) (refusal : ParseError) : Prop :=
  job.isEnabled = true ∧ ∃ text, job.schedule = .cron (.text text) ∧
    Expression.ofText text = .error (.cron refusal)

/-- The row is that of the job, and shows the refusal of its cron text with no runs, or else no
refusal. -/
def JobRow.Reports (row : JobRow) (job : Job) : Prop :=
  row.id = job.id ∧ (∀ refusal, row.refusal = some refusal ↔ job.IsRefused refusal) ∧
    (row.refusal ≠ none → row.total = .whole 0)

theorem Job.isRefused_iff {job : Job} {text : String} (hk : job.schedule = .cron (.text text))
    {refusal : ParseError} :
    job.IsRefused refusal ↔
      job.isEnabled = true ∧ Expression.ofText text = .error (.cron refusal) := by
  simp [IsRefused, hk]

namespace Uncached

variable {config : Config} {job : Job} {first last : Date}

/-! ## Rows -/

theorem onDay_of_text {text : String} (hk : job.schedule = .cron (.text text)) (date : Date) :
    onDay config job (.ofInstant date.start) =
      if job.isEnabled then
        (Expression.ofText text).map fun expression => .whole (expression.countOn date)
      else .ok (.whole 0) := by
  rw [onDay, TimePoint.date_ofInstant, Instant.date_start]
  split
  · show onDate config job date = _
    rw [onDate, hk]
    show (Expression.ofText text >>= _) = _
    cases Expression.ofText text <;> rfl
  · rfl

theorem exists_jobRow_of_counted (hn : last.dayNumber - first.dayNumber + 1 ≤ config.dayLimit)
    (h : ∀ date : Date, ∃ count, onDay config job (.ofInstant date.start) = .ok count) :
    ∃ row, jobRow config ⟨first.start, last.stop⟩ job = .ok row ∧ row.1.id = job.id ∧
      row.1.refusal = none := by
  have hdays : ∀ day ∈ first.startsThrough last, ∃ count, dayCount config job day = .ok count ∧
      count.day = day := by
    intro day hday
    obtain ⟨date, rfl, -⟩ := Date.exists_of_mem_startsThrough hday
    obtain ⟨count, hc⟩ := h date
    exact ⟨⟨date.start, count⟩, bind_eq_ok_iff.2 ⟨count, hc, rfl⟩, rfl⟩
  obtain ⟨counts, hc, -⟩ := exists_mapM_eq_ok hdays
  refine ⟨(⟨job.id, Estimator.totalOf counts, none⟩, counts), ?_, rfl, rfl⟩
  rw [jobRow, perDay_of_page hn, hc]
  rfl

/-- A job with a cron text has a row that reports it, unless it is switched on and its text has too
long a numeral. -/
theorem exists_jobRow {text : String} (hk : job.schedule = .cron (.text text))
    (hread : job.isEnabled = true → Expression.ofText text ≠ .error .numeralTooLong)
    (hle : first.dayNumber ≤ last.dayNumber)
    (hn : last.dayNumber - first.dayNumber + 1 ≤ config.dayLimit) :
    ∃ row, jobRow config ⟨first.start, last.stop⟩ job = .ok row ∧ row.1.Reports job := by
  have hday := @onDay_of_text config _ _ hk
  by_cases he : job.isEnabled = true
  · simp only [he, if_true] at hday
    rcases Expression.ofText_cases text with ⟨expression, hr⟩ | ⟨refusal, hr⟩ | ⟨hr, -⟩
    · obtain ⟨row, hrow, hid, hnone⟩ :=
        exists_jobRow_of_counted hn fun date => ⟨_, by rw [hday date, hr]; rfl⟩
      exact ⟨row, hrow, hid, by simp [hnone, Job.isRefused_iff hk, hr], by simp [hnone]⟩
    · have hperDay : perDay config job (.ofInstant first.start) (.ofInstant last.stop) =
          .error (.cron refusal) :=
        perDay_of_error hle hn (by rw [hday first, hr]; rfl)
      refine ⟨(⟨job.id, .whole 0, some refusal⟩, []), by rw [jobRow, hperDay]; rfl, rfl,
        ?_, by simp⟩
      simp [Job.isRefused_iff hk, he, hr]
    · exact absurd hr (hread he)
  · obtain ⟨row, hrow, hid, hnone⟩ :=
      exists_jobRow_of_counted hn fun date => ⟨_, by rw [hday date, if_neg he]⟩
    exact ⟨row, hrow, hid, by simp [hnone, Job.isRefused_iff hk, he], by simp [hnone]⟩

/-! ## The page -/

theorem exists_dayRows (tally : Tally) (first last : Date) :
    ∃ rows, Page.dayRows tally (first.startsThrough last) = .ok rows := by
  rw [Page.dayRows_eq_mapM]
  have hdays : ∀ day ∈ first.startsThrough last, ∃ row, Page.dayRow tally day = .ok row ∧
      row.day = day := by
    intro day hday
    obtain ⟨date, rfl, -⟩ := Date.exists_of_mem_startsThrough hday
    exact ⟨_, by rw [Page.dayRow, Instant.date_start]; rfl, rfl⟩
  obtain ⟨rows, hr, -⟩ := exists_mapM_eq_ok hdays
  exact ⟨rows, hr⟩

theorem exists_page_of_rows {jobs : List Job} {anchor : TimePoint} {view : View}
    {R : Job → JobRow → Prop} (hp : DateRange.page view anchor = .ok ⟨first.start, last.stop⟩)
    (h : ∀ job ∈ jobs, ∃ row, jobRow config ⟨first.start, last.stop⟩ job = .ok row ∧ R job row.1) :
    ∃ built, page config jobs anchor (.text view.name) = .ok built ∧ built.view = view ∧
      built.range = ⟨first.start, last.stop⟩ ∧ List.Forall₂ R jobs built.jobs := by
  obtain ⟨rows, hrows, hall⟩ := exists_mapM_eq_ok h
  obtain ⟨days, hdays⟩ := exists_dayRows (.ofCounts (rows.flatMap (·.2))) first last
  have hlisted := listDays_of_dates (Instant.date_start first) (Instant.date_stop last)
  refine ⟨⟨view, ⟨first.start, last.stop⟩, days, rows.map (·.1)⟩, ?_, rfl, rfl,
    List.forall₂_map_right_iff.2 hall⟩
  refine bind_eq_ok_iff.2 ⟨view, View.ofValue_name view, ?_⟩
  refine bind_eq_ok_iff.2 ⟨_, hp, ?_⟩
  refine bind_eq_ok_iff.2 ⟨rows, hrows, ?_⟩
  refine bind_eq_ok_iff.2 ⟨_, hlisted, ?_⟩
  exact bind_eq_ok_iff.2 ⟨days, hdays, rfl⟩

/-- A job whose text is not read leaves no page, whatever jobs come after it. -/
theorem page_of_unread {text : String} (hk : job.schedule = .cron (.text text))
    (he : job.isEnabled = true)
    (hr : Expression.ofText text = .error .numeralTooLong) {anchor : TimePoint} {view : View}
    (hp : DateRange.page view anchor = .ok ⟨first.start, last.stop⟩)
    (hle : first.dayNumber ≤ last.dayNumber)
    (hn : last.dayNumber - first.dayNumber + 1 ≤ config.dayLimit) (others : List Job) :
    page config (job :: others) anchor (.text view.name) = .error .numeralTooLong := by
  have hperDay : perDay config job (.ofInstant first.start) (.ofInstant last.stop) =
      .error .numeralTooLong := by
    apply perDay_of_error hle hn
    rw [onDay_of_text hk, if_pos he, hr]
    rfl
  have hrow : jobRow config ⟨first.start, last.stop⟩ job = .error .numeralTooLong := by
    rw [jobRow, hperDay]
    rfl
  refine bind_eq_error_iff.2 (.inr ⟨view, View.ofValue_name view, ?_⟩)
  refine bind_eq_error_iff.2 (.inr ⟨_, hp, ?_⟩)
  refine bind_eq_error_iff.2 (.inl ?_)
  rw [List.mapM_cons, hrow]
  rfl

end Uncached

namespace Page

variable (config : Config) (past : List (Except Error Request))

/-- A cron text is an expression, or refused, or has too long a numeral. Unless a job that is
switched on has a text of the last sort, every day, month and year that the configuration covers has
a page, on which each job has its row and shows the refusal of its text. -/
theorem refused_jobs_reported :
    (∀ given : String, (∃ expression, Expression.ofText given = .ok expression) ∨
        (∃ refusal, Expression.ofText given = .error (.cron refusal)) ∨
        Expression.ofText given = .error .numeralTooLong ∧ ¬ HasShortNumerals given.toList) ∧
      ∀ (jobs : List Job) (anchor : TimePoint) (a : Instant) (view : View),
        anchor.instant = .ok a → a.IsDated → view ≠ .week →
        (∀ job ∈ jobs, ∃ text, job.schedule = .cron (.text text) ∧
          (job.isEnabled = true → Expression.ofText text ≠ .error .numeralTooLong)) →
        ∃ range days, DateRange.page view anchor = .ok range ∧ range.days = .ok days ∧
          (days ≤ config.dayLimit → ∃ page,
            (build config jobs anchor (.text view.name)
              (Session.after config (Session.fresh config) past)).result =
              .ok page ∧
            page.view = view ∧ page.range = range ∧
            List.Forall₂ (fun job row => JobRow.Reports row job) jobs page.jobs) := by
  refine ⟨Expression.ofText_cases, ?_⟩
  intro jobs anchor a view ha hs hv hjobs
  obtain ⟨range, hp⟩ := DateRange.exists_page hv ha hs
  obtain ⟨first, last, rfl, hle⟩ := DateRange.exists_dates_of_page hp
  refine ⟨_, _, hp, DateRange.days_of_dates first last, fun hn => ?_⟩
  have hcache := Session.isCoherent_after_fresh config past
  rw [(Uncached.yields_page config jobs anchor (.text view.name) _ hcache).1]
  apply Uncached.exists_page_of_rows hp
  intro job hj
  obtain ⟨text, hk, hread⟩ := hjobs job hj
  exact Uncached.exists_jobRow hk hread hle hn

/-- One refused text stands beside the same text of a job that is switched off and beside an
expression. -/
theorem refused_jobs_reported_in_month :
    let jobs : List Job := [⟨.text "a", .bool true, .cron (.text "60 * * * *"), .null⟩,
      ⟨.text "b", .bool false, .cron (.text "60 * * * *"), .null⟩,
      ⟨.text "c", .bool true, .cron (.text "0 9 * * 1-5"), .null⟩]
    let cache :=
      Session.after .standard (Session.fresh .standard) [.ok (.expression (.text "0 9 * * 1-5"))]
    DateRange.page .month (.ofInstant 0) = .ok ⟨0, 2678399999⟩ ∧
      ∃ page, (build .standard jobs (.ofInstant 0) (.text "month") cache).result = .ok page ∧
        page.range = ⟨0, 2678399999⟩ ∧
        List.Forall₂ (fun job row => JobRow.Reports row job) jobs page.jobs := by
  intro jobs cache
  have hread : ∀ text : String, text.toList.length ≤ digitLimit →
      Expression.ofText text ≠ .error .numeralTooLong := by
    intro text hl hr
    rcases (refused_jobs_reported .standard []).1 text with ⟨expression, h⟩ | ⟨refusal, h⟩ | ⟨-, h⟩
    · simp [hr] at h
    · simp [hr] at h
    · exact h (.of_length hl)
  have hjobs : ∀ job ∈ jobs, ∃ text, job.schedule = .cron (.text text) ∧
      (job.isEnabled = true → Expression.ofText text ≠ .error .numeralTooLong) := by
    simp only [jobs, List.forall_mem_cons]
    exact ⟨⟨_, rfl, fun _ => hread _ (by decide)⟩, ⟨_, rfl, fun _ => hread _ (by decide)⟩,
      ⟨_, rfl, fun _ => hread _ (by decide)⟩, by simp⟩
  have hmonth : DateRange.page .month (.ofInstant 0) = .ok ⟨0, 2678399999⟩ := by decide +kernel
  have hdays : DateRange.days ⟨0, 2678399999⟩ = .ok 31 := by decide +kernel
  obtain ⟨range, days, hp, hd, hpage⟩ :=
    (refused_jobs_reported .standard [.ok (.expression (.text "0 9 * * 1-5"))]).2 jobs
      (.ofInstant 0) 0 .month rfl
      (by decide) (by decide) hjobs
  obtain rfl := Except.ok.inj (hmonth.symm.trans hp)
  obtain rfl := Except.ok.inj (hdays.symm.trans hd)
  obtain ⟨page, hbuilt, -, hrange, hrows⟩ := hpage (by decide)
  exact ⟨hmonth, page, hbuilt, hrange, hrows⟩

/-- A minute of 4301 digits is out of its range, but its text is not refused, and the job leaves no
page. -/
theorem long_minute_takes_page_down :
    Expression.ofText (String.ofList (List.replicate 4301 '9' ++ ' ' :: "* * * *".toList)) =
      .error .numeralTooLong ∧
      (build .standard
        [⟨.text "a", .bool true,
          .cron (.text (String.ofList (List.replicate 4301 '9' ++ ' ' :: "* * * *".toList))),
          .null⟩]
        (.ofInstant 0) (.text "day") (Session.fresh .standard)).result =
        .error .numeralTooLong := by
  have hdigits : isDigits (List.replicate 4301 '9') = true := by
    rw [isDigits, List.isEmpty_replicate, List.all_replicate]
    decide
  have hlong : digitLimit < (List.replicate 4301 '9').length := by
    rw [List.length_replicate]
    decide
  have hrest : (words "* * * *".toList).length = 4 := by decide +kernel
  have hread := Expression.ofText_of_long_minute hdigits hlong hrest
  have hday : DateRange.page .day (.ofInstant 0) = .ok ⟨0, 86399999⟩ := by decide +kernel
  refine ⟨hread, ?_⟩
  obtain ⟨first, last, hrange, hle⟩ := DateRange.exists_dates_of_page hday
  have hdays := DateRange.days_of_dates first last
  rw [← hrange] at hdays
  have hone : DateRange.days ⟨0, 86399999⟩ = .ok 1 := by decide +kernel
  have hcount := Except.ok.inj (hdays.symm.trans hone)
  rw [hrange] at hday
  rw [(Uncached.yields_page .standard _ _ _ _ (Session.isCoherent_fresh .standard)).1]
  exact Uncached.page_of_unread rfl rfl hread hday hle (by rw [hcount]; decide) []

end Page

end Almanac

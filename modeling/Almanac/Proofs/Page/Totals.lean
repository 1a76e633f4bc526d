import Almanac.Proofs.Calendar.Pages
import Almanac.Proofs.Page.Rows
import Almanac.Proofs.Page.Tally

/-!
# A page adds up

The counts of a page form a table of days and jobs. The row of a job is the sum over the days, the
row of a day is the sum over the jobs, and both kinds of rows have the total of the page as their
sum. Jobs whose cron text is refused have no runs in it, and no job changes what another one has.
-/

namespace Almanac

open Almanac.Cron

/-! ## The days of a page -/

theorem Page.dayRows_eq_mapM (tally : Tally) (days : List Instant) :
    dayRows tally days = days.mapM (dayRow tally) := by
  induction days with
  | nil => rfl
  | cons day rest ih => rw [dayRows, List.mapM_cons, ih]

theorem Page.dayRow_eq_ok {tally : Tally} {day : Instant} {row : DayRow}
    (h : dayRow tally day = .ok row) :
    row.day = day ∧ row.count = tally.runsOn day := by
  rcases map_eq_ok_iff.1 h with ⟨date, -, rfl⟩
  exact ⟨rfl, rfl⟩

theorem Page.dayRows_eq_ok {tally : Tally} {days : List Instant} {rows : List DayRow}
    (h : dayRows tally days = .ok rows) :
    rows.map (·.day) = days ∧ ∀ row ∈ rows, row.count = tally.runsOn row.day := by
  rw [dayRows_eq_mapM] at h
  have hall := mapM_eq_ok_iff.1 h
  clear h
  induction hall with
  | nil => exact ⟨rfl, by simp⟩
  | cons hrow _ ih =>
      rcases dayRow_eq_ok hrow with ⟨hday, hcount⟩
      obtain ⟨hdays, hcounts⟩ := ih
      refine ⟨by rw [List.map_cons, hday, hdays], List.forall_mem_cons.2 ⟨?_, hcounts⟩⟩
      rw [hcount, hday]

/-- The page has one row for each day of its range, in order. -/
def Page.CoversRange (page : Page) : Prop :=
  (page.days.map (·.day)).Pairwise (· < ·) ∧
    ∀ day, day ∈ page.days.map (·.day) ↔
      ∃ date : Date, date.start = day ∧ page.range.start ≤ day ∧ day ≤ page.range.stop

/-- The row of each day is the sum of what requests for that day alone count, without the jobs they
refuse. -/
def Page.AddsUpDays (config : Config) (jobs : List Job) (page : Page) : Prop :=
  ∀ row ∈ page.days, ∃ runs : List (Option Count),
    List.Forall₂ (Job.RunsAlone config row.day) jobs runs ∧ row.count = Count.sum runs.reduceOption

namespace Uncached

variable {config : Config} {first last : Date} {jobs : List Job}

def AreRows (config : Config) (first last : Date) (jobs : List Job)
    (rows : List (JobRow × List DayCount)) : Prop :=
  List.Forall₂ (fun job row => jobRow config ⟨first.start, last.stop⟩ job = .ok row) jobs rows

variable {rows : List (JobRow × List DayCount)}

theorem total_of_jobRow {job : Job} {row : JobRow × List DayCount}
    (hr : jobRow config ⟨first.start, last.stop⟩ job = .ok row) :
    row.1.total = Count.sum ((first.startsThrough last).filterMap (runsOn config job)) := by
  obtain ⟨-, ht, hcounts⟩ := jobRow_days hr
  have hmap : row.2.map (·.count) = (first.startsThrough last).filterMap (runsOn config job) := by
    rw [hcounts, List.map_filterMap]
    apply List.filterMap_congr
    intro day _
    cases runsOn config job day <;> rfl
  rw [ht, Estimator.totalOf, hmap]

/-- The tally of a day is the sum over the jobs that can be counted on it. -/
theorem runsOn_tally (hrows : AreRows config first last jobs rows) {day : Instant}
    (hday : day ∈ first.startsThrough last) :
    (Tally.ofCounts (rows.flatMap (·.2))).runsOn day =
      Count.sum (jobs.filterMap (runsOn config · day)) := by
  suffices h : ((rows.flatMap (·.2)).filter (·.day = day)).map (·.count) =
      jobs.filterMap (runsOn config · day) by
    rw [Tally.runsOn_ofCounts, Estimator.totalOf, h]
  induction hrows with
  | nil => rfl
  | cons hr _ ih =>
      rename_i job row jobs rows _
      rcases jobRow_days hr with ⟨-, -, hcounts⟩
      -- the days of one job are all different, so it adds one count at most
      have hone :=
        filter_day_of_mem (f := runsOn config job) (Date.nodup_startsThrough first last) hday
      rw [← hcounts] at hone
      rw [List.flatMap_cons, List.filter_append, List.map_append, ih, hone, List.filterMap_cons]
      cases runsOn config job day <;> rfl

theorem runsAlone_of_rows (hrows : AreRows config first last jobs rows) {day : Instant}
    (hday : day ∈ first.startsThrough last) :
    List.Forall₂ (Job.RunsAlone config day) jobs (jobs.map (runsOn config · day)) := by
  induction hrows with
  | nil => exact .nil
  | cons hr _ ih => exact .cons ((jobRow_days hr).1 day hday) ih

def wholeRunsOn (config : Config) (job : Job) (day : Instant) : Nat :=
  match runsOn config job day with
  | some (.whole n) => n
  | _ => 0

theorem runsOn_eq_wholeRunsOn {job : Job} (h : job.CountsWhole) (day : Instant) :
    runsOn config job day = some (.whole (wholeRunsOn config job day)) ∨
      runsOn config job day = none ∧ wholeRunsOn config job day = 0 := by
  unfold wholeRunsOn
  cases hr : runsOn config job day with
  | none => exact .inr ⟨rfl, rfl⟩
  | some count =>
      rcases runsOn_whole h hr with ⟨n, rfl⟩
      exact .inl rfl

theorem sum_of_day (hjobs : ∀ job ∈ jobs, job.CountsWhole) (day : Instant) :
    Count.sum (jobs.filterMap (runsOn config · day)) =
      .whole (jobs.map (wholeRunsOn config · day)).sum :=
  Count.sum_filterMap fun job hj => runsOn_eq_wholeRunsOn (hjobs job hj) day

theorem sum_of_row {job : Job} (h : job.CountsWhole) {row : JobRow × List DayCount}
    (hr : jobRow config ⟨first.start, last.stop⟩ job = .ok row) :
    row.1.total = .whole ((first.startsThrough last).map (wholeRunsOn config job)).sum := by
  rw [total_of_jobRow hr]
  exact Count.sum_filterMap fun day _ => runsOn_eq_wholeRunsOn h day

/-- Whole counts have the same sum by days as by jobs. -/
theorem sum_totals_eq (hrows : AreRows config first last jobs rows)
    (hjobs : ∀ job ∈ jobs, job.CountsWhole) :
    Count.sum (rows.map (·.1.total)) =
      Count.sum ((first.startsThrough last).map fun day =>
        Count.sum (jobs.filterMap (runsOn config · day))) := by
  have htotals : rows.map (·.1.total) =
      (jobs.map fun job => ((first.startsThrough last).map (wholeRunsOn config job)).sum).map
        .whole := by
    induction hrows with
    | nil => rfl
    | cons hr _ ih =>
        rcases List.forall_mem_cons.1 hjobs with ⟨hhead, hrest⟩
        rw [List.map_cons, ih hrest, sum_of_row hhead hr]
        rfl
  have hdays :
      (first.startsThrough last).map (fun day => Count.sum (jobs.filterMap (runsOn config · day))) =
        ((first.startsThrough last).map fun day => (jobs.map (wholeRunsOn config · day)).sum).map
          .whole := by
    rw [List.map_map]
    exact List.map_congr_left fun day _ => sum_of_day hjobs day
  rw [htotals, hdays, Count.sum_whole, Count.sum_whole, sum_sum_comm]

theorem page_cases {anchor : TimePoint} {view : Value} {built : Page}
    (h : page config jobs anchor view = .ok built) :
    View.ofValue view = .ok built.view ∧ DateRange.page built.view anchor = .ok built.range ∧
      ∃ (first last : Date) (rows : List (JobRow × List DayCount)),
        built.range = ⟨first.start, last.stop⟩ ∧ AreRows config first last jobs rows ∧
          built.jobs = rows.map (·.1) ∧ built.days.map (·.day) = first.startsThrough last ∧
            ∀ row ∈ built.days,
              row.count = Count.sum (jobs.filterMap (runsOn config · row.day)) := by
  rcases bind_eq_ok_iff.1 h with ⟨view, hv, h⟩
  obtain ⟨range, hp, h⟩ := bind_eq_ok_iff.1 h
  rcases bind_eq_ok_iff.1 h with ⟨rows, hr, h⟩
  obtain ⟨days, hl, h⟩ := bind_eq_ok_iff.1 h
  rcases bind_eq_ok_iff.1 h with ⟨dayRows, hd, h⟩
  rcases DateRange.exists_dates_of_page hp with ⟨first, last, rfl, -⟩
  have hrows : AreRows config first last jobs rows := mapM_eq_ok_iff.1 hr
  have hdays : days = first.startsThrough last := by
    rw [listDays_of_dates (Instant.date_start first) (Instant.date_stop last)] at hl
    exact (Except.ok.inj hl).symm
  rcases Page.dayRows_eq_ok hd with ⟨hstarts, hcounts⟩
  rw [hdays] at hstarts
  rw [← Except.ok.inj h]
  refine ⟨hv, hp, first, last, rows, rfl, hrows, rfl, hstarts, fun row hrow => ?_⟩
  have hday : row.day ∈ first.startsThrough last := hstarts ▸ List.mem_map_of_mem hrow
  rw [hcounts row hrow, runsOn_tally hrows hday]

end Uncached

namespace Page

variable {config : Config} {jobs : List Job} {anchor : TimePoint} {view : Value} {page : Page}

/-- The page of a view shows the range of that view around the anchor, day by day, and each job as
if it was the only one. Its total is the sum of the rows of the jobs and, if all counts are natural
numbers, also of the days. -/
theorem adds_up (past : List (Except Error Request))
    (h : (build config jobs anchor view (Session.after config (Session.fresh config) past)).result =
      .ok page) :
    View.ofValue view = .ok page.view ∧ DateRange.page page.view anchor = .ok page.range ∧
      page.CoversRange ∧ page.AddsUpDays config jobs ∧
        List.Forall₂ (JobRow.IsAlone config page.range) jobs page.jobs ∧
          page.total = Count.sum (page.jobs.map (·.total)) ∧
            ((∀ job ∈ jobs, job.CountsWhole) →
              page.total = Count.sum (page.days.map (·.count))) := by
  have hcache := Session.isCoherent_after_fresh config past
  rw [(Uncached.yields_page config jobs anchor view _ hcache).1] at h
  rcases Uncached.page_cases h with ⟨hv, hp, first, last, rows, hrange, hrows, hjobs,
    hdays, hcounts⟩
  refine ⟨hv, hp, ?_, fun row hrow => ?_, ?_, rfl, fun hwhole => ?_⟩
  · rw [CoversRange, hdays, hrange]
    exact ⟨Date.pairwise_startsThrough first last, fun day => Date.mem_startsThrough_iff⟩
  · have hday : row.day ∈ first.startsThrough last := hdays ▸ List.mem_map_of_mem hrow
    refine ⟨_, Uncached.runsAlone_of_rows hrows hday, ?_⟩
    rw [hcounts row hrow, List.reduceOption, List.filterMap_map]
    rfl
  · rw [hjobs, List.forall₂_map_right_iff, hrange]
    exact hrows.imp fun job row hr => Uncached.jobRow_isAlone hr
  · have hsum := Uncached.sum_totals_eq hrows hwhole
    have hcol : page.days.map (·.count) =
        (first.startsThrough last).map fun day =>
          Count.sum (jobs.filterMap (Uncached.runsOn config · day)) := by
      rw [← hdays, List.map_map]
      exact List.map_congr_left hcounts
    rw [total, hjobs, List.map_map, hcol, ← hsum]
    rfl

theorem adds_up_in_week :
    let jobs : List Job := [⟨.text "a", .bool true, .cron (.text "0 9 8-1 * *"), .null⟩,
      ⟨.text "b", .bool true, .every 7200000, .int 90000000⟩,
      ⟨.text "b", .bool true, .once 0, .null⟩]
    let cache :=
      Session.after .standard (Session.fresh .standard) [.ok (.expression (.text "* * * * *"))]
    ∃ page, (build .standard jobs (.ofInstant 0) (.text "week") cache).result = .ok page ∧
      page.CoversRange ∧ page.AddsUpDays .standard jobs ∧
        List.Forall₂ (JobRow.IsAlone .standard page.range) jobs page.jobs ∧
          page.total = Count.sum (page.days.map (·.count)) := by
  intro jobs cache
  have hwhole : ∀ job ∈ jobs, job.CountsWhole := by simp [jobs, Job.CountsWhole]
  have hok : (build .standard jobs (.ofInstant 0) (.text "week") cache).result.isOk = true := by
    decide +kernel
  cases hbuilt : (build .standard jobs (.ofInstant 0) (.text "week") cache).result with
  | error error => simp [hbuilt, Except.isOk, Except.toBool] at hok
  | ok page =>
      rcases adds_up _ hbuilt with ⟨-, -, hrange, hdays, hjobs, -, htotal⟩
      exact ⟨page, rfl, hrange, hdays, hjobs, htotal hwhole⟩

end Page

end Almanac

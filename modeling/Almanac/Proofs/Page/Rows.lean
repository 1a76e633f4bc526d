import Almanac.Proofs.Estimate.Failures
import Almanac.Proofs.Job.Storage
import Almanac.Proofs.Session.History

/-!
# Rows of jobs

The row of a job comes from its estimate over the days of the page. Either every day has its count,
or the cron text of the job is refused, and then it is refused on every day alike. Counts are
natural numbers unless a job is anchored on a floating-point number.
-/

namespace Almanac

open Almanac.Cron Cached

/-- The job is not anchored on a floating-point number. -/
def Job.CountsWhole (job : Job) : Prop := ∀ x, job.reference ≠ .real x

/-- No job of a stored record is anchored on a floating-point number. -/
theorem Job.countsWhole_of_ofValue {value : Value} {job : Job} (h : ofValue value = .ok job) :
    job.CountsWhole := by
  intro x
  rcases reference_of_ofValue h with hnull | ⟨n, hint⟩
  · simp [hnull]
  · simp [hint]

/-- What a request for the day of an instant alone gives: how often the job runs, or nothing where
its cron text is refused. -/
def Job.RunsAlone (config : Config) (day : Instant) (job : Job) : Option Count → Prop
  | some count => (Session.alone config (.day job (.ofInstant day))).result = .ok (.count count)
  | none =>
      ∃ refusal, (Session.alone config (.day job (.ofInstant day))).result = .error (.cron refusal)

def JobRow.IsAlone (config : Config) (range : DateRange) (job : Job) (row : JobRow) : Prop :=
  let answer :=
    (Session.alone config (.total job (.ofInstant range.start) (.ofInstant range.stop))).result
  row.id = job.id ∧
    (answer = .ok (.count row.total) ∧ row.refusal = none ∨
      ∃ refusal, answer = .error (.cron refusal) ∧ row.total = .whole 0 ∧
        row.refusal = some refusal)

namespace Uncached

variable {config : Config} {job : Job}

theorem countFrom_whole {reference : Value} (h : ∀ x, reference ≠ .real x) {period start stop : Int}
    {count : Count} (hc : Recurrence.countFrom period reference start stop = .ok count) :
    ∃ n, count = .whole n := by
  unfold Recurrence.countFrom at hc
  split at hc
  · exact ⟨_, (Except.ok.inj hc).symm⟩
  · exact ⟨_, (Except.ok.inj hc).symm⟩
  · rename_i x
    exact absurd rfl (h x)
  · split at hc
    · exact ⟨_, (Except.ok.inj hc).symm⟩
    · simp at hc

theorem anchor_not_real (h : job.CountsWhole) {date : Date} {reference : Value}
    (ha : Estimator.anchor config job date = .ok reference) : ∀ x, reference ≠ .real x := by
  unfold Estimator.anchor at ha
  split at ha
  · split at ha
    · simp at ha
    · rw [← Except.ok.inj ha]
      simp
  · rw [← Except.ok.inj ha]
    exact h

theorem onDate_whole (h : job.CountsWhole) {date : Date} {count : Count}
    (hc : onDate config job date = .ok count) : ∃ n, count = .whole n := by
  unfold onDate at hc
  split at hc
  · split at hc
    · exact ⟨_, (Except.ok.inj hc).symm⟩
    · obtain ⟨reference, ha, hr⟩ := bind_eq_ok_iff.1 hc
      exact countFrom_whole (anchor_not_real h ha) hr
  · exact ⟨_, (Except.ok.inj hc).symm⟩
  · rcases bind_eq_ok_iff.1 hc with ⟨expression, -, hr⟩
    exact ⟨_, (Except.ok.inj hr).symm⟩
  · simp at hc

theorem onDay_whole (h : job.CountsWhole) {point : TimePoint} {count : Count}
    (hc : onDay config job point = .ok count) : ∃ n, count = .whole n := by
  unfold onDay at hc
  split at hc
  · rcases bind_eq_ok_iff.1 hc with ⟨date, -, hd⟩
    exact onDate_whole h hd
  · exact ⟨_, (Except.ok.inj hc).symm⟩

/-! ## One row -/

def runsOn (config : Config) (job : Job) (day : Instant) : Option Count :=
  match onDay config job (.ofInstant day) with
  | .ok count => some count
  | .error _ => none

theorem runsOn_eq_some_iff {day : Instant} {count : Count} :
    runsOn config job day = some count ↔ onDay config job (.ofInstant day) = .ok count := by
  unfold runsOn
  cases onDay config job (.ofInstant day) with
  | ok found => simp
  | error error => simp

theorem runsOn_whole (h : job.CountsWhole) {day : Instant} {count : Count}
    (hc : runsOn config job day = some count) : ∃ n, count = .whole n :=
  onDay_whole h (runsOn_eq_some_iff.1 hc)

theorem jobRow_cases {range : DateRange} {row : JobRow × List DayCount}
    (h : jobRow config range job = .ok row) :
    perDay config job (.ofInstant range.start) (.ofInstant range.stop) = .ok row.2 ∧
        row.1 = ⟨job.id, Estimator.totalOf row.2, none⟩ ∨
      ∃ refusal, perDay config job (.ofInstant range.start) (.ofInstant range.stop) =
        .error (.cron refusal) ∧ row = (⟨job.id, .whole 0, some refusal⟩, []) := by
  rcases bind_eq_ok_iff.1 h with ⟨counted, hc, hr⟩
  unfold caught at hc
  split at hc
  · rename_i counts hp
    rw [← Except.ok.inj hc] at hr
    exact .inl ⟨by rw [hp, ← Except.ok.inj hr], by rw [← Except.ok.inj hr]⟩
  · rename_i refusal hp
    rw [← Except.ok.inj hc] at hr
    exact .inr ⟨refusal, hp, (Except.ok.inj hr).symm⟩
  · simp at hc

theorem jobRow_isAlone {range : DateRange} {row : JobRow × List DayCount}
    (h : jobRow config range job = .ok row) : row.1.IsAlone config range job := by
  simp only [JobRow.IsAlone, Session.result_alone, respond, total]
  rcases jobRow_cases h with ⟨hp, hrow⟩ | ⟨refusal, hp, rfl⟩
  · rw [hrow, hp]
    exact ⟨rfl, .inl ⟨rfl, rfl⟩⟩
  · rw [hp]
    exact ⟨rfl, .inr ⟨refusal, rfl, rfl, rfl⟩⟩

section Days

variable {first last : Date}

theorem perDay_dates_cases (config : Config) (job : Job) (first last : Date) :
    perDay config job (.ofInstant first.start) (.ofInstant last.stop) =
        (first.startsThrough last).mapM (dayCount config job) ∨
      ∃ span, perDay config job (.ofInstant first.start) (.ofInstant last.stop) =
        .error (.rangeTooLarge span config.rangeLimit) := by
  rw [perDay_eq rfl rfl (Instant.date_start first) (Instant.date_stop last)]
  split
  · exact .inr ⟨_, rfl⟩
  · exact .inl rfl

theorem runsAlone_of_onDay {day : Instant} {count : Count}
    (h : onDay config job (.ofInstant day) = .ok count) :
    job.RunsAlone config day (runsOn config job day) := by
  rw [runsOn_eq_some_iff.2 h]
  show (Session.alone config _).result = _
  rw [Session.result_alone, respond, h]
  rfl

theorem runsAlone_of_refused {day : Instant} {refusal : ParseError}
    (h : onDay config job (.ofInstant day) = .error (.cron refusal)) :
    job.RunsAlone config day (runsOn config job day) ∧ runsOn config job day = none := by
  have hn : runsOn config job day = none := by simp [runsOn, h]
  refine ⟨?_, hn⟩
  rw [hn]
  exact ⟨refusal, by rw [Session.result_alone, respond, h]; rfl⟩

theorem counts_of_mapM {days : List Instant} {counts : List DayCount}
    (hc : days.mapM (dayCount config job) = .ok counts) :
    (∀ day ∈ days, job.RunsAlone config day (runsOn config job day)) ∧
      counts = days.filterMap fun day => (runsOn config job day).map (⟨day, ·⟩) := by
  have hall := mapM_eq_ok_iff.1 hc
  clear hc
  induction hall with
  | nil => simp
  | cons hd _ ih =>
      rcases ih with ⟨hi, rfl⟩
      rcases bind_eq_ok_iff.1 hd with ⟨count, ho, hp⟩
      refine ⟨List.forall_mem_cons.2 ⟨runsAlone_of_onDay ho, hi⟩, ?_⟩
      rw [List.filterMap_cons, runsOn_eq_some_iff.2 ho, ← Except.ok.inj hp]
      rfl

theorem refused_on_days {refusal : ParseError}
    (h : (first.startsThrough last).mapM (dayCount config job) = .error (.cron refusal)) :
    ∀ day ∈ first.startsThrough last,
      onDay config job (.ofInstant day) = .error (.cron refusal) := by
  intro day hday
  rcases Date.exists_of_mem_startsThrough hday with ⟨date, rfl, -⟩
  exact (onDay_eq_error_iff date).2 (mapM_dayCount_eq_error_iff.1 h).2

/-- A row has a count for each day of the page, or none at all because the cron text is refused on
each of them. -/
theorem jobRow_days {row : JobRow × List DayCount}
    (hr : jobRow config ⟨first.start, last.stop⟩ job = .ok row) :
    (∀ day ∈ first.startsThrough last, job.RunsAlone config day (runsOn config job day)) ∧
      row.1.total = Estimator.totalOf row.2 ∧
      row.2 = (first.startsThrough last).filterMap fun day =>
        (runsOn config job day).map (⟨day, ·⟩) := by
  have hdays := perDay_dates_cases config job first last
  rcases jobRow_cases hr with ⟨hp, hrow⟩ | ⟨refusal, hp, rfl⟩
  · rcases hdays with hd | ⟨span, hd⟩
    · rcases counts_of_mapM (hd.symm.trans hp) with ⟨hruns, hcounts⟩
      exact ⟨hruns, by rw [hrow], hcounts⟩
    · exact absurd (hd.symm.trans hp) (by simp)
  · rcases hdays with hd | ⟨span, hd⟩
    · have hrefused := refused_on_days (hd.symm.trans hp)
      refine ⟨fun day hday => (runsAlone_of_refused (hrefused day hday)).1, rfl, ?_⟩
      apply Eq.symm
      apply List.filterMap_eq_nil_iff.2
      intro day hday
      rw [(runsAlone_of_refused (hrefused day hday)).2]
      rfl
    · exact absurd (hd.symm.trans hp) (by simp)

end Days

end Uncached

end Almanac

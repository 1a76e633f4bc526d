import Almanac.Proofs.Estimate.Failures
import Almanac.Proofs.Page.Refusals

/-!
# How pages fail

Of the failures of its jobs, a page takes up the first that is not the refusal of a cron text.
Nothing else fails once the view and the anchor are accepted.
-/

namespace Almanac

open Almanac.Cron

/-- The estimate of the job over the range fails, and not because its cron text is refused. -/
def Job.BreaksPage (config : Config) (range : DateRange) (job : Job) (error : Error) : Prop :=
  (Estimator.perDay config job (.ofInstant range.start) (.ofInstant range.stop)
    (Session.fresh config)).result =
      .error error ∧
    ∀ refusal, error ≠ .cron refusal

namespace Job

variable {config : Config} {job : Job} {range : DateRange}

theorem not_breaksPage_of_refusal {refusal : ParseError}
    (h : (Estimator.perDay config job (.ofInstant range.start) (.ofInstant range.stop)
      (Session.fresh config)).result = .error (.cron refusal)) (error : Error) :
    ¬ job.BreaksPage config range error := by
  intro hbreaks
  exact hbreaks.2 refusal (Except.error.inj (hbreaks.1.symm.trans h))

theorem not_breaksPage_of_counts {counts : List DayCount}
    (h : (Estimator.perDay config job (.ofInstant range.start) (.ofInstant range.stop)
      (Session.fresh config)).result = .ok counts) (error : Error) :
    ¬ job.BreaksPage config range error := by
  intro hbreaks
  rw [Job.BreaksPage, h] at hbreaks
  exact absurd hbreaks.1 (by simp)

end Job

namespace Uncached

variable {config : Config} {job : Job} {error : Error}

theorem jobRow_eq_error_iff {range : DateRange} :
    jobRow config range job = .error error ↔ job.BreaksPage config range error := by
  have hestimate := (yields_perDay config job (.ofInstant range.start) (.ofInstant range.stop) _
    (Session.isCoherent_fresh config)).1
  rw [Job.BreaksPage, hestimate, ← Cached.caught_eq_error_iff, jobRow, bind_eq_error_iff]
  constructor
  · intro h
    rcases h with hcaught | ⟨counted, -, hrow⟩
    · exact hcaught
    · cases counted <;> simp [pure, Except.pure] at hrow
  · exact .inl

theorem exists_jobRow_iff {range : DateRange} :
    (∃ row, jobRow config range job = .ok row) ↔ ∀ error, ¬ job.BreaksPage config range error := by
  rw [exists_eq_ok_iff]
  exact forall_congr' fun error => not_congr jobRow_eq_error_iff

variable {jobs : List Job} {anchor : TimePoint} {given : Value} {view : View} {range : DateRange}

/-- A page fails as the rows of its jobs do: its days are there, and have their rows, whatever was
counted. -/
theorem page_eq_error_iff (hv : View.ofValue given = .ok view)
    (hp : DateRange.page view anchor = .ok range) :
    page config jobs anchor given = .error error ↔
      jobs.mapM (jobRow config range) = .error error := by
  rw [page, hv]
  show (DateRange.page view anchor >>= _) = _ ↔ _
  rw [hp]
  show (jobs.mapM (jobRow config range) >>= _) = _ ↔ _
  rw [bind_eq_error_iff]
  constructor
  · intro h
    rcases h with hrows | ⟨rows, -, hrest⟩
    · exact hrows
    · -- the page runs from one date through another, so that its days and their rows cannot fail
      rcases DateRange.exists_dates_of_page hp with ⟨first, last, rfl, -⟩
      obtain ⟨dayRows, hdays⟩ := exists_dayRows (.ofCounts (rows.flatMap (·.2))) first last
      rw [listDays_of_dates (Instant.date_start first) (Instant.date_stop last)] at hrest
      rcases bind_eq_error_iff.1 hrest with hlisted | ⟨days, hlisted, hrest⟩
      · contradiction
      · rw [← Except.ok.inj hlisted, hdays] at hrest
        contradiction
  · exact .inl

end Uncached

namespace Page

variable (config : Config) (past : List (Except Error Request))

/-- How estimates and pages fail. An estimate has too many days, or lacks a reference, or has a
refused text, in this order, or else there is a count for each of its days. A page fails as the
first of its jobs that breaks it, and it is there if none does. -/
theorem errors_of_estimates_and_pages :
    (∀ (job : Job) (start stop : TimePoint) (a b : Instant), start.instant = .ok a →
      stop.instant = .ok b → a.IsDated → b.IsDated → ∃ days, listDays start stop = .ok days ∧
        Estimator.EndsExactly config job days.length
          (Estimator.perDay config job start stop
            (Session.after config (Session.fresh config) past)).result) ∧
      ∀ (jobs : List Job) (anchor : TimePoint) (given : Value) (view : View) (range : DateRange),
        View.ofValue given = .ok view → DateRange.page view anchor = .ok range →
        let result :=
          (build config jobs anchor given (Session.after config (Session.fresh config) past)).result
        ((∃ page, result = .ok page) ↔ ∀ job ∈ jobs, ∀ error, ¬ job.BreaksPage config range error) ∧
          ∀ error, result = .error error ↔ ∃ before job after, jobs = before ++ job :: after ∧
            (∀ other ∈ before, ∀ error, ¬ other.BreaksPage config range error) ∧
            job.BreaksPage config range error := by
  have hcache := Session.isCoherent_after_fresh config past
  constructor
  · intro job start stop a b ha hb hda hdb
    rcases Instant.exists_date hda with ⟨first, hf⟩
    rcases Instant.exists_date hdb with ⟨last, hl⟩
    have hlisted :=
      listDays_of_points (TimePoint.date_of_instant ha hf) (TimePoint.date_of_instant hb hl)
    rw [(Uncached.yields_perDay config job start stop _ hcache).1]
    exact ⟨_, hlisted, Uncached.perDay_endsExactly ha hb hf hl⟩
  · intro jobs anchor given view range hv hp
    dsimp only
    rw [(Uncached.yields_page config jobs anchor given _ hcache).1]
    have hfails := fun error =>
      @Uncached.page_eq_error_iff config error jobs anchor given view range hv hp
    constructor
    · rw [exists_eq_ok_iff]
      have hrows : (∀ error, Uncached.page config jobs anchor given ≠ .error error) ↔
          ∃ rows, jobs.mapM (Uncached.jobRow config range) = .ok rows := by
        rw [exists_eq_ok_iff]
        exact forall_congr' fun error => not_congr (hfails error)
      rw [hrows, exists_mapM_eq_ok_iff]
      exact forall₂_congr fun job _ => Uncached.exists_jobRow_iff
    · intro error
      rw [hfails, mapM_eq_error_iff]
      simp only [Uncached.exists_jobRow_iff, Uncached.jobRow_eq_error_iff]

/-- A range of three days is too large whatever the job is. A refused text leaves the page, a
missing reference after it does not. -/
theorem errors_of_estimates_and_pages_strict :
    let config : Config := ⟨.int 0, .bool true, .int 2, by decide, by decide⟩
    let refused : Job := ⟨.text "a", .bool true, .cron (.text "60 * * * *"), .null⟩
    let unanchored : Job := ⟨.text "b", .bool true, .every 60000, .null⟩
    let anchored : Job := ⟨.text "c", .bool true, .every 60000, .int 0⟩
    let estimate := fun (job : Job) (stop : Instant) =>
      (Estimator.perDay config job (.ofInstant 0) (.ofInstant stop) (Session.fresh config)).result
    let page := fun jobs =>
      (build config jobs (.ofInstant 0) (.text "day") (Session.fresh config)).result
    estimate refused 172800000 = .error (.rangeTooLarge 3 (.int 2)) ∧
      estimate unanchored 86399999 = .error (.missingReference (.text "b")) ∧
      (∃ refusal, estimate refused 86399999 = .error (.cron refusal)) ∧
      (∃ counts, estimate anchored 86399999 = .ok counts ∧ counts.length = 1) ∧
      (∃ built, page [refused, anchored] = .ok built) ∧
      page [refused, unanchored, anchored] = .error (.missingReference (.text "b")) := by
  intro config refused unanchored anchored estimate page
  have hread : Expression.ofText "60 * * * *" =
      .error (.cron ⟨"60 * * * *", .outOfRange .minute 60⟩) := by decide
  have hthree : listDays (.ofInstant 0) (.ofInstant 172800000) = .ok [0, 86400000, 172800000] := by
    decide +kernel
  have hone : listDays (.ofInstant 0) (.ofInstant 86399999) = .ok [0] := by decide +kernel
  have hpage : DateRange.page .day (.ofInstant 0) = .ok ⟨0, 86399999⟩ := by decide +kernel
  rcases errors_of_estimates_and_pages config [] with ⟨hestimates, hpages⟩
  have hends : ∀ (job : Job) (stop : Instant) (days : List Instant), stop.IsDated →
      listDays (.ofInstant 0) (.ofInstant stop) = .ok days →
      Estimator.EndsExactly config job days.length (estimate job stop) := by
    intro job stop days hs hlisted
    rcases hestimates job (.ofInstant 0) (.ofInstant stop) 0 stop rfl rfl (by decide) hs
      with ⟨found, hfound, hends⟩
    rw [Except.ok.inj (hlisted.symm.trans hfound)]
    exact hends
  have hlarge := ((hends refused 172800000 _ (by decide) hthree).too_large 3 (.int 2)).2 (by decide)
  have hmissing :=
    ((hends unanchored 86399999 _ (by decide) hone).unanchored (by decide) (.text "b")).2
      ⟨by decide, rfl, ⟨⟨60000, rfl, by decide⟩, rfl⟩, rfl, rfl⟩
  have hrefused :=
    ((hends refused 86399999 _ (by decide) hone).refused (by decide) _).2
      ⟨by decide, rfl, _, rfl, hread⟩
  have hcounted :=
    (hends anchored 86399999 _ (by decide) hone).counted_of_integer (by decide) rfl rfl
  rcases hcounted with ⟨counts, hcounts, hlength⟩
  have hskipped := @Job.not_breaksPage_of_refusal config refused ⟨0, 86399999⟩ _ hrefused
  have hkept := @Job.not_breaksPage_of_counts config anchored ⟨0, 86399999⟩ _ hcounts
  have hday := fun jobs => hpages jobs (.ofInstant 0) (.text "day") .day ⟨0, 86399999⟩ rfl hpage
  refine ⟨hlarge, hmissing, ⟨_, hrefused⟩, ⟨counts, hcounts, hlength⟩, (hday _).1.2 ?_,
    ((hday _).2 _).2 ?_⟩
  · simp only [List.forall_mem_cons]
    exact ⟨hskipped, hkept, by simp⟩
  · exact ⟨[refused], unanchored, [anchored], rfl, List.forall_mem_singleton.2 hskipped,
      hmissing, by simp⟩

end Page

end Almanac

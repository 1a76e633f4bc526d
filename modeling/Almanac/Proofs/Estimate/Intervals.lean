import Almanac.Proofs.Cache.Effects
import Almanac.Proofs.Estimate.Firings
import Almanac.Proofs.Recurrence.Phase

/-!
# Runs of interval jobs

The runs of an interval job on a day are the instants of its recurrence within the day, whatever was
asked before: no cron text is read for them. A job without a reference has a recurrence of its own
on each day, which starts with the day.
-/

namespace Almanac.Estimator

open Cached

variable {config : Config} {job : Job} {period : Int}

/-! ## One day -/

/-- Once it is known from where intervals are counted, nothing can fail. -/
theorem onDate_of_anchor (hk : job.schedule = .every period) {date : Date} {value : Value}
    {reference : Int} (ha : anchor config job date = .ok value)
    (hc : Recurrence.countFrom period value date.start date.stop =
      .ok (.whole (Recurrence.count period reference date.start date.stop))) :
    onDate config job date =
      ofResult (.ok (.whole (Recurrence.count period reference date.start date.stop))) := by
  rw [onDate, hk]
  dsimp only
  by_cases hp : period ≤ 0
  · rw [if_pos hp, Recurrence.count_eq_zero (.inl hp)]
    rfl
  · rw [if_neg hp, ha]
    simp only [bind_eq, andThen_ofResult_ok, hc]

theorem onDate_of_integerReference (hk : job.schedule = .every period) {reference : Int}
    (hr : job.integerReference? = some reference) (date : Date) :
    onDate config job date =
      ofResult (.ok (.whole (Recurrence.count period reference date.start date.stop))) :=
  onDate_of_anchor hk (Uncached.anchor_of_integerReference hr date)
    (Uncached.countFrom_of_integerReference hr period date.start date.stop)

theorem onDate_of_no_reference (hk : job.schedule = .every period)
    (hr : job.reference.isNull = true) (hn : config.needsReference = false) (date : Date) :
    onDate config job date =
      ofResult (.ok (.whole (Recurrence.count period date.start date.start date.stop))) := by
  have ha : anchor config job date = .ok (.int date.start) := by simp [anchor, hr, hn]
  exact onDate_of_anchor hk ha (Recurrence.countFrom_int period date.start date.start date.stop)

theorem onDay_of_onDate (he : job.isEnabled = true) {point : TimePoint} {date : Date}
    (hd : point.date = .ok date) {n : Nat}
    (h : onDate config job date = ofResult (.ok (.whole n))) :
    onDay config job point = ofResult (.ok (.whole n)) := by
  rw [onDay, if_pos he, hd]
  simp only [bind_eq, andThen_ofResult_ok, h]

/-! ## A range -/

theorem countDay_of_onDate (he : job.isEnabled = true) {date : Date} {n : Nat}
    (h : onDate config job date = ofResult (.ok (.whole n))) :
    countDay config job date.start = ofResult (.ok ⟨date.start, .whole n⟩) := by
  have hd : (TimePoint.ofInstant date.start).date = .ok date := Instant.date_start date
  rw [countDay, onDay_of_onDate he hd h]
  rfl

theorem total_of_onDate (he : job.isEnabled = true) (runs : Instant → Nat)
    (h : ∀ date : Date, onDate config job date = ofResult (.ok (.whole (runs date.start))))
    {start stop : TimePoint} {a b : Instant} {first last : Date} (ha : start.instant = .ok a)
    (hb : stop.instant = .ok b) (hf : Instant.date a = .ok first) (hl : Instant.date b = .ok last)
    (hn : (first.startsThrough last).length ≤ config.dayLimit) (cache : Cron.Cache) :
    (total config job start stop cache).result =
      .ok (.whole ((first.startsThrough last).map runs).sum) := by
  have hdays : ∀ day ∈ first.startsThrough last,
      countDay config job day = ofResult (.ok ⟨day, .whole (runs day)⟩) := by
    intro day hday
    obtain ⟨date, rfl, -⟩ := Date.exists_of_mem_startsThrough hday
    exact countDay_of_onDate he (h date)
  have hperDay : perDay config job start stop =
      ofResult (.ok ((first.startsThrough last).map fun day => ⟨day, .whole (runs day)⟩)) := by
    rw [perDay_eq_forEach config job ha hb hf hl, if_neg (Int.not_lt.2 hn), forEach_of_ok hdays]
  have hsum : totalOf ((first.startsThrough last).map fun day => ⟨day, .whole (runs day)⟩) =
      .whole ((first.startsThrough last).map runs).sum := by
    rw [totalOf, List.map_map, ← Count.sum_whole, List.map_map]
    rfl
  rw [total, hperDay, ← hsum]
  rfl

end Almanac.Estimator

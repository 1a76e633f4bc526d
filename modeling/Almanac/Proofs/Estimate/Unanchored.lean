import Almanac.Proofs.Estimate.Intervals
import Almanac.Session

/-!
# Interval jobs without a reference

Where no reference is required, an interval job that has none is counted from the start of each day.
It then runs on every day as often as its period allows on any. A reference costs at most one of
these runs a day, and none if the period divides the day, so that a total without a reference is
never too small and at most one run a day too large.
-/

namespace Almanac

namespace Recurrence

variable {period : Int}

theorem count_of_day_start (h : 0 < period) (date : Date) :
    count period date.start date.start date.stop = ⌈(dayMillis : ℚ) / period⌉₊ := by
  rw [count_start_eq_ceil h date.start_le_stop, date.stop_sub_start]

/-- In one day, a recurrence misses at most one of the instants that it has when it starts with the
day. -/
theorem count_of_day_cases (h : 0 < period) (reference : Int) (date : Date) :
    count period reference date.start date.stop = ⌈(dayMillis : ℚ) / period⌉₊ ∨
      count period reference date.start date.stop + 1 = ⌈(dayMillis : ℚ) / period⌉₊ := by
  have hle := count_le_count_start h date.start_le_stop reference
  have hge := count_start_le h date.start_le_stop reference
  rw [count_of_day_start h] at hle hge
  omega

theorem count_of_day_of_dvd (h : 0 < period) (hd : period ∣ dayMillis) (reference : Int)
    (date : Date) :
    count period reference date.start date.stop = ⌈(dayMillis : ℚ) / period⌉₊ := by
  have hwhole : period ∣ date.stop - date.start + 1 := by rwa [date.stop_sub_start]
  rw [count_eq_count_start h date.start_le_stop hwhole, count_of_day_start h]

end Recurrence

namespace Estimator

variable {config : Config} {job : Job} {period : Int}

theorem onDate_unanchored (hk : job.schedule = .every period) (hp : 0 < period)
    (hr : job.reference = .null) (hn : config.needsReference = false) (date : Date) :
    onDate config job date = Cached.ofResult (.ok (.whole ⌈(dayMillis : ℚ) / period⌉₊)) := by
  have hnull : job.reference.isNull = true := by
    rw [hr]
    rfl
  rw [onDate_of_no_reference hk hnull hn, Recurrence.count_of_day_start hp]

theorem sum_anchored_bounds (hp : 0 < period) (reference : Int) (first last : Date) :
    let anchored := ((first.startsThrough last).map fun day =>
      Recurrence.count period reference day (day + (dayMillis - 1))).sum
    let unanchored := ((first.startsThrough last).map fun _ => ⌈(dayMillis : ℚ) / period⌉₊).sum
    anchored ≤ unanchored ∧ unanchored ≤ anchored + (first.startsThrough last).length := by
  have hday : ∀ day ∈ first.startsThrough last,
      Recurrence.count period reference day (day + (dayMillis - 1)) ≤ ⌈(dayMillis : ℚ) / period⌉₊ ∧
        ⌈(dayMillis : ℚ) / period⌉₊ ≤ Recurrence.count period reference day
          (day + (dayMillis - 1)) + 1 := by
    intro day hd
    obtain ⟨date, rfl, -⟩ := Date.exists_of_mem_startsThrough hd
    have hcases := Recurrence.count_of_day_cases hp reference date
    rw [Date.stop_eq] at hcases
    omega
  exact ⟨List.sum_le_sum fun day hd => (hday day hd).1,
    sum_le_sum_add_length fun day hd => (hday day hd).2⟩

/-- Without a reference, an interval job has `⌈dayMillis / period⌉` runs on every day. Anchored on
whatever integer, it has as many or one less, and as many if the period divides the day. Over a
range that is not too large, the total without a reference is the greater one, by at most one run
for each day. -/
theorem unanchored_within_one_per_day (cache : Cron.Cache) (hn : config.needsReference = false)
    (he : job.isEnabled = true) (hk : job.schedule = .every period) (hp : 0 < period)
    (hr : job.reference = .null) :
    (∀ (point : TimePoint) (t : Instant), point.instant = .ok t → t.IsDated →
      (onDay config job point cache).result = .ok (.whole ⌈(dayMillis : ℚ) / period⌉₊)) ∧
    ∀ reference : Int,
      let anchored : Job := { job with reference := .int reference }
      (∀ (point : TimePoint) (t : Instant), point.instant = .ok t → t.IsDated →
        ∃ n, (onDay config anchored point cache).result = .ok (.whole n) ∧
          (n = ⌈(dayMillis : ℚ) / period⌉₊ ∨ n + 1 = ⌈(dayMillis : ℚ) / period⌉₊) ∧
          (period ∣ dayMillis → n = ⌈(dayMillis : ℚ) / period⌉₊)) ∧
      ∀ (start stop : TimePoint) (a b : Instant), start.instant = .ok a → stop.instant = .ok b →
        a.IsDated → b.IsDated →
        ∃ days, listDays start stop = .ok days ∧ (days.length ≤ config.dayLimit →
          ∃ most n, (total config job start stop cache).result = .ok (.whole most) ∧
            (total config anchored start stop cache).result = .ok (.whole n) ∧ n ≤ most ∧
            most ≤ n + days.length) := by
  have hunanchored := fun date => onDate_unanchored hk hp hr hn date
  constructor
  · intro point t ht hs
    have ⟨date, hd⟩ := Instant.exists_date hs
    rw [onDay_of_onDate he (TimePoint.date_of_instant ht hd) (hunanchored date)]
    rfl
  intro reference anchored
  have hka : anchored.schedule = .every period := hk
  have hea : anchored.isEnabled = true := he
  have hanchored := fun date =>
    @onDate_of_integerReference config anchored period hka reference rfl date
  constructor
  · intro point t ht hs
    have ⟨date, hd⟩ := Instant.exists_date hs
    rw [onDay_of_onDate hea (TimePoint.date_of_instant ht hd) (hanchored date)]
    exact ⟨_, rfl, Recurrence.count_of_day_cases hp reference date,
      fun hdvd => Recurrence.count_of_day_of_dvd hp hdvd reference date⟩
  · intro start stop a b ha hb hda hdb
    have ⟨first, hf⟩ := Instant.exists_date hda
    have ⟨last, hl⟩ := Instant.exists_date hdb
    have hlisted :=
      listDays_of_points (TimePoint.date_of_instant ha hf) (TimePoint.date_of_instant hb hl)
    refine ⟨_, hlisted, fun hlimit => ?_⟩
    have hmost :=
      total_of_onDate he (fun _ => ⌈(dayMillis : ℚ) / period⌉₊) hunanchored ha hb hf hl hlimit cache
    have htotal :=
      total_of_onDate hea (fun day => Recurrence.count period reference day (day + (dayMillis - 1)))
        (fun date => by rw [hanchored date, Date.stop_eq]) ha hb hf hl hlimit cache
    exact ⟨_, _, hmost, htotal, sum_anchored_bounds hp reference first last⟩

/-- Every seven hours there are four runs a day at most, and three on the second day from the epoch
if the epoch is one. -/
theorem unanchored_within_one_per_day_seven_hours :
    let job : Job := ⟨.text "a", .bool true, .every 25200000, .null⟩
    let anchored : Job := ⟨.text "a", .bool true, .every 25200000, .int 0⟩
    let cache := Session.fresh .standard
    (onDay .standard job (.ofInstant 86400000) cache).result = .ok (.whole 4) ∧
      (onDay .standard anchored (.ofInstant 86400000) cache).result = .ok (.whole 3) ∧
      ∃ most n, (total .standard job (.ofInstant 0) (.ofInstant 86400000) cache).result =
        .ok (.whole most) ∧
        (total .standard anchored (.ofInstant 0) (.ofInstant 86400000) cache).result =
          .ok (.whole n) ∧
        n ≤ most ∧ most ≤ n + 2 := by
  intro job anchored cache
  have hmost : ⌈(dayMillis : ℚ) / (25200000 : Int)⌉₊ = 4 := by
    rw [Nat.ceil_eq_iff (by decide)]
    norm_num [dayMillis]
  have hbounds :=
    @unanchored_within_one_per_day .standard job 25200000 cache rfl rfl rfl (by decide) rfl
  have hday := hbounds.1 (.ofInstant 86400000) 86400000 rfl (by decide)
  rw [hmost] at hday
  have hrange := (hbounds.2 0).2
  obtain ⟨days, hdays, htotals⟩ :=
    hrange (.ofInstant 0) (.ofInstant 86400000) 0 86400000 rfl rfl (by decide) (by decide)
  have htwo : listDays (.ofInstant 0) (.ofInstant 86400000) = .ok [0, 86400000] := by decide +kernel
  rw [← Except.ok.inj (htwo.symm.trans hdays)] at htotals
  exact ⟨hday, by decide +kernel, htotals (by decide)⟩

end Estimator

end Almanac

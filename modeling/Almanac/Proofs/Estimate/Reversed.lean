import Almanac.Proofs.Cache.Effects
import Almanac.Proofs.Estimate.Range
import Almanac.Session

/-!
# Ranges that end before they start

A range whose end is on an earlier day than its start has no days: nothing is counted, and the total
is none. If both are on one day, in whatever order, the range has that day, and an estimate of it is
the estimate of the day.
-/

namespace Almanac

open Almanac.Cron

namespace Estimator

open Cached

variable {config : Config} {job : Job} {start stop : TimePoint} {a b : Instant} {first last : Date}

theorem perDay_of_reversed (config : Config) (job : Job) (ha : start.instant = .ok a)
    (hb : stop.instant = .ok b)
    (hf : Instant.date a = .ok first) (hl : Instant.date b = .ok last) (hlt : b < a) :
    perDay config job start stop = forEach (countDay config job) (first.startsThrough last) := by
  have hone := config.one_le_dayLimit
  have hordered := Instant.dayNumber_le_of_le hl hf (Int.le_of_lt hlt)
  have hfew : ¬ config.dayLimit < (first.startsThrough last).length := by
    rw [Date.length_startsThrough]
    omega
  rw [perDay_eq_forEach config job ha hb hf hl, if_neg hfew]

theorem onDay_of_date (config : Config) (job : Job) {point : TimePoint} {date : Date}
    (h : point.date = .ok date) :
    onDay config job point = onDay config job (.ofInstant date.start) := by
  rw [onDay, onDay, h, TimePoint.date_ofInstant, Instant.date_start]

/-- A range that ends on an earlier day than it starts is empty, for every job. One that ends before
it starts, but on the same day, has that day and the runs on it. -/
theorem reversed_range_empty_or_day (ha : start.instant = .ok a) (hb : stop.instant = .ok b)
    (hda : a.IsDated) (hdb : b.IsDated) (hlt : b < a) :
    ∃ lo hi, Instant.startOfDay a = .ok lo ∧ Instant.startOfDay b = .ok hi ∧
      (hi ≠ lo → listDays start stop = .ok [] ∧ ∀ (config : Config) (job : Job) (cache : Cache),
        (perDay config job start stop cache).result = .ok [] ∧
          (total config job start stop cache).result = .ok (.whole 0)) ∧
      (hi = lo → listDays start stop = .ok [lo] ∧ ∀ (config : Config) (job : Job) (cache : Cache),
        (perDay config job start stop cache).result =
          (onDay config job start cache).result.map fun count => [⟨lo, count⟩]) := by
  rcases Instant.exists_date hda with ⟨first, hf⟩
  rcases Instant.exists_date hdb with ⟨last, hl⟩
  have hstart := TimePoint.date_of_instant ha hf
  have hlisted := listDays_of_points hstart (TimePoint.date_of_instant hb hl)
  -- instants in strict order may have one date, which is where the two cases come from
  have hordered := Instant.dayNumber_le_of_le hl hf (Int.le_of_lt hlt)
  have hperDay := fun (config : Config) (job : Job) => perDay_of_reversed config job ha hb hf hl hlt
  refine ⟨first.start, last.start, Instant.startOfDay_of_date hf,
    Instant.startOfDay_of_date hl, ?_, ?_⟩
  · intro hne
    have hdays : last.dayNumber ≠ first.dayNumber := fun he =>
      hne (by rw [Date.start_eq, Date.start_eq, he])
    have hearlier : last.dayNumber < first.dayNumber := by omega
    rw [Date.startsThrough_of_lt hearlier] at hlisted
    refine ⟨hlisted, fun config job cache => ?_⟩
    have hempty : perDay config job start stop = ofResult (.ok []) := by
      rw [hperDay, Date.startsThrough_of_lt hearlier]
      rfl
    rw [total, hempty]
    exact ⟨rfl, rfl⟩
  · intro hsame
    have hdate : last = first := by
      have hday := Instant.date_start last
      rw [hsame, Instant.date_start] at hday
      exact (Except.ok.inj hday).symm
    rw [hdate, Date.startsThrough_self] at hlisted
    refine ⟨hlisted, fun config job cache => ?_⟩
    rw [hperDay, hdate, Date.startsThrough_self, forEach_singleton, result_map, countDay,
      result_map, ← onDay_of_date config job hstart]
    cases (onDay config job start cache).result <;> rfl

/-- Midnight lies between an instant and the one before it, and then even a text that is refused is
not looked at. -/
theorem reversed_range_across_midnight :
    let job : Job := ⟨.text "a", .bool true, .cron (.text "60 * * * *"), .null⟩
    listDays (.ofInstant 0) (.ofInstant (-1)) = .ok [] ∧
      (perDay .standard job (.ofInstant 0) (.ofInstant (-1)) (Session.fresh .standard)).result =
        .ok [] ∧
      (total .standard job (.ofInstant 0) (.ofInstant (-1)) (Session.fresh .standard)).result =
        .ok (.whole 0) ∧
      listDays (.ofInstant 1) (.ofInstant 0) = .ok [0] := by
  intro job
  have hzero : Instant.startOfDay 0 = .ok 0 := by decide +kernel
  have hone : Instant.startOfDay 1 = .ok 0 := by decide +kernel
  have hbefore : Instant.startOfDay (-1) = .ok (-86400000) := by decide +kernel
  have hmidnight := @reversed_range_empty_or_day (.ofInstant 0) (.ofInstant (-1)) 0 (-1) rfl rfl
  have hwithin := @reversed_range_empty_or_day (.ofInstant 1) (.ofInstant 0) 1 0 rfl rfl
  rcases hmidnight (by decide) (by decide) (by decide) with ⟨lo, hi, hlo, hhi, hempty, -⟩
  rcases hwithin (by decide) (by decide) (by decide) with ⟨day, same, hday, hsame, -, hlisted⟩
  rw [← Except.ok.inj (hzero.symm.trans hlo), ← Except.ok.inj (hbefore.symm.trans hhi)] at hempty
  rw [← Except.ok.inj (hone.symm.trans hday), ← Except.ok.inj (hzero.symm.trans hsame)] at hlisted
  obtain ⟨hnone, hcounts⟩ := hempty (by decide)
  exact ⟨hnone, (hcounts .standard job _).1, (hcounts .standard job _).2, (hlisted rfl).1⟩

/-- The end is one millisecond before the start, and yet the range has a day and a run. -/
theorem reversed_within_day :
    listDays (.ofInstant 1) (.ofInstant 0) = .ok [0] ∧
      (total .standard ⟨.text "a", .bool true, .once 0, .null⟩ (.ofInstant 1) (.ofInstant 0)
        (Session.fresh .standard)).result = .ok (.whole 1) := by
  constructor
  · decide +kernel
  · decide +kernel

end Estimator

end Almanac

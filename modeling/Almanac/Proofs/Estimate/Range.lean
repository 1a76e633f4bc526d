import Almanac.Proofs.Calendar.Days
import Almanac.Proofs.Estimate.Uncached
import Almanac.Proofs.Result

/-!
# The days of an estimate

An estimate over a range goes through the days from the first date through the last, unless there
are more of them than the configuration allows. The check works on instants and the list on dates;
both count the same days.
-/

namespace Almanac.Estimator

section Span

variable {config : Config} {start stop : Instant} {first last : Date}

theorem daySpan_of_dates (hs : Instant.date start = .ok first) (hl : Instant.date stop = .ok last) :
    daySpan start stop = .ok (last.dayNumber - first.dayNumber + 1) := by
  rw [daySpan, Instant.startOfDay_of_date hs, Instant.startOfDay_of_date hl]
  exact congrArg (fun days => Except.ok (days + 1)) (Date.start_sub_start first last)

theorem listedDays_eq (hs : Instant.date start = .ok first) (hl : Instant.date stop = .ok last) :
    listedDays config start stop =
      if config.dayLimit < (first.startsThrough last).length then
        .error (.rangeTooLarge (first.startsThrough last).length config.rangeLimit)
      else .ok (first.startsThrough last) := by
  have hone := config.one_le_dayLimit
  rw [listedDays, Date.length_startsThrough]
  by_cases hle : start ≤ stop
  · have hordered := Instant.dayNumber_le_of_le hs hl hle
    have hspan : daySpan start stop = .ok ((last.dayNumber - first.dayNumber + 1).toNat : Int) := by
      rw [daySpan_of_dates hs hl, Int.toNat_of_nonneg (by omega)]
    rw [if_pos hle, hspan]
    simp only [bind, Except.bind]
    split
    · rfl
    · exact listDays_of_dates hs hl
  · -- a range that ends before it starts has one day at most, which is never too many
    have hordered := Instant.dayNumber_le_of_le hl hs (Int.le_of_lt (Int.not_le.1 hle))
    rw [if_neg hle, if_neg (by omega)]
    exact listDays_of_dates hs hl

end Span

section Days

open Cached

variable {start stop : TimePoint} {a b : Instant} {first last : Date}

def countDay (config : Config) (job : Job) (day : Instant) : Cached DayCount :=
  (fun count => ⟨day, count⟩) <$> onDay config job (.ofInstant day)

/-- An estimate counts day after day, unless it has more of them than are allowed. -/
theorem perDay_eq_forEach (config : Config) (job : Job) (ha : start.instant = .ok a)
    (hb : stop.instant = .ok b) (hf : Instant.date a = .ok first) (hl : Instant.date b = .ok last) :
    perDay config job start stop =
      if config.dayLimit < (first.startsThrough last).length then
        ofResult (.error (.rangeTooLarge (first.startsThrough last).length config.rangeLimit))
      else forEach (countDay config job) (first.startsThrough last) := by
  rw [perDay, ha, hb]
  simp only [bind_eq, andThen_ofResult_ok]
  rw [listedDays_eq hf hl]
  split
  · rfl
  · rfl

end Days

end Almanac.Estimator

namespace Almanac.Uncached

section Points

variable {config : Config} {job : Job} {start stop : TimePoint} {a b : Instant} {first last : Date}

theorem perDay_eq (ha : start.instant = .ok a) (hb : stop.instant = .ok b)
    (hf : Instant.date a = .ok first) (hl : Instant.date b = .ok last) :
    perDay config job start stop =
      if config.dayLimit < (first.startsThrough last).length then
        .error (.rangeTooLarge (first.startsThrough last).length config.rangeLimit)
      else (first.startsThrough last).mapM (dayCount config job) := by
  rw [perDay, ha, hb]
  show (Estimator.listedDays config a b >>= _) = _
  rw [Estimator.listedDays_eq hf hl]
  by_cases hn : config.dayLimit < (first.startsThrough last).length
  · rw [if_pos hn, if_pos hn]
    rfl
  · rw [if_neg hn, if_neg hn]
    rfl

theorem perDay_of_dates (ha : start.instant = .ok a) (hb : stop.instant = .ok b)
    (hf : Instant.date a = .ok first)
    (hl : Instant.date b = .ok last) (hn : last.dayNumber - first.dayNumber + 1 ≤ config.dayLimit) :
    perDay config job start stop = (first.startsThrough last).mapM (dayCount config job) := by
  have hone := config.one_le_dayLimit
  rw [perDay_eq ha hb hf hl, if_neg]
  rw [Date.length_startsThrough]
  omega

end Points

section Page

variable {config : Config} {job : Job} {first last : Date}

theorem perDay_of_page (hn : last.dayNumber - first.dayNumber + 1 ≤ config.dayLimit) :
    perDay config job (.ofInstant first.start) (.ofInstant last.stop) =
      (first.startsThrough last).mapM (dayCount config job) :=
  perDay_of_dates rfl rfl (Instant.date_start first) (Instant.date_stop last) hn

end Page

end Almanac.Uncached

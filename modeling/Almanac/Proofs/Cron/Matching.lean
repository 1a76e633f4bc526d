import Almanac.Cron.Expression
import Almanac.Proofs.Calendar.Days
import Mathlib

/-!
# Matching instants

An expression matches an instant that starts a minute if it allows the universal date and time
there. The firings that are listed for a day are exactly the instants of that day that match, in
ascending order (`mem_firingsOn_iff`), so that their number is the number of matching instants.
-/

namespace Almanac

namespace DateTime

theorem micros_of_ofMicros {n : Int} {dateTime : DateTime} (h : ofMicros n = .ok dateTime) :
    dateTime.micros = n := by
  unfold ofMicros at h
  split at h
  · rename_i date hd
    simp only [Except.ok.injEq] at h
    have hn := Date.ofDayNumber?_eq_some_iff.1 hd
    have hr : (n % TimeOfDay.microsPerDay).toNat < TimeOfDay.microsPerDay := by
      simp only [TimeOfDay.microsPerDay]
      omega
    rw [← h, micros, hn, TimeOfDay.micros_ofMicros hr]
    simp only [TimeOfDay.microsPerDay]
    omega
  · simp at h

theorem dateTime_minute (date : Date) {k : Nat} (hk : k < 1440) :
    Instant.dateTime (date.start + k * minuteMillis) =
      .ok ⟨date, TimeOfDay.ofMicros (k * 60000000)⟩ := by
  have hq : (date.start + k * minuteMillis) * 1000 / (TimeOfDay.microsPerDay : Int) =
      date.dayNumber := by
    rw [Date.start_eq]
    simp only [TimeOfDay.microsPerDay, dayMillis, minuteMillis, Instant]
    omega
  have hr : ((date.start + k * minuteMillis) * 1000 % (TimeOfDay.microsPerDay : Int)).toNat =
      k * 60000000 := by
    rw [Date.start_eq]
    simp only [TimeOfDay.microsPerDay, dayMillis, minuteMillis, Instant]
    omega
  rw [Instant.dateTime, ofMicros, hq, hr, Date.ofDayNumber?_dayNumber]

end DateTime

namespace Cron.Expression

variable (expression : Expression) {date : Date} {t : Instant}

/-- A whole minute at which some clock shows a moment that the expression allows. -/
def MatchesAt (t : Instant) : Prop :=
  minuteMillis ∣ t ∧ ∃ moment : Moment, moment.micros = t * 1000 ∧
    expression.allowsMoment moment = .ok true

theorem allowsMoment_eq {moment : Moment} (h : moment.micros = t * 1000) :
    expression.allowsMoment moment = (Instant.dateTime t).map expression.allowsDateTime := by
  rw [allowsMoment, Moment.universal, h, Instant.dateTime]

theorem matchesAt_iff : expression.MatchesAt t ↔
    minuteMillis ∣ t ∧ ∃ dateTime, Instant.dateTime t = .ok dateTime ∧
      expression.allowsDateTime dateTime = true := by
  apply and_congr_right
  intro _
  constructor
  · intro h
    rcases h with ⟨moment, hm, ha⟩
    rw [allowsMoment_eq expression hm] at ha
    cases hd : Instant.dateTime t with
    | error error => simp [hd, Except.map] at ha
    | ok dateTime => exact ⟨dateTime, rfl, by simpa [hd, Except.map] using ha⟩
  · intro h
    rcases h with ⟨dateTime, hd, ha⟩
    -- a clock without an offset shows the universal date and time
    let moment : Moment := ⟨dateTime, none, by simp⟩
    have hm : moment.micros = t * 1000 := by
      simp [moment, Moment.micros, DateTime.micros_of_ofMicros hd]
    refine ⟨moment, hm, ?_⟩
    rw [allowsMoment_eq expression hm, hd]
    simp [Except.map, ha]

theorem allowsDateTime_minute (date : Date) {k : Nat} (hk : k < 1440) :
    expression.allowsDateTime ⟨date, TimeOfDay.ofMicros (k * 60000000)⟩ =
      expression.allows (k % 60 : Nat) (k / 60 : Nat) date.day date.month date.weekday := by
  have hm : k * 60000000 / 60000000 % 60 = k % 60 := by omega
  have hh : k * 60000000 / 3600000000 % 24 = k / 60 := by omega
  simp only [allowsDateTime, TimeOfDay.ofMicros, hm, hh]

theorem mem_minutesOn_iff (date : Date) {k : Nat} : k ∈ expression.minutesOn date ↔
    k < 1440 ∧ expression.MatchesAt (date.start + k * minuteMillis) := by
  simp only [minutesOn, minutesPerDay, List.mem_filter, List.mem_range]
  apply and_congr_right
  intro hk
  have hd : minuteMillis ∣ date.start + k * minuteMillis := by
    rw [Date.start_eq]
    simp only [minuteMillis, dayMillis]
    omega
  rw [matchesAt_iff, DateTime.dateTime_minute date hk, ← allowsDateTime_minute expression date hk]
  constructor
  · intro ha
    exact ⟨hd, _, rfl, ha⟩
  · intro h
    rcases h with ⟨-, dateTime, he, ha⟩
    rw [Except.ok.inj he]
    exact ha

theorem mem_firingsOn_iff : t ∈ expression.firingsOn date ↔
    (date.start ≤ t ∧ t ≤ date.stop) ∧ expression.MatchesAt t := by
  simp only [firingsOn, List.mem_map, mem_minutesOn_iff]
  constructor
  · intro h
    rcases h with ⟨k, ⟨hk, hm⟩, rfl⟩
    refine ⟨?_, hm⟩
    rw [Date.stop_eq]
    simp only [minuteMillis, dayMillis, Instant]
    omega
  · intro h
    rcases h with ⟨⟨hs, he⟩, hm⟩
    have hd := hm.1
    rw [Date.stop_eq] at he
    rw [Date.start_eq] at hs he
    simp only [minuteMillis, dayMillis, Instant] at hs he hd
    have ht : date.start + ((t - date.start) / minuteMillis).toNat * minuteMillis = t := by
      rw [Date.start_eq]
      simp only [minuteMillis, dayMillis, Instant]
      omega
    refine ⟨((t - date.start) / minuteMillis).toNat, ⟨?_, by rwa [ht]⟩, ht⟩
    rw [Date.start_eq]
    simp only [minuteMillis, dayMillis, Instant]
    omega

theorem pairwise_firingsOn (date : Date) : (expression.firingsOn date).Pairwise (· < ·) := by
  have hm : (expression.minutesOn date).Pairwise (· < ·) := List.pairwise_lt_range.filter _
  apply List.pairwise_map.2
  apply hm.imp
  intro i j hij
  simp only [minuteMillis, Instant]
  omega

/-- As many firings are counted on a day as there are matching instants. -/
theorem ncard_matching_eq_countOn (date : Date) :
    ({t | expression.MatchesAt t} ∩ Set.Icc date.start date.stop).ncard =
      expression.countOn date := by
  have hs : {t | expression.MatchesAt t} ∩ Set.Icc date.start date.stop =
      ((expression.firingsOn date).toFinset : Set Int) := by
    ext t
    rw [List.coe_toFinset]
    simp only [Set.mem_inter_iff, Set.mem_ofPred_eq, Set.mem_Icc, mem_firingsOn_iff]
    exact and_comm
  have hn : (expression.firingsOn date).Nodup :=
    (pairwise_firingsOn expression date).imp fun h => Int.ne_of_lt h
  rw [hs, Set.ncard_coe_finset, List.toFinset_card_of_nodup hn, length_firingsOn]

end Cron.Expression

end Almanac

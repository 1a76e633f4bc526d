import Almanac.Proofs.Cron.Matching
import Almanac.Proofs.Result

/-!
# The firings of a day against the matcher

There are two ways to learn whether an expression fires. The matcher takes a moment to universal
time and reads the fields there. The list of a day drops what is below a millisecond, reads the date
once and then counts through the minutes. They agree: a day's list has the minutes that the matcher
allows, and the matcher allows a moment if and only if the list of its day has the start of its
minute, whatever the clock and however far into the minute.
-/

namespace Almanac

namespace TimeOfDay

variable (time : TimeOfDay)

def minuteOfDay : Nat := time.hour * 60 + time.minute

theorem minuteOfDay_lt : time.minuteOfDay < 1440 := by
  have := time.hour_lt
  have := time.minute_lt
  simp only [minuteOfDay]
  omega

theorem minuteOfDay_mod : time.minuteOfDay % 60 = time.minute := by
  have := time.minute_lt
  simp only [minuteOfDay]
  omega

theorem minuteOfDay_div : time.minuteOfDay / 60 = time.hour := by
  have := time.minute_lt
  simp only [minuteOfDay]
  omega

theorem micros_div_minute : time.micros / 60000000 = time.minuteOfDay := by
  have := time.second_lt
  have := time.microsecond_lt
  simp only [minuteOfDay, micros]
  omega

end TimeOfDay

def DateTime.moment (dateTime : DateTime) : Moment :=
  ⟨dateTime, some 0, by simp [TimeOfDay.microsPerDay]⟩

@[simp] theorem DateTime.micros_moment (dateTime : DateTime) :
    dateTime.moment.micros = dateTime.micros := by
  simp [moment, Moment.micros]

namespace Moment

variable {moment : Moment} {dateTime : DateTime}

def startOfMinute (moment : Moment) : Instant := moment.micros / 60000000 * minuteMillis

/-- Dropping a part of a millisecond does not leave the calendar. -/
theorem exists_universal (h : moment.instant.IsDated) :
    ∃ dateTime, moment.universal = .ok dateTime := by
  rcases Instant.exists_date h with ⟨date, hd⟩
  have hn := Instant.date_eq_ok_iff.1 hd
  have hq : moment.micros / (TimeOfDay.microsPerDay : Int) = date.dayNumber := by
    rw [hn, instant]
    simp only [TimeOfDay.microsPerDay, dayMillis]
    omega
  rw [universal, DateTime.ofMicros, hq, Date.ofDayNumber?_dayNumber]
  exact ⟨_, rfl⟩

section Universal

variable (h : moment.universal = .ok dateTime)

include h

theorem date_instant : Instant.date moment.instant = .ok dateTime.date := by
  have hm : dateTime.micros = moment.micros := DateTime.micros_of_ofMicros h
  have ht := dateTime.time.micros_lt
  rw [Instant.date_eq_ok_iff, instant, ← hm, DateTime.micros]
  simp only [TimeOfDay.microsPerDay] at ht ⊢
  simp only [dayMillis]
  omega

theorem startOfMinute_eq :
    moment.startOfMinute = dateTime.date.start + dateTime.time.minuteOfDay * minuteMillis := by
  have hm : dateTime.micros = moment.micros := DateTime.micros_of_ofMicros h
  have ht := dateTime.time.micros_div_minute
  rw [startOfMinute, ← hm, DateTime.micros, Date.start_eq]
  simp only [TimeOfDay.microsPerDay, dayMillis, minuteMillis, Instant]
  omega

end Universal

end Moment

namespace Cron.Expression

variable (expression : Expression)

/-- A list has exactly the minutes of a day that the matcher allows, in order. -/
structure Lists (date : Date) (minutes : List Instant) : Prop where
  ascending : minutes.Pairwise (· < ·)
  aligned : ∀ m ∈ minutes, minuteMillis ∣ m ∧ Instant.date m = .ok date
  matched : ∀ m, minuteMillis ∣ m → Instant.date m = .ok date →
    ∃ dateTime allowed, Instant.dateTime m = .ok dateTime ∧
      expression.allowsMoment dateTime.moment = .ok allowed ∧ (m ∈ minutes ↔ allowed = true)

theorem allowsMoment_of_universal {moment : Moment} {dateTime : DateTime}
    (h : moment.universal = .ok dateTime) :
    expression.allowsMoment moment = .ok (expression.allowsDateTime dateTime) := by
  rw [allowsMoment, h]
  rfl

theorem allowsMoment_moment {m : Instant} {dateTime : DateTime}
    (h : Instant.dateTime m = .ok dateTime) :
    expression.allowsMoment dateTime.moment = .ok (expression.allowsDateTime dateTime) := by
  have hm : dateTime.moment.micros = m * 1000 := by
    rw [DateTime.micros_moment, DateTime.micros_of_ofMicros h]
  rw [allowsMoment_eq expression hm, h]
  rfl

theorem lists_firingsOn (date : Date) : expression.Lists date (expression.firingsOn date) where
  ascending := pairwise_firingsOn expression date
  aligned m hm := by
    have hfiring := (mem_firingsOn_iff expression).1 hm
    exact ⟨hfiring.2.1, Instant.date_eq_ok_iff_mem.2 hfiring.1⟩
  matched m hminute hd := by
    rcases map_eq_ok_iff.1 hd with ⟨dateTime, ht, -⟩
    refine ⟨dateTime, _, ht, allowsMoment_moment expression ht, ?_⟩
    rw [mem_firingsOn_iff, matchesAt_iff, ht]
    constructor
    · intro h
      rcases h.2.2 with ⟨found, hf, ha⟩
      rwa [Except.ok.inj hf]
    · intro ha
      exact ⟨Instant.date_eq_ok_iff_mem.1 hd, hminute, dateTime, rfl, ha⟩

theorem firings_of_date {point : TimePoint} {t : Instant} {date : Date} (ht : point.instant = .ok t)
    (hd : Instant.date t = .ok date) :
    expression.firings point = .ok (expression.firingsOn date) := by
  rw [firings, TimePoint.date, ht]
  change (Instant.date t).map expression.firingsOn = _
  rw [hd]
  rfl

theorem minute_mem_firingsOn_iff (date : Date) {k : Nat} :
    date.start + k * minuteMillis ∈ expression.firingsOn date ↔ k ∈ expression.minutesOn date := by
  have hinj : Function.Injective fun (k : Nat) => (date.start + k * minuteMillis : Instant) := by
    intro i j hij
    simp only [minuteMillis, Instant] at hij
    omega
  exact List.mem_map_of_injective hinj

theorem allowsDateTime_iff_mem_firingsOn {moment : Moment} {dateTime : DateTime}
    (h : moment.universal = .ok dateTime) :
    expression.allowsDateTime dateTime = true ↔
      moment.startOfMinute ∈ expression.firingsOn dateTime.date := by
  have hk : dateTime.time.minuteOfDay < minutesPerDay := dateTime.time.minuteOfDay_lt
  rw [Moment.startOfMinute_eq h, minute_mem_firingsOn_iff, minutesOn, List.mem_filter,
    List.mem_range, TimeOfDay.minuteOfDay_mod, TimeOfDay.minuteOfDay_div, and_iff_right hk,
    allowsDateTime]

/-- Listing a day agrees with matching its instants, and matching a moment agrees with listing its
day. -/
theorem firings_agree_with_matcher :
    (∀ (point : TimePoint) (t : Instant), point.instant = .ok t → t.IsDated →
      ∃ date minutes, Instant.date t = .ok date ∧ expression.firings point = .ok minutes ∧
        expression.Lists date minutes) ∧
    ∀ moment : Moment, moment.instant.IsDated →
      ∃ minutes allowed, expression.firings (.moment moment) = .ok minutes ∧
        expression.allowsMoment moment = .ok allowed ∧
        (allowed = true ↔ moment.startOfMinute ∈ minutes) := by
  constructor
  · intro point t ht hdated
    obtain ⟨date, hd⟩ := Instant.exists_date hdated
    exact ⟨date, _, hd, firings_of_date expression ht hd, lists_firingsOn expression date⟩
  · intro moment hdated
    obtain ⟨dateTime, hu⟩ := Moment.exists_universal hdated
    exact ⟨_, _, firings_of_date expression rfl (Moment.date_instant hu),
      allowsMoment_of_universal expression hu, allowsDateTime_iff_mem_firingsOn expression hu⟩

/-- A clock that is ahead by five and a half hours and half a second shows 1970 when it still is
1969. -/
theorem firings_agree_with_matcher_before_epoch :
    let shown : DateTime := ⟨⟨1970, 1, 1, by decide, by decide, by decide⟩, .ofMicros 19530000000⟩
    let moment : Moment := ⟨shown, some 19800500000, by decide⟩
    ∃ expression, ofText "*/5 23 31 12 *" = .ok expression ∧
      (∃ date minutes, Instant.date (-1) = .ok date ∧
        expression.firings (.ofInstant (-1)) = .ok minutes ∧ expression.Lists date minutes) ∧
      ∃ minutes, expression.firings (.moment moment) = .ok minutes ∧
        expression.allowsMoment moment = .ok true ∧ -300000 ∈ minutes := by
  intro shown moment
  have hallowed : (ofText "*/5 23 31 12 *" >>= (·.allowsMoment moment)) = .ok true := by
    decide +kernel
  obtain ⟨expression, he, ha⟩ := bind_eq_ok_iff.1 hallowed
  have hagree := firings_agree_with_matcher expression
  obtain ⟨minutes, allowed, hf, hb, hiff⟩ := hagree.2 moment (by decide)
  have hm : moment.startOfMinute = -300000 := by decide
  have htrue := Except.ok.inj (hb.symm.trans ha)
  have hlists := hagree.1 (.ofInstant (-1)) (-1) rfl (by decide)
  exact ⟨expression, he, hlists, minutes, hf, ha, hm ▸ hiff.1 htrue⟩

end Cron.Expression

end Almanac

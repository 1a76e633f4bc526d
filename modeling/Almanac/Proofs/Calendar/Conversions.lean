import Almanac.Proofs.Calendar.DayArithmetic
import Almanac.Proofs.Calendar.FieldOrder
import Almanac.Proofs.Cron.Enumeration

/-!
# Instants and moments

An instant has a universal date and time if the calendar reaches it, and the clock of universal time
that shows them is back at the instant. A moment on any clock loses only what its universal time has
below a millisecond. So neither way changes which of two is the earlier one.
-/

namespace Almanac

/-! ## Whole milliseconds -/

namespace TimeOfDay

def wholeMillis (time : TimeOfDay) : TimeOfDay :=
  { time with
    microsecond := time.microsecond / 1000 * 1000
    microsecond_lt := Nat.lt_of_le_of_lt (Nat.div_mul_le_self _ _) time.microsecond_lt }

theorem micros_wholeMillis (time : TimeOfDay) :
    time.wholeMillis.micros = time.micros / 1000 * 1000 := by
  simp only [micros, wholeMillis]
  omega

end TimeOfDay

namespace DateTime

variable {dateTime : DateTime} {n : Int}

def wholeMillis (dateTime : DateTime) : DateTime :=
  { dateTime with time := dateTime.time.wholeMillis }

theorem micros_wholeMillis (dateTime : DateTime) :
    dateTime.wholeMillis.micros = dateTime.micros / 1000 * 1000 := by
  have htime := TimeOfDay.micros_wholeMillis dateTime.time
  simp only [micros, wholeMillis, TimeOfDay.microsPerDay, htime]
  omega

theorem ofMicros_micros (dateTime : DateTime) : ofMicros dateTime.micros = .ok dateTime := by
  have hlt := dateTime.time.micros_lt
  have hday : dateTime.micros / (TimeOfDay.microsPerDay : Int) = dateTime.date.dayNumber := by
    simp only [micros, TimeOfDay.microsPerDay] at hlt ⊢
    omega
  have htime : (dateTime.micros % (TimeOfDay.microsPerDay : Int)).toNat = dateTime.time.micros := by
    simp only [micros, TimeOfDay.microsPerDay] at hlt ⊢
    omega
  rw [ofMicros, hday, htime, Date.ofDayNumber?_dayNumber, TimeOfDay.ofMicros_micros]

theorem ofMicros_eq_ok_iff : ofMicros n = .ok dateTime ↔ dateTime.micros = n := by
  constructor
  · exact micros_of_ofMicros
  · intro h
    rw [← h, ofMicros_micros]

end DateTime

/-! ## Conversions -/

variable {t : Instant} {moment : Moment} {dateTime : DateTime}

namespace Instant

theorem dateTime_eq_ok_iff : Instant.dateTime t = .ok dateTime ↔ dateTime.micros = t * 1000 :=
  DateTime.ofMicros_eq_ok_iff

theorem exists_dateTime (h : t.IsDated) : ∃ dateTime, Instant.dateTime t = .ok dateTime := by
  rcases exists_date h with ⟨found, hd⟩
  rcases map_eq_ok_iff.1 hd with ⟨dateTime, hdateTime, -⟩
  exact ⟨dateTime, hdateTime⟩

/-- An instant has no date and time exactly if the calendar does not reach it. -/
theorem dateTime_eq_error_iff {error : Error} :
    Instant.dateTime t = .error error ↔ error = .outsideCalendar ∧ ¬ t.IsDated := by
  have hdate : date t = (Instant.dateTime t).map (·.date) := rfl
  by_cases h : t.IsDated
  · rcases exists_dateTime h with ⟨dateTime, hd⟩
    simp [hd, h]
  · rw [date_of_not_isDated h] at hdate
    cases hd : Instant.dateTime t with
    | ok found => simp [hd, Except.map] at hdate
    | error other =>
        rw [hd] at hdate
        obtain rfl := Except.error.inj hdate
        simp [h, eq_comm]

theorem dateTime_lt_iff {a b : Instant} {first last : DateTime}
    (ha : Instant.dateTime a = .ok first)
    (hb : Instant.dateTime b = .ok last) : first.fields < last.fields ↔ a < b := by
  rw [DateTime.fields_lt_iff, dateTime_eq_ok_iff.1 ha, dateTime_eq_ok_iff.1 hb]
  simp only [Instant]
  omega

theorem instant_of_dateTime (h : Instant.dateTime t = .ok dateTime) :
    dateTime.moment.instant = t := by
  rw [Moment.instant, DateTime.micros_moment, dateTime_eq_ok_iff.1 h]
  exact Int.mul_ediv_cancel t (by decide)

end Instant

namespace Moment

theorem universal_eq_ok_iff : moment.universal = .ok dateTime ↔ dateTime.micros = moment.micros :=
  DateTime.ofMicros_eq_ok_iff

/-- Back from its instant, a moment has lost what its universal time has below a millisecond. -/
theorem dateTime_instant (h : moment.universal = .ok dateTime) :
    Instant.dateTime moment.instant = .ok dateTime.wholeMillis := by
  rw [Instant.dateTime_eq_ok_iff, DateTime.micros_wholeMillis, universal_eq_ok_iff.1 h, instant]

theorem instant_le_of_fields {other : Moment} {first last : DateTime}
    (h : moment.universal = .ok first)
    (ho : other.universal = .ok last) (hle : first.fields ≤ last.fields) :
    moment.instant ≤ other.instant := by
  have hmicros : ¬ other.micros < moment.micros := by
    rw [← universal_eq_ok_iff.1 h, ← universal_eq_ok_iff.1 ho, ← DateTime.fields_lt_iff]
    exact not_lt_of_ge hle
  simp only [instant, Instant]
  omega

end Moment

/-- An instant of the calendar is that of the clock that shows it. A moment with its universal time
in the calendar has an instant, and the date and time of that are the universal ones without parts
of a millisecond. Both conversions keep the order in time, and instants outside the calendar, and no
others, have no date and time. -/
theorem conversions_keep_time :
    (∀ t : Instant, t.IsDated → ∃ dateTime, Instant.dateTime t = .ok dateTime ∧
      (TimePoint.moment dateTime.moment).instant = .ok t) ∧
    (∀ moment : Moment, moment.instant.IsDated → ∃ dateTime, moment.universal = .ok dateTime ∧
      dateTime.micros = moment.shown.micros - moment.ahead.getD 0 ∧
        (TimePoint.moment moment).instant = .ok moment.instant ∧
          Instant.dateTime moment.instant = .ok dateTime.wholeMillis) ∧
    (∀ (a b : Instant) (first last : DateTime), Instant.dateTime a = .ok first →
      Instant.dateTime b = .ok last → (first.fields < last.fields ↔ a < b)) ∧
    (∀ (moment other : Moment) (first last : DateTime), moment.universal = .ok first →
      other.universal = .ok last → first.fields ≤ last.fields → moment.instant ≤ other.instant) ∧
    ∀ (t : Instant) (error : Error),
      Instant.dateTime t = .error error ↔ error = .outsideCalendar ∧ ¬ t.IsDated := by
  refine ⟨?_, ?_, ?_, ?_, fun t error => Instant.dateTime_eq_error_iff⟩
  · intro t h
    rcases Instant.exists_dateTime h with ⟨dateTime, hd⟩
    exact ⟨dateTime, hd, congrArg Except.ok (Instant.instant_of_dateTime hd)⟩
  · intro moment h
    rcases Moment.exists_universal h with ⟨dateTime, hu⟩
    exact ⟨dateTime, hu, Moment.universal_eq_ok_iff.1 hu, rfl, Moment.dateTime_instant hu⟩
  · intro a b first last ha hb
    exact Instant.dateTime_lt_iff ha hb
  · intro moment other first last h ho hle
    exact Moment.instant_le_of_fields h ho hle

/-- A clock that is ahead by five and a half hours shows 1970 when it still is the last microsecond
of 1969. -/
theorem conversions_keep_time_before_epoch :
    let shown : DateTime := ⟨⟨1970, 1, 1, by decide, by decide, by decide⟩, .ofMicros 19799999999⟩
    let moment : Moment := ⟨shown, some 19800000000, by decide⟩
    moment.instant = -1 ∧ ∃ last epoch universal, Instant.dateTime (-1) = .ok last ∧
      Instant.dateTime 0 = .ok epoch ∧
      moment.universal = .ok universal ∧ last = universal.wholeMillis ∧ last.fields < epoch.fields ∧
        (TimePoint.moment last.moment).instant = .ok (-1) ∧
          Instant.dateTime (Instant.last + 1) = .error .outsideCalendar := by
  intro shown moment
  have hinstant : moment.instant = -1 := by decide
  rcases conversions_keep_time with ⟨hback, hmoment, horder, -, herror⟩
  rcases hback (-1) (by decide) with ⟨last, hlast, hsame⟩
  rcases hback 0 (by decide) with ⟨epoch, hepoch, -⟩
  rcases hmoment moment (by decide) with ⟨universal, hu, -, -, hwhole⟩
  rw [hinstant, hlast] at hwhole
  have hless := (horder (-1) 0 last epoch hlast hepoch).2 (by decide)
  have hafter := (herror (Instant.last + 1) .outsideCalendar).2 ⟨rfl, by decide⟩
  exact ⟨hinstant, last, epoch, universal, hlast, hepoch, hu, Except.ok.inj hwhole, hless,
    hsame, hafter⟩

end Almanac

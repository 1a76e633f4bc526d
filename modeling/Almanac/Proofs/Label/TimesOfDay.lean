import Almanac.Proofs.Label.Readings

/-!
# Labels of times of day

A label that gives a time of day gives it on a clock of twelve hours. The expression behind it fires
at that time and no other: once a day, or once on the named weekday and on no other day, or at the
same minute of all twenty-four hours.
-/

namespace Almanac

open Almanac.Cron Almanac.Text

/-! ## Twelve-hour clocks -/

/-- What a clock of twelve hours shows, and in which half of the day. -/
structure ClockTime where
  hour : Nat
  minute : Nat
  isAfternoon : Bool
  hour_bounds : 1 ≤ hour ∧ hour ≤ 12
  minute_lt : minute < 60

namespace ClockTime

def text (time : ClockTime) : String :=
  let minuteText := String.ofList (fixed 2 time.minute)
  let half := if time.isAfternoon then "PM" else "AM"
  s!"{time.hour}:{minuteText} {half}"

/-- The minutes since midnight. Twelve stands for the first hour of either half of the day. -/
def minuteOfDay (time : ClockTime) : Nat :=
  (time.hour % 12 + if time.isAfternoon then 12 else 0) * 60 + time.minute

def onDate (time : ClockTime) (date : Date) : Instant :=
  date.start + time.minuteOfDay * minuteMillis

def ofTime (hour minute : Nat) (hm : minute < 60) : ClockTime where
  hour := if hour % 12 = 0 then 12 else hour % 12
  minute := minute
  isAfternoon := 12 ≤ hour
  hour_bounds := by split <;> omega
  minute_lt := hm

theorem minuteOfDay_ofTime {hour minute : Nat} (hh : hour < 24) (hm : minute < 60) :
    (ofTime hour minute hm).minuteOfDay = hour * 60 + minute := by
  simp only [minuteOfDay, ofTime, decide_eq_true_eq]
  split <;> split <;> omega

theorem toList_text (time : ClockTime) :
    time.text.toList = Nat.toDigits 10 time.hour ++
      ':' :: (fixed 2 time.minute ++ ' ' :: (if time.isAfternoon then "PM" else "AM").toList) := by
  simp [text, Label.toString_text]

theorem clock_eq_text {hour minute : Nat} (hm : minute < 60) :
    Label.clock hour minute = (ofTime hour minute hm).text := by
  have hhalf : (if hour < 12 then "AM" else "PM") = if 12 ≤ hour then "PM" else "AM" := by
    split <;> split <;> first | rfl | omega
  simp only [Label.clock, text, ofTime, decide_eq_true_eq,
    padded_two (Nat.lt_trans hm (by decide)), hhalf]

theorem text_injective {a b : ClockTime} (h : a.text = b.text) : a = b := by
  have hcolon : ∀ time : ClockTime, ':' ∉ Nat.toDigits 10 time.hour := by
    intro time hc
    simpa using isDigit_of_mem_toDigits hc
  have hcut := fun time : ClockTime =>
    (cut_eq_some_iff ':' time.text.toList _ _).2 ⟨toList_text time, hcolon time⟩
  have hparts := (hcut a).symm.trans (h ▸ hcut b)
  obtain ⟨hhour, hrest⟩ := Prod.mk.inj (Option.some.inj hparts)
  obtain ⟨hminute, hhalf⟩ := List.append_inj hrest (by rw [fixed_length, fixed_length])
  have hm : a.minute = b.minute :=
    fixed_inj (Nat.lt_trans a.minute_lt (by decide)) (Nat.lt_trans b.minute_lt (by decide)) hminute
  have hp : a.isAfternoon = b.isAfternoon := by
    revert hhalf
    cases a.isAfternoon <;> cases b.isAfternoon <;> decide
  cases a
  cases b
  simp only [mk.injEq]
  exact ⟨toDigits_inj hhour, hm, hp⟩

end ClockTime

/-! ## Weekdays by name -/

namespace Date

def dayNames : List String := ["Sun", "Mon", "Tue", "Wed", "Thu", "Fri", "Sat"]

def weekdayName (date : Date) : String := dayNames.getD date.weekday ""

/-- Labels name the weekday that a field means, where seven is Sunday as well. -/
theorem weekdayName_eq_iff {d : Nat} {name : String} (h : Label.weekdayNames[d]? = some name)
    (date : Date) :
    date.weekdayName = name ↔ date.weekday = Pattern.weekday d := by
  have hd : d < 8 := Label.lt_of_weekdayNames h
  have hall : ∀ k < 7, ∀ d < 8, dayNames.getD k "" = Label.weekdayNames.getD d "" ↔
      k = Pattern.weekday d := by
    decide
  rw [weekdayName, ← hall date.weekday date.weekday_lt d hd, List.getD_eq_getElem?_getD,
    List.getD_eq_getElem?_getD, h]
  rfl

end Date

namespace Label

variable {given : String} {expression : Expression}

theorem length_of_mem_weekdayNames {d : Nat} {name : String} (h : weekdayNames[d]? = some name) :
    name.toList.length = 3 := by
  have hall : ∀ name ∈ weekdayNames, name.toList.length = 3 := by decide
  exact hall name (List.mem_of_getElem? h)

/-! ## Firings -/

/-- An expression with the time of a clock fires when the clock shows it, on its weekdays. -/
theorem firingsOn_of_clock (h : Expression.ofText given = .ok expression)
    {minute hour dayOfWeek : List Char} {m o : Nat}
    (hw : words given.toList = [minute, hour, ['*'], ['*'], dayOfWeek]) (hm : Writes minute m)
    (ho : Writes hour o)
    (hlt : o < 24) {time : ClockTime} (ht : time.text = clock o m) (date : Date) :
    expression.firingsOn date =
      if date.weekday ∈ expression.dayOfWeek.values then [time.onDate date] else [] := by
  have hlow : m < 60 :=
    Nat.lt_succ_of_le (Expression.mem_values_of_writes (Expression.fields_of_words h hw).1 hm).1
  have htime : time = .ofTime o m hlow :=
    ClockTime.text_injective (ht.trans (ClockTime.clock_eq_text hlow))
  rw [Expression.firingsOn_of_time h hw hm ho, htime, ClockTime.onDate,
    ClockTime.minuteOfDay_ofTime hlt hlow]

theorem firingsOn_of_daily (h : Expression.ofText given = .ok expression) {time : ClockTime}
    (hl : cronText given = .ok s!"Daily {time.text}") (date : Date) :
    expression.firingsOn date = [time.onDate date] := by
  obtain ⟨minute, hour, m, o, hw, hm, ho, hlt, htext⟩ :=
    hasShape_daily (hasShape_of_ofText h hl (isCaption_daily _))
  obtain ⟨-, -, -, -, hweekday⟩ := Expression.fields_of_words h hw
  rw [firingsOn_of_clock h hw hm ho hlt htext,
    if_pos (Expression.weekday_mem_of_asterisk hweekday date)]

theorem firingsOn_of_weekly (h : Expression.ofText given = .ok expression) {name : String}
    {time : ClockTime} (hn : name.length = 3)
    (hl : cronText given = .ok s!"Weekly on {name} {time.text}") (date : Date) :
    expression.firingsOn date = if date.weekdayName = name then [time.onDate date] else [] := by
  obtain ⟨minute, hour, dayOfWeek, m, o, d, found, hw, hm, ho, hlt, hd, hname, htext⟩ :=
    hasShape_weekly (hasShape_of_ofText h hl (isCaption_weekly _ _))
  have hlength : name.toList.length = found.toList.length := by
    rw [length_of_mem_weekdayNames hname, String.length_toList, hn]
  obtain ⟨hsame, hclock⟩ := List.append_inj htext hlength
  have hsame : name = found := String.toList_injective hsame
  have hclock : time.text = clock o m := String.toList_injective (List.cons.inj hclock).2
  obtain ⟨-, -, -, -, hweekday⟩ := Expression.fields_of_words h hw
  have hmem : date.weekday ∈ expression.dayOfWeek.values ↔ date.weekdayName = name := by
    rw [(Expression.mem_values_of_writes hweekday hd).2, if_pos rfl, hsame,
      Date.weekdayName_eq_iff hname]
  rw [firingsOn_of_clock h hw hm ho hlt hclock]
  simp only [hmem]

theorem firingsOn_of_hourly (h : Expression.ofText given = .ok expression) {minute : Nat}
    (hlt : minute < 60)
    (hl : cronText given = .ok ("Hourly at :" ++ String.ofList (fixed 2 minute))) (date : Date) :
    expression.firingsOn date =
      (List.range 24).map fun hour : Nat =>
        date.start + (hour * 60 + minute : Nat) * minuteMillis := by
  obtain ⟨word, m, hw, hm, htext⟩ := hasShape_hourly (hasShape_of_ofText h hl (isCaption_hourly _))
  obtain ⟨hminute, -⟩ := Expression.fields_of_words h hw
  obtain ⟨hlow, hvalues⟩ := Expression.mem_values_of_writes hminute hm
  simp only [FieldKind.high, reduceCtorEq, if_false] at hlow hvalues
  have hdigits := String.ofList_injective htext
  rw [padded_two (by omega)] at hdigits
  have hsame : minute = m := fixed_inj (by omega) (by omega) hdigits
  have hascending :
      ((List.range 24).map fun hour : Nat => hour * 60 + minute).Pairwise (· < ·) := by
    rw [List.pairwise_map]
    exact List.pairwise_lt_range.imp fun hab => by omega
  rw [Expression.firingsOn_eq_map hascending, List.map_map]
  · rfl
  · intro k
    rw [Expression.mem_minutesOn_of_open h hw, hvalues, Expression.minutesPerDay, List.mem_map]
    constructor
    · intro hk
      exact ⟨k / 60, List.mem_range.2 (by omega), by omega⟩
    · intro hk
      obtain ⟨hour, hhour, rfl⟩ := hk
      rw [List.mem_range] at hhour
      omega

/-- The label of an accepted text that gives a time of day tells when it fires on any day of the
calendar: once at the time that the clock shows, or so on the named weekday and not at all on
others, or at that minute of every hour. -/
theorem timed_labels_tell_runs (h : Expression.ofText given = .ok expression) {point : TimePoint}
    {t : Instant} (ht : point.instant = .ok t) (hd : t.IsDated) :
    ∃ date, Instant.date t = .ok date ∧
      (∀ time : ClockTime, cronText given = .ok s!"Daily {time.text}" →
        expression.firings point = .ok [time.onDate date]) ∧
      (∀ (name : String) (time : ClockTime), name.length = 3 →
        cronText given = .ok s!"Weekly on {name} {time.text}" →
        expression.firings point =
          .ok (if date.weekdayName = name then [time.onDate date] else [])) ∧
      ∀ minute < 60, cronText given = .ok ("Hourly at :" ++ String.ofList (fixed 2 minute)) →
        expression.firings point =
          .ok ((List.range 24).map fun hour : Nat =>
            date.start + (hour * 60 + minute : Nat) * minuteMillis) := by
  obtain ⟨date, hdate⟩ := Instant.exists_date hd
  have hfirings := Expression.firings_of_date expression ht hdate
  refine ⟨date, hdate, fun time hl => ?_, fun name time hn hl => ?_, fun minute hlt hl => ?_⟩
  · rw [hfirings, firingsOn_of_daily h hl]
  · rw [hfirings, firingsOn_of_weekly h hn hl]
  · rw [hfirings, firingsOn_of_hourly h hlt hl]

/-- An evening with leading zeros and the second number of Sunday: one run on a Sunday before the
epoch, and none on a Wednesday. -/
theorem timed_labels_tell_runs_sunday :
    ∃ expression, Expression.ofText "05 020 * * 7" = .ok expression ∧
      cronText "05 020 * * 7" = .ok "Weekly on Sun 8:05 PM" ∧
      expression.firings (.ofInstant (-345600000)) = .ok [-273300000] ∧
      expression.firings (.ofInstant (-1)) = .ok [] := by
  obtain ⟨expression, h⟩ : ∃ expression, Expression.ofText "05 020 * * 7" = .ok expression :=
    ⟨_, rfl⟩
  have hlabel : cronText "05 020 * * 7" = .ok "Weekly on Sun 8:05 PM" := by decide +kernel
  have hsunday : (Instant.date (-345600000)).map (fun date => (date.weekdayName, date.start)) =
      .ok ("Sun", -345600000) := by decide +kernel
  have hwednesday : (Instant.date (-1)).map Date.weekdayName = .ok "Wed" := by decide +kernel
  let evening : ClockTime := .ofTime 20 5 (by decide)
  obtain ⟨sunday, hdate, -, hruns, -⟩ :=
    @timed_labels_tell_runs _ _ h (.ofInstant (-345600000)) _ rfl (by decide)
  obtain ⟨wednesday, hother, -, hnone, -⟩ :=
    @timed_labels_tell_runs _ _ h (.ofInstant (-1)) _ rfl (by decide)
  rw [hdate] at hsunday
  rw [hother] at hwednesday
  obtain ⟨hname, hstart⟩ := Prod.mk.inj (Except.ok.inj hsunday)
  have hwed : wednesday.weekdayName ≠ "Sun" := by
    rw [Except.ok.inj hwednesday]
    decide
  refine ⟨expression, h, hlabel, ?_, ?_⟩
  · rw [hruns "Sun" evening rfl (hlabel.trans (by decide +kernel)), if_pos hname,
      ClockTime.onDate, hstart]
    decide +kernel
  · rw [hnone "Sun" evening rfl (hlabel.trans (by decide +kernel)), if_neg hwed]

end Label

end Almanac

import Mathlib.Data.List.Range
import Almanac.Proofs.Calendar.Partition
import Almanac.Proofs.Estimate.Range

/-!
# Lists of days

The days of a range are listed from the day of its first instant through the day of its last. They
are one day apart, as many as the dates and the instants say, and each instant of the range lies in
exactly one of them. A range that is split between two days has its list split there.
-/

namespace Almanac

namespace Date

variable {first last : Date}

theorem startsThrough_eq_progression (h : first.dayNumber ≤ last.dayNumber) :
    ∃ n : Nat, last.start = first.start + n * dayMillis ∧
      first.startsThrough last = (List.range (n + 1)).map fun (k : Nat) =>
        first.start + k * dayMillis := by
  refine ⟨(last.dayNumber - first.dayNumber).toNat, ?_, ?_⟩
  · rw [start_eq, start_eq]
    simp only [dayMillis, Instant]
    omega
  · have hcount : (last.dayNumber - first.dayNumber + 1).toNat =
        (last.dayNumber - first.dayNumber).toNat + 1 := by
      omega
    rw [startsThrough, hcount]

theorem startsThrough_append {middle next : Date} (hf : first.dayNumber ≤ middle.dayNumber)
    (hn : next.dayNumber = middle.dayNumber + 1) (hl : next.dayNumber ≤ last.dayNumber) :
    first.startsThrough last = first.startsThrough middle ++ next.startsThrough last := by
  have hcount : (last.dayNumber - first.dayNumber + 1).toNat =
      (middle.dayNumber - first.dayNumber + 1).toNat +
        (last.dayNumber - next.dayNumber + 1).toNat := by omega
  rw [startsThrough, startsThrough, startsThrough, hcount, List.range_add, List.map_append,
    List.map_map, List.append_right_inj]
  apply List.map_congr_left
  intro k _
  simp only [Function.comp_apply, start_eq, dayMillis, Instant]
  omega

theorem existsUnique_mem_startsThrough {t : Instant} (hs : first.start ≤ t) (he : t ≤ last.stop) :
    ∃! day, day ∈ first.startsThrough last ∧ ∃ stop, Instant.endOfDay day = .ok stop ∧ day ≤ t ∧
      t ≤ stop := by
  rcases DateRange.between_iff_date.1 ⟨hs, he⟩ with ⟨date, hd, hbetween⟩
  have hin := Instant.date_eq_ok_iff_mem.1 hd
  have hlisted : date.start ∈ first.startsThrough last := by
    exact mem_startsThrough_iff.2 ⟨date, rfl, start_le_start_iff.2 hbetween.1,
      start_le_stop_iff.2 hbetween.2⟩
  refine ⟨date.start, ⟨hlisted, date.stop, Instant.endOfDay_of_date (Instant.date_start date), hin⟩,
    ?_⟩
  intro day hday
  rcases hday with ⟨hmem, stop, hstop, hholds⟩
  obtain ⟨other, rfl, -⟩ := exists_of_mem_startsThrough hmem
  rw [Instant.endOfDay_of_date (Instant.date_start other)] at hstop
  rw [← Except.ok.inj hstop] at hholds
  have hsame : other = date := Except.ok.inj ((Instant.date_eq_ok_iff_mem.2 hholds).symm.trans hd)
  rw [hsame]

end Date

/-- The listed days of a range are an arithmetic progression from the start of its first day to that
of its last, as many as its dates and as its instants say. Each instant of the range lies in exactly
one of them. Split after a day in between, the range has the lists of both parts, one after the
other. -/
theorem listDays_tile_range {start stop : TimePoint} {a b : Instant} (ha : start.instant = .ok a)
    (hb : stop.instant = .ok b) (hda : a.IsDated) (hdb : b.IsDated) (hle : a ≤ b) :
    ∃ days lo hi, listDays start stop = .ok days ∧ Instant.startOfDay a = .ok lo ∧
      Instant.startOfDay b = .ok hi ∧
      (∃ n : Nat, hi = lo + n * dayMillis ∧ days = (List.range (n + 1)).map fun (k : Nat) =>
        lo + k * dayMillis) ∧
      DateRange.days ⟨a, b⟩ = .ok days.length ∧ Estimator.daySpan a b = .ok days.length ∧
      (days.length : Int) = (hi - lo) / dayMillis + 1 ∧
      (∀ t, a ≤ t → t ≤ b →
        ∃! day, day ∈ days ∧ ∃ stop, Instant.endOfDay day = .ok stop ∧ day ≤ t ∧ t ≤ stop) ∧
      ∀ (middle : TimePoint) (m next : Instant), middle.instant = .ok m → a ≤ m → m ≤ b →
        Instant.addDays m 1 = .ok next → next ≤ hi →
          ∃ before after, listDays start middle = .ok before ∧
            listDays (.ofInstant next) stop = .ok after ∧ days = before ++ after := by
  rcases Instant.exists_date hda with ⟨first, hf⟩
  rcases Instant.exists_date hdb with ⟨last, hl⟩
  have hstart := TimePoint.date_of_instant ha hf
  have hstop := TimePoint.date_of_instant hb hl
  have hordered := Instant.dayNumber_le_of_le hf hl hle
  rcases Date.startsThrough_eq_progression hordered with ⟨n, hn, hdays⟩
  have hlength : ((first.startsThrough last).length : Int) =
      last.dayNumber - first.dayNumber + 1 := by
    rw [Date.length_startsThrough]
    omega
  refine ⟨_, _, _, listDays_of_points hstart hstop, Instant.startOfDay_of_date hf,
    Instant.startOfDay_of_date hl, ⟨n, hn, hdays⟩, ?_, ?_, by rw [hlength, Date.start_sub_start],
    ?_, ?_⟩
  · rw [hlength]
    exact DateRange.days_of_date hf hl
  · rw [hlength]
    exact Estimator.daySpan_of_dates hf hl
  · intro t hat htb
    have hs := (Instant.date_eq_ok_iff_mem.1 hf).1
    have he := (Instant.date_eq_ok_iff_mem.1 hl).2
    exact Date.existsUnique_mem_startsThrough (Int.le_trans hs hat) (Int.le_trans htb he)
  · intro middle m next hm ham hmb hadd hnext
    obtain ⟨day, hd⟩ := Instant.exists_date ⟨Int.le_trans hda.1 ham, Int.le_trans hmb hdb.2⟩
    rcases (Instant.addDays_eq_ok_iff hd).1 hadd with ⟨later, hlater, rfl⟩
    exact ⟨_, _, listDays_of_points hstart (TimePoint.date_of_instant hm hd),
      listDays_of_points (Instant.date_start later) hstop,
      Date.startsThrough_append (Instant.dayNumber_le_of_le hf hd ham) hlater
        (Date.start_le_start_iff.1 hnext)⟩

/-- From the last millisecond of 1969 through the first of the third day of 1970, split after the
first day. -/
theorem listDays_tile_range_across_epoch :
    ∃ days, listDays (.ofInstant (-1)) (.ofInstant 172800000) = .ok days ∧ days.length = 4 ∧
      DateRange.days ⟨-1, 172800000⟩ = .ok days.length ∧
      Estimator.daySpan (-1) 172800000 = .ok days.length ∧
      (∃! day, day ∈ days ∧ ∃ stop, Instant.endOfDay day = .ok stop ∧ day ≤ 86399999 ∧
        86399999 ≤ stop) ∧
      ∃ before after, listDays (.ofInstant (-1)) (.ofInstant 5) = .ok before ∧
        listDays (.ofInstant 86400000) (.ofInstant 172800000) = .ok after ∧
        days = before ++ after := by
  have htile := @listDays_tile_range (.ofInstant (-1)) (.ofInstant 172800000) (-1) 172800000 rfl rfl
  rcases htile (by decide) (by decide) (by decide) with
    ⟨days, lo, hi, hdays, -, hhi, -, hdates, hspan, -, hunique, hsplit⟩
  have hfour : DateRange.days ⟨-1, 172800000⟩ = .ok 4 := by decide +kernel
  have hstart : Instant.startOfDay 172800000 = .ok 172800000 := by decide +kernel
  have hnext : Instant.addDays 5 1 = .ok 86400000 := by decide +kernel
  have hlast : (86400000 : Instant) ≤ hi := by
    rw [← Except.ok.inj (hstart.symm.trans hhi)]
    decide
  have hlength : (4 : Int) = days.length := Except.ok.inj (hfour.symm.trans hdates)
  exact ⟨days, hdays, by omega, hdates, hspan, hunique 86399999 (by decide) (by decide),
    hsplit (.ofInstant 5) 5 86400000 rfl (by decide) (by decide) hnext hlast⟩

end Almanac

import Almanac.Proofs.Cache.Effects
import Almanac.Proofs.Calendar.Conversions
import Almanac.Proofs.Calendar.WrittenDates
import Almanac.Proofs.Page.Totals

/-!
# The texts of a page

The days of a page ascend, and so do the texts that are shown for them, each of which reads back as
its day. The texts of the range sort and read back in the same way, as do those of any two instants
of the calendar.
-/

namespace Almanac

theorem Text.ofList_lt_ofList_iff {s t : List Char} : String.ofList s < String.ofList t ↔
    s < t := by
  rw [String.lt_iff_toList_lt, String.toList_ofList, String.toList_ofList]

/-! ## Ranges -/

theorem DateRange.texts_of_dateTimes {range : DateRange} {first last : DateTime}
    (hs : Instant.dateTime range.start = .ok first) (hl : Instant.dateTime range.stop = .ok last) :
    range.texts = .ok (String.ofList first.text, String.ofList last.text) := by
  rw [texts, hs, hl]
  rfl

namespace Page

/-! ## Days -/

def Shows (row : DayRow) (date : Date) : Prop :=
  row.text = String.ofList date.text ∧ row.day = date.start

variable {row later : DayRow} {date other : Date} {tally : Tally}

theorem shows_of_dayRow (h : dayRow tally date.start = .ok row) : Shows row date := by
  rw [dayRow, Instant.date_start] at h
  rw [← Except.ok.inj h]
  exact ⟨rfl, rfl⟩

theorem text_lt_of_shows (hr : Shows row date) (hl : Shows later other) (h : row.day < later.day) :
    row.text < later.text := by
  rw [hr.2, hl.2, ← not_le, Date.start_le_start_iff] at h
  rw [hr.1, hl.1, Text.ofList_lt_ofList_iff, Date.text_lt_iff, Date.fields_lt_iff]
  exact Int.not_le.1 h

theorem exists_shows_of_dayRows {first last : Date} {rows : List DayRow}
    (h : dayRows tally (first.startsThrough last) = .ok rows) :
    ∀ row ∈ rows, ∃ date, Shows row date := by
  rw [dayRows_eq_mapM] at h
  intro row hrow
  rcases exists_of_mem_mapM h row hrow with ⟨day, hday, hact⟩
  rcases Date.exists_of_mem_startsThrough hday with ⟨date, rfl, -⟩
  exact ⟨date, shows_of_dayRow hact⟩

variable {config : Config} {jobs : List Job} {anchor : TimePoint} {view : Value}
  {cache : Cron.Cache} {page : Page}

theorem exists_dayRows_of_build (h : (build config jobs anchor view cache).result = .ok page) :
    ∃ (tally : Tally) (first last : Date),
      dayRows tally (first.startsThrough last) = .ok page.days := by
  rcases Cached.andThen_result_eq_ok_iff.1 h with ⟨found, -, hview⟩
  rcases Cached.andThen_result_eq_ok_iff.1 hview with ⟨range, hrange, hranged⟩
  rcases Cached.andThen_result_eq_ok_iff.1 hranged with ⟨rows, -, hcounted⟩
  rcases Cached.andThen_result_eq_ok_iff.1 hcounted with ⟨days, hdays, hlisted⟩
  rcases Cached.andThen_result_eq_ok_iff.1 hlisted with ⟨dayRows, hrows, hbuilt⟩
  rcases DateRange.exists_dates_of_page hrange with ⟨first, last, rfl, -⟩
  have hstarts := listDays_of_dates (Instant.date_start first) (Instant.date_stop last)
  obtain rfl := Except.ok.inj (hstarts.symm.trans hdays)
  rw [← Except.ok.inj hbuilt]
  exact ⟨_, first, last, hrows⟩

theorem shows_dates_of_build (h : (build config jobs anchor view cache).result = .ok page) :
    page.days.Pairwise (fun row later => row.day < later.day) ∧ ∀ row ∈ page.days, ∃ date,
      Shows row date := by
  rcases exists_dayRows_of_build h with ⟨tally, first, last, hrows⟩
  refine ⟨List.pairwise_map.1 ?_, exists_shows_of_dayRows hrows⟩
  rw [(dayRows_eq_ok hrows).1]
  exact Date.pairwise_startsThrough first last

end Page

/-- The texts of any two instants sort as the instants do and read back as them. The texts of the
days of a page ascend strictly, and each reads back as the date of its day. -/
theorem texts_identify_and_order :
    (∀ a b : Instant, a.IsDated → b.IsDated → ∃ first last,
      DateRange.texts ⟨a, b⟩ = .ok (first, last) ∧
      (first < last ↔ a < b) ∧ DateTime.ofText? first.toList = some (a * 1000) ∧
        DateTime.ofText? last.toList = some (b * 1000)) ∧
    ∀ (config : Config) (jobs : List Job) (anchor : TimePoint) (view : Value) (cache : Cron.Cache)
        (page : Page),
      (Page.build config jobs anchor view cache).result = .ok page →
        (page.days.map (·.text)).Pairwise (· < ·) ∧
          ∀ row ∈ page.days, ∃ date, Date.ofText? row.text.toList = some date ∧
            date.start = row.day := by
  constructor
  · intro a b ha hb
    rcases Instant.exists_dateTime ha with ⟨first, hfirst⟩
    rcases Instant.exists_dateTime hb with ⟨last, hlast⟩
    refine ⟨_, _, DateRange.texts_of_dateTimes hfirst hlast, ?_, ?_, ?_⟩
    · rw [Text.ofList_lt_ofList_iff, DateTime.text_lt_iff, Instant.dateTime_lt_iff hfirst hlast]
    · rw [String.toList_ofList, DateTime.ofText?_text, Instant.dateTime_eq_ok_iff.1 hfirst]
    · rw [String.toList_ofList, DateTime.ofText?_text, Instant.dateTime_eq_ok_iff.1 hlast]
  · intro config jobs anchor view cache page h
    rcases Page.shows_dates_of_build h with ⟨hascending, hshows⟩
    constructor
    · apply List.pairwise_map.2
      apply hascending.imp_of_mem
      intro row later hr hl hlt
      rcases hshows row hr with ⟨date, hdate⟩
      rcases hshows later hl with ⟨other, hother⟩
      exact Page.text_lt_of_shows hdate hother hlt
    · intro row hrow
      rcases hshows row hrow with ⟨date, htext, hday⟩
      exact ⟨date, by rw [htext, String.toList_ofList, Date.ofText?_text], hday.symm⟩

/-- A fraction makes the later text the longer one; the week around 1970 starts in 1969. -/
theorem texts_identify_and_order_at_epoch :
    let jobs : List Job := [⟨.text "a", .bool true, .cron (.text "0 9 8-1 * *"), .null⟩]
    DateRange.texts ⟨0, 1⟩ = .ok ("1970-01-01T00:00:00+00:00", "1970-01-01T00:00:00.001000+00:00") ∧
      "1970-01-01T00:00:00+00:00" < "1970-01-01T00:00:00.001000+00:00" ∧
        DateTime.ofText? "1970-01-01T00:00:00.001000+00:00".toList = some 1000 ∧
          ∃ page, (Page.build .standard jobs (.ofInstant 0) (.text "week") (.empty 0)).result =
            .ok page ∧ (page.days.map (·.text)).Pairwise (· < ·) ∧
              ∀ row ∈ page.days, ∃ date, Date.ofText? row.text.toList = some date ∧
                date.start = row.day := by
  intro jobs
  have htexts : DateRange.texts ⟨0, 1⟩ =
      .ok ("1970-01-01T00:00:00+00:00", "1970-01-01T00:00:00.001000+00:00") := by
    decide +kernel
  rcases texts_identify_and_order.1 0 1 (by decide) (by decide)
    with ⟨first, last, hfound, hlt, -, hlast⟩
  rw [htexts] at hfound
  obtain ⟨rfl, rfl⟩ := Prod.mk.inj (Except.ok.inj hfound)
  have hok : (Page.build .standard jobs (.ofInstant 0) (.text "week") (.empty 0)).result.isOk =
      true := by decide +kernel
  cases hbuilt : (Page.build .standard jobs (.ofInstant 0) (.text "week") (.empty 0)).result with
  | error error => simp [hbuilt, Except.isOk, Except.toBool] at hok
  | ok page =>
      have hdays := texts_identify_and_order.2 _ _ _ _ _ page hbuilt
      exact ⟨htexts, hlt.2 (by decide), hlast, page, rfl, hdays⟩

end Almanac

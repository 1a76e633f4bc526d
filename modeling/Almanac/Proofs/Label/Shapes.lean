import Almanac.Label
import Almanac.Proofs.Result
import Almanac.Proofs.Text.Figures

/-!
# Shapes of cron text with a label

A text of five words has a label of its own if the words have one of five shapes, and in place of
the numbers of a shape there may be figures of any script. Figures that write no number leave the
words without any label, not even the text itself. All other texts are their own labels. No label
has a shape: its first word is neither figures nor a field.
-/

namespace Almanac.Label
open Almanac.Text

def Writes (text : List Char) (n : Nat) : Prop := isFigures text = true ∧ natural? text = some n

def IsIllegible (text : List Char) : Prop := isFigures text = true ∧ natural? text = none

/-- The shapes of words that have a label of their own. -/
inductive HasShape : List (List Char) → String → Prop
  | stepped {last : List Char} {n : Nat} : Writes last n →
      HasShape ['*' :: '/' :: last, ['*'], ['*'], ['*'], ['*']] s!"Every {n} min"
  | listed {minute : List Char} {count : Nat} : ',' ∈ minute →
      (pieces (· == ',') minute).length = count →
      HasShape [minute, ['*'], ['*'], ['*'], ['*']] s!"{count}× per hour"
  | hourly {minute : List Char} {m : Nat} : Writes minute m →
      HasShape [minute, ['*'], ['*'], ['*'], ['*']] ("Hourly at :" ++ String.ofList (padded 2 m))
  | daily {minute hour : List Char} {m h : Nat} : Writes minute m → Writes hour h → h < 24 →
      HasShape [minute, hour, ['*'], ['*'], ['*']] s!"Daily {clock h m}"
  | weekly {minute hour dayOfWeek : List Char} {m h d : Nat} {name : String} : Writes minute m →
      Writes hour h → h < 24 → Writes dayOfWeek d → weekdayNames[d]? = some name →
      HasShape [minute, hour, ['*'], ['*'], dayOfWeek] s!"Weekly on {name} {clock h m}"

/-- Words with figures where a label needs a number that they do not write. -/
inductive IsUnread : List (List Char) → Prop
  | step {last : List Char} :
      IsIllegible last → IsUnread ['*' :: '/' :: last, ['*'], ['*'], ['*'], ['*']]
  | minute {minute : List Char} : IsIllegible minute → IsUnread [minute, ['*'], ['*'], ['*'], ['*']]
  | hour {minute hour dayOfMonth month dayOfWeek : List Char} : isFigures minute = true →
      IsIllegible hour → IsUnread [minute, hour, dayOfMonth, month, dayOfWeek]
  | minuteOfHour {minute hour dayOfMonth month dayOfWeek : List Char} {h : Nat} :
      IsIllegible minute → Writes hour h → h < 24 →
      IsUnread [minute, hour, dayOfMonth, month, dayOfWeek]
  | weekday {minute hour dayOfWeek : List Char} {m h : Nat} : Writes minute m →
      Writes hour h → h < 24 → IsIllegible dayOfWeek →
      IsUnread [minute, hour, ['*'], ['*'], dayOfWeek]

theorem lt_of_weekdayNames {d : Nat} {name : String} (h : weekdayNames[d]? = some name) : d < 8 :=
  (List.getElem?_eq_some_iff.1 h).1

/-! ## Minutes of every hour -/

variable {minute hour dayOfMonth month dayOfWeek last text : List Char} {label : String}

theorem figures_of_writes {n : Nat} (h : Writes text n) : figures text = .ok n := by
  rw [figures, h.2]

theorem figures_of_isIllegible (h : IsIllegible text) :
    figures text = .error .malformedInteger := by
  rw [figures, h.2]

theorem writes_or_isIllegible (h : isFigures text = true) :
    (∃ n, Writes text n) ∨ IsIllegible text := by
  cases hn : natural? text with
  | none => exact .inr ⟨h, hn⟩
  | some n => exact .inl ⟨n, h, hn⟩

theorem hourly_of_step (h : isFigures last = true) :
    hourly ('*' :: '/' :: last) = (figures last).map fun n => some s!"Every {n} min" := by
  rw [hourly, stepText, if_pos h]

theorem not_isFigures_stepText (h : ∀ last, text = '*' :: '/' :: last → isFigures last = false) :
    isFigures (stepText text) = false := by
  unfold stepText
  split
  · rename_i last
    exact h last rfl
  · rfl

theorem hourly_of_list {count : Nat} (h : ',' ∈ minute)
    (hc : (pieces (· == ',') minute).length = count) :
    hourly minute = .ok (some s!"{count}× per hour") := by
  have hstep : isFigures (stepText minute) = false := by
    apply not_isFigures_stepText
    intro last hm
    by_contra hf
    have hcomma : ',' ∉ last := not_mem_of_isFigures (by simpa using hf) (by decide)
    simp [hm, hcomma] at h
  rw [hourly, hstep, if_neg Bool.false_ne_true, if_pos (by simpa using h), hc]

theorem eq_of_isFigures_stepText (h : isFigures (stepText text) = true) :
    text = '*' :: '/' :: stepText text := by
  by_contra hne
  have hnot : isFigures (stepText text) = false := by
    apply not_isFigures_stepText
    rintro last rfl
    exact absurd rfl hne
  rw [hnot] at h
  contradiction

theorem hourly_of_figures (h : isFigures minute = true) :
    hourly minute = (figures minute).map fun n =>
      some ("Hourly at :" ++ String.ofList (padded 2 n)) := by
  have hstep : isFigures (stepText minute) = false := by
    apply not_isFigures_stepText
    intro last hm
    have hasterisk := not_mem_of_isFigures h (show isFigure '*' = false by decide)
    simp [hm] at hasterisk
  have hcomma : ',' ∉ minute := not_mem_of_isFigures h (by decide)
  rw [hourly, hstep, if_neg Bool.false_ne_true, if_neg (by simpa using hcomma), if_pos h]

theorem hourly_of_none (hs : isFigures (stepText minute) = false) (hl : ',' ∉ minute)
    (hf : isFigures minute = false) : hourly minute = .ok none := by
  rw [hourly, hs, if_neg Bool.false_ne_true, if_neg (by simpa using hl), hf,
    if_neg Bool.false_ne_true]

theorem timed_of_not_figures (h : ¬ (isFigures minute = true ∧ isFigures hour = true)) :
    timed minute hour dayOfMonth month dayOfWeek = .ok none := by
  rw [timed, if_neg (by simpa using h)]

/-- A minute that alone is restricted has its own labels; all others are those of a time. -/
theorem shaped_eq_ite : shaped minute hour dayOfMonth month dayOfWeek =
    if hour = ['*'] ∧ dayOfMonth = ['*'] ∧ month = ['*'] ∧ dayOfWeek = ['*'] then hourly minute
    else timed minute hour dayOfMonth month dayOfWeek := by
  by_cases hopen : hour = ['*'] ∧ dayOfMonth = ['*'] ∧ month = ['*'] ∧ dayOfWeek = ['*']
  · have htimed : timed minute hour dayOfMonth month dayOfWeek = .ok none := by
      apply timed_of_not_figures
      exact fun hf => ne_asterisk_of_isFigures hf.2 hopen.1
    rw [if_pos hopen, shaped, if_pos hopen]
    cases hourly minute with
    | error error => rfl
    | ok label =>
        cases label with
        | none => exact htimed
        | some label => rfl
  · rw [if_neg hopen, shaped, if_neg hopen]
    rfl

/-! ## Times of day -/

theorem shaped_eq_timed (h : isFigures hour = true) :
    shaped minute hour dayOfMonth month dayOfWeek =
      timed minute hour dayOfMonth month dayOfWeek := by
  rw [shaped_eq_ite, if_neg]
  exact fun hopen => ne_asterisk_of_isFigures h hopen.1

theorem timed_of_isIllegible_hour (hm : isFigures minute = true) (hh : IsIllegible hour) :
    timed minute hour dayOfMonth month dayOfWeek = .error .malformedInteger := by
  rw [timed, if_pos (by simp [hm, hh.1]), figures_of_isIllegible hh]
  rfl

theorem timed_of_late {h : Nat} (hm : isFigures minute = true) (hh : Writes hour h)
    (hlate : ¬ h < 24) :
    timed minute hour dayOfMonth month dayOfWeek = .ok none := by
  rw [timed, if_pos (by simp [hm, hh.1]), figures_of_writes hh]
  show (if h < 24 then _ else _) = _
  rw [if_neg hlate]
  rfl

theorem timed_of_isIllegible_minute {h : Nat} (hm : IsIllegible minute) (hh : Writes hour h)
    (hlt : h < 24) :
    timed minute hour dayOfMonth month dayOfWeek = .error .malformedInteger := by
  rw [timed, if_pos (by simp [hm.1, hh.1]), figures_of_writes hh]
  show (if h < 24 then _ else _) = _
  rw [if_pos hlt, figures_of_isIllegible hm]
  rfl

theorem timed_of_writes {m h : Nat} (hm : Writes minute m) (hh : Writes hour h) (hlt : h < 24) :
    timed minute hour dayOfMonth month dayOfWeek =
      if dayOfMonth = ['*'] ∧ month = ['*'] then
        if dayOfWeek = ['*'] then .ok (some s!"Daily {clock h m}")
        else if isFigures dayOfWeek = true then
          (figures dayOfWeek).map fun day => weekdayNames[day]?.map fun name =>
            s!"Weekly on {name} {clock h m}"
        else .ok none
      else .ok none := by
  rw [timed, if_pos (by simp [hm.1, hh.1]), figures_of_writes hh]
  show (if h < 24 then _ else _) = _
  rw [if_pos hlt, figures_of_writes hm]
  rfl

/-! ## Words -/

theorem shaped_of_hasShape (h : HasShape [minute, hour, dayOfMonth, month, dayOfWeek] label) :
    shaped minute hour dayOfMonth month dayOfWeek = .ok (some label) := by
  cases h with
  | stepped hn =>
      rw [shaped_eq_ite, if_pos ⟨rfl, rfl, rfl, rfl⟩, hourly_of_step hn.1, figures_of_writes hn]
      rfl
  | listed hl hc => rw [shaped_eq_ite, if_pos ⟨rfl, rfl, rfl, rfl⟩, hourly_of_list hl hc]
  | hourly hm =>
      rw [shaped_eq_ite, if_pos ⟨rfl, rfl, rfl, rfl⟩, hourly_of_figures hm.1, figures_of_writes hm]
      rfl
  | daily hm hh hlt =>
      rw [shaped_eq_timed hh.1, timed_of_writes hm hh hlt, if_pos ⟨rfl, rfl⟩, if_pos rfl]
  | weekly hm hh hlt hd hname =>
      rw [shaped_eq_timed hh.1, timed_of_writes hm hh hlt, if_pos ⟨rfl, rfl⟩,
        if_neg (ne_asterisk_of_isFigures hd.1), if_pos hd.1, figures_of_writes hd]
      show Except.ok (weekdayNames[_]?.map _) = _
      rw [hname]
      rfl

theorem shaped_of_isUnread (h : IsUnread [minute, hour, dayOfMonth, month, dayOfWeek]) :
    shaped minute hour dayOfMonth month dayOfWeek = .error .malformedInteger := by
  cases h with
  | step hl =>
      rw [shaped_eq_ite, if_pos ⟨rfl, rfl, rfl, rfl⟩, hourly_of_step hl.1,
        figures_of_isIllegible hl]
      rfl
  | minute hm =>
      rw [shaped_eq_ite, if_pos ⟨rfl, rfl, rfl, rfl⟩, hourly_of_figures hm.1,
        figures_of_isIllegible hm]
      rfl
  | hour hm hh => rw [shaped_eq_timed hh.1, timed_of_isIllegible_hour hm hh]
  | minuteOfHour hm hh hlt => rw [shaped_eq_timed hh.1, timed_of_isIllegible_minute hm hh hlt]
  | weekday hm hh hlt hd =>
      rw [shaped_eq_timed hh.1, timed_of_writes hm hh hlt, if_pos ⟨rfl, rfl⟩,
        if_neg (ne_asterisk_of_isFigures hd.1), if_pos hd.1, figures_of_isIllegible hd]
      rfl

theorem shaped_open_cases : (∃ label, HasShape [minute, ['*'], ['*'], ['*'], ['*']] label) ∨
    IsUnread [minute, ['*'], ['*'], ['*'], ['*']] ∨
    shaped minute ['*'] ['*'] ['*'] ['*'] = .ok none := by
  by_cases hs : isFigures (stepText minute) = true
  · rw [eq_of_isFigures_stepText hs]
    rcases writes_or_isIllegible hs with ⟨n, hn⟩ | hl
    · exact .inl ⟨_, .stepped hn⟩
    · exact .inr (.inl (.step hl))
  · by_cases hl : ',' ∈ minute
    · exact .inl ⟨_, .listed hl rfl⟩
    · by_cases hf : isFigures minute = true
      · rcases writes_or_isIllegible hf with ⟨m, hm⟩ | hm
        · exact .inl ⟨_, .hourly hm⟩
        · exact .inr (.inl (.minute hm))
      · refine .inr (.inr ?_)
        rw [shaped_eq_ite, if_pos ⟨rfl, rfl, rfl, rfl⟩]
        exact hourly_of_none (by simpa using hs) hl (by simpa using hf)

theorem timed_weekday_cases {m h : Nat} (hm : Writes minute m) (hh : Writes hour h) (hlt : h < 24) :
    (∃ label, HasShape [minute, hour, ['*'], ['*'], dayOfWeek] label) ∨
      IsUnread [minute, hour, ['*'], ['*'], dayOfWeek] ∨
      timed minute hour ['*'] ['*'] dayOfWeek = .ok none := by
  by_cases hopen : dayOfWeek = ['*']
  · subst hopen
    exact .inl ⟨_, .daily hm hh hlt⟩
  · by_cases hd : isFigures dayOfWeek = true
    · rcases writes_or_isIllegible hd with ⟨d, hd⟩ | hd
      · cases hname : weekdayNames[d]? with
        | some name => exact .inl ⟨_, .weekly hm hh hlt hd hname⟩
        | none =>
            refine .inr (.inr ?_)
            rw [timed_of_writes hm hh hlt, if_pos ⟨rfl, rfl⟩, if_neg hopen, if_pos hd.1,
              figures_of_writes hd]
            show Except.ok (weekdayNames[d]?.map _) = _
            rw [hname]
            rfl
      · exact .inr (.inl (.weekday hm hh hlt hd))
    · refine .inr (.inr ?_)
      rw [timed_of_writes hm hh hlt, if_pos ⟨rfl, rfl⟩, if_neg hopen, if_neg hd]

theorem timed_cases (hm : isFigures minute = true) (hh : isFigures hour = true) :
    (∃ label, HasShape [minute, hour, dayOfMonth, month, dayOfWeek] label) ∨
      IsUnread [minute, hour, dayOfMonth, month, dayOfWeek] ∨
        timed minute hour dayOfMonth month dayOfWeek = .ok none := by
  rcases writes_or_isIllegible hh with ⟨h, hhour⟩ | hhour
  · by_cases hlt : h < 24
    · rcases writes_or_isIllegible hm with ⟨m, hminute⟩ | hminute
      · by_cases hopen : dayOfMonth = ['*'] ∧ month = ['*']
        · obtain ⟨rfl, rfl⟩ := hopen
          exact timed_weekday_cases hminute hhour hlt
        · refine .inr (.inr ?_)
          rw [timed_of_writes hminute hhour hlt, if_neg hopen]
      · exact .inr (.inl (.minuteOfHour hminute hhour hlt))
    · exact .inr (.inr (timed_of_late hm hhour hlt))
  · exact .inr (.inl (.hour hm hhour))

theorem shaped_cases : (∃ label, HasShape [minute, hour, dayOfMonth, month, dayOfWeek] label) ∨
    IsUnread [minute, hour, dayOfMonth, month, dayOfWeek] ∨
      shaped minute hour dayOfMonth month dayOfWeek = .ok none := by
  by_cases hopen : hour = ['*'] ∧ dayOfMonth = ['*'] ∧ month = ['*'] ∧ dayOfWeek = ['*']
  · obtain ⟨rfl, rfl, rfl, rfl⟩ := hopen
    exact shaped_open_cases
  · rw [shaped_eq_ite, if_neg hopen]
    by_cases hf : isFigures minute = true ∧ isFigures hour = true
    · exact timed_cases hf.1 hf.2
    · exact .inr (.inr (timed_of_not_figures hf))

/-! ## Texts -/

variable {given : String} {parts : List (List Char)}

theorem exists_words_of_hasShape (h : HasShape parts label) :
    ∃ minute hour dayOfMonth month dayOfWeek,
      parts = [minute, hour, dayOfMonth, month, dayOfWeek] := by
  cases h <;> exact ⟨_, _, _, _, _, rfl⟩

theorem exists_words_of_isUnread (h : IsUnread parts) :
    ∃ minute hour dayOfMonth month dayOfWeek,
      parts = [minute, hour, dayOfMonth, month, dayOfWeek] := by
  cases h <;> exact ⟨_, _, _, _, _, rfl⟩

theorem cronText_of_words (hw : words given.toList = [minute, hour, dayOfMonth, month, dayOfWeek]) :
    cronText given = (shaped minute hour dayOfMonth month dayOfWeek).map (·.getD given) := by
  rw [cronText, hw]

theorem cronText_of_hasShape (h : HasShape (words given.toList) label) :
    cronText given = .ok label := by
  obtain ⟨minute, hour, dayOfMonth, month, dayOfWeek, hw⟩ := exists_words_of_hasShape h
  rw [hw] at h
  rw [cronText_of_words hw, shaped_of_hasShape h]
  rfl

theorem cronText_of_isUnread (h : IsUnread (words given.toList)) :
    cronText given = .error .malformedInteger := by
  obtain ⟨minute, hour, dayOfMonth, month, dayOfWeek, hw⟩ := exists_words_of_isUnread h
  rw [hw] at h
  rw [cronText_of_words hw, shaped_of_isUnread h]
  rfl

theorem cronText_cases (given : String) : (∃ label, HasShape (words given.toList) label) ∨
    IsUnread (words given.toList) ∨ cronText given = .ok given := by
  by_cases hfive : ∃ minute hour dayOfMonth month dayOfWeek,
      words given.toList = [minute, hour, dayOfMonth, month, dayOfWeek]
  · obtain ⟨minute, hour, dayOfMonth, month, dayOfWeek, hw⟩ := hfive
    rw [cronText_of_words hw, hw]
    rcases @shaped_cases minute hour dayOfMonth month dayOfWeek with hlabel | hunread | hnone
    · exact .inl hlabel
    · exact .inr (.inl hunread)
    · rw [hnone]
      exact .inr (.inr rfl)
  · refine .inr (.inr ?_)
    unfold cronText
    split
    · rename_i hw
      exact absurd ⟨_, _, _, _, _, hw⟩ hfive
    · rfl

/-! ## First words -/

theorem toString_text (s : String) : toString s = s := rfl

/-- The first word of the text is neither figures nor a field of a cron text. -/
def IsCaption (text : List Char) : Prop :=
  ∃ first rest, text = first ++ ' ' :: rest ∧ first.any isBlank = false ∧ ',' ∉ first ∧
    ∃ c ∈ first, isFigure c = false ∧ c ≠ '*' ∧ c ≠ '/' ∧ c ≠ '-'

theorem isCaption_everyMinutes (n : Nat) : IsCaption (s!"Every {n} min").toList :=
  ⟨"Every".toList, Nat.toDigits 10 n ++ " min".toList, by simp [toString_text], by decide,
    by decide, 'E', by decide, by decide, by decide⟩

theorem isCaption_timesPerHour (n : Nat) : IsCaption (s!"{n}× per hour").toList := by
  have hcomma : ',' ∉ Nat.toDigits 10 n := fun h => by simpa using isDigit_of_mem_toDigits h
  have hblank : (Nat.toDigits 10 n ++ ['×']).any isBlank = false := by
    rw [List.any_append, Bool.or_eq_false_iff, List.any_eq_false]
    refine ⟨fun c hc => ?_, by decide⟩
    simp [not_isBlank_of_isDigit (isDigit_of_mem_toDigits hc)]
  exact ⟨Nat.toDigits 10 n ++ ['×'], "per hour".toList, by simp [toString_text], hblank,
    by simp [hcomma], '×', by simp, by decide, by decide⟩

theorem isCaption_hourly (x : String) : IsCaption ("Hourly at :" ++ x).toList :=
  ⟨"Hourly".toList, "at :".toList ++ x.toList, by simp, by decide, by decide,
    'H', by decide, by decide, by decide⟩

theorem isCaption_daily (x : String) : IsCaption (s!"Daily {x}").toList :=
  ⟨"Daily".toList, x.toList, by simp [toString_text], by decide, by decide,
    'D', by decide, by decide, by decide⟩

theorem isCaption_weekly (x y : String) : IsCaption (s!"Weekly on {x} {y}").toList :=
  ⟨"Weekly".toList, "on ".toList ++ x.toList ++ ' ' :: y.toList, by simp [toString_text], by decide,
    by decide, 'W', by decide, by decide, by decide⟩

theorem isCaption_of_hasShape (h : HasShape parts label) : IsCaption label.toList := by
  cases h with
  | stepped => exact isCaption_everyMinutes _
  | listed => exact isCaption_timesPerHour _
  | hourly => exact isCaption_hourly _
  | daily => exact isCaption_daily _
  | weekly => exact isCaption_weekly _ _

theorem IsCaption.words_eq {text : List Char} (h : IsCaption text) :
    ∃ first rest, words text = first :: rest ∧
    ',' ∉ first ∧ ∃ c ∈ first, isFigure c = false ∧ c ≠ '*' ∧ c ≠ '/' ∧ c ≠ '-' := by
  obtain ⟨first, rest, rfl, hblank, hcomma, c, hc, hnot⟩ := h
  have hunbroken : ∀ c ∈ first, isBlank c = false := by simpa using hblank
  exact ⟨first, words rest, words_append (List.ne_nil_of_mem hc) hunbroken rest, hcomma,
    c, hc, hnot⟩

theorem not_hasShape_of_isCaption {text : List Char} (h : IsCaption text) :
    ¬ HasShape (words text) label := by
  obtain ⟨first, rest, hw, hcomma, c, hc, hfigure, hasterisk, hslash, -⟩ := h.words_eq
  rw [hw]
  intro hs
  have hfigures : ∀ {n : Nat}, ¬ Writes first n := fun hn => not_mem_of_isFigures hn.1 hfigure hc
  cases hs with
  | stepped hn =>
      have hlast := not_mem_of_isFigures hn.1 hfigure
      simp [hasterisk, hslash, hlast] at hc
  | listed hl => exact hcomma hl
  | hourly hm => exact hfigures hm
  | daily hm => exact hfigures hm
  | weekly hm => exact hfigures hm

/-- No text is its own label by its shape. -/
theorem ne_of_hasShape (h : HasShape (words given.toList) label) : label ≠ given := by
  rintro rfl
  exact not_hasShape_of_isCaption (isCaption_of_hasShape h) h

/-! ## Shapes of a label -/

section Labels

variable {x y : String} {n : Nat}

theorem hasShape_everyMinutes (h : HasShape parts s!"Every {n} min") :
    ∃ last, parts = ['*' :: '/' :: last, ['*'], ['*'], ['*'], ['*']] ∧ Writes last n := by
  generalize hl : s!"Every {n} min" = label at h
  rw [eq_comm, ← String.toList_inj] at hl
  cases h with
  | stepped hn => exact ⟨_, rfl, toDigits_inj (by simpa [toString_text] using hl) ▸ hn⟩
  | _ => simp [toString_text, toDigits_append_ne] at hl

theorem hasShape_timesPerHour (h : HasShape parts s!"{n}× per hour") :
    ∃ minute, parts = [minute, ['*'], ['*'], ['*'], ['*']] ∧
      (pieces (· == ',') minute).length = n := by
  generalize hl : s!"{n}× per hour" = label at h
  rw [← String.toList_inj] at hl
  cases h with
  | listed _ hc => exact ⟨_, rfl, hc.trans (toDigits_inj (by simpa [toString_text] using hl.symm))⟩
  | _ => simp [toString_text, toDigits_append_ne] at hl

theorem hasShape_hourly (h : HasShape parts ("Hourly at :" ++ x)) :
    ∃ minute m, parts = [minute, ['*'], ['*'], ['*'], ['*']] ∧ Writes minute m ∧
      x = String.ofList (padded 2 m) := by
  generalize hl : "Hourly at :" ++ x = label at h
  rw [eq_comm, ← String.toList_inj] at hl
  cases h with
  | hourly hm => exact ⟨_, _, rfl, hm, by simpa [← String.toList_inj] using hl.symm⟩
  | _ => simp [toString_text, toDigits_append_ne] at hl

theorem hasShape_daily (h : HasShape parts s!"Daily {x}") : ∃ minute hour m o,
    parts = [minute, hour, ['*'], ['*'], ['*']] ∧ Writes minute m ∧ Writes hour o ∧ o < 24 ∧
      x = clock o m := by
  generalize hl : s!"Daily {x}" = label at h
  rw [eq_comm, ← String.toList_inj] at hl
  cases h with
  | daily hm hh hlt =>
      exact ⟨_, _, _, _, rfl, hm, hh, hlt,
        by simpa [toString_text, ← String.toList_inj] using hl.symm⟩
  | _ => simp [toString_text, toDigits_append_ne] at hl

theorem hasShape_weekly (h : HasShape parts s!"Weekly on {x} {y}") :
    ∃ minute hour dayOfWeek m o d name,
      parts = [minute, hour, ['*'], ['*'], dayOfWeek] ∧ Writes minute m ∧ Writes hour o ∧ o < 24 ∧
      Writes dayOfWeek d ∧ weekdayNames[d]? = some name ∧
      x.toList ++ ' ' :: y.toList = name.toList ++ ' ' :: (clock o m).toList := by
  generalize hl : s!"Weekly on {x} {y}" = label at h
  rw [eq_comm, ← String.toList_inj] at hl
  cases h with
  | weekly hm hh hlt hd hname =>
      exact ⟨_, _, _, _, _, _, _, rfl, hm, hh, hlt, hd, hname,
        by simpa [toString_text] using hl.symm⟩
  | _ => simp [toString_text, toDigits_append_ne] at hl

end Labels

end Almanac.Label

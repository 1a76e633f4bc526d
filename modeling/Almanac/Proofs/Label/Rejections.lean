import Almanac.Proofs.Cron.Numbers
import Almanac.Proofs.Label.Shapes

/-!
# Labels of texts that are no expressions

Labels are made from the words alone, with looser rules than those of fields. A text that is refused
is its own label just if its words have no shape and no figures that cannot be read. If it is not,
the words say why it was refused: a list of minutes has a fault, a number is no minute, a step is
zero, or there are figures other than a few ASCII digits.
-/

namespace Almanac.Label

open Almanac.Cron Almanac.Text

/-- Figures that no field reads: they are not all ASCII digits, or there are too many of them. -/
def IsForeign (text : List Char) : Prop := isFigures text = true ∧ ∀ n, ¬ IsReadable text n

inductive HasOversight : List (List Char) → Prop
  | list {minute} : ',' ∈ minute → (∀ found, Expression.field .minute minute ≠ .ok found) →
      HasOversight [minute, ['*'], ['*'], ['*'], ['*']]
  | step {last} : IsNumeral last 0 → HasOversight ['*' :: '/' :: last, ['*'], ['*'], ['*'], ['*']]
  | minute {minute rest n} : IsNumeral minute n → 59 < n → HasOversight (minute :: rest)
  | figures {text minute rest} : text ∈ stepText minute :: minute :: rest → IsForeign text →
      HasOversight (minute :: rest)

variable {given label : String} {minute hour dayOfWeek text : List Char}

theorem Writes.isReadable {n : Nat} (h : Writes text n) (hf : ¬ IsForeign text) :
    IsReadable text n := by
  by_contra hn
  refine hf ⟨h.1, fun m hm => hn ?_⟩
  rwa [Option.some.inj (h.2.symm.trans hm.natural?)]

theorem IsIllegible.isForeign (h : IsIllegible text) : IsForeign text := by
  refine ⟨h.1, fun n hn => ?_⟩
  have hnumber := hn.natural?
  rw [h.2] at hnumber
  contradiction

theorem hasOversight_of_isUnread {parts : List (List Char)} (h : IsUnread parts) :
    HasOversight parts := by
  cases h with
  | step hl => exact .figures (by simp [stepText]) hl.isForeign
  | minute hm => exact .figures (by simp) hm.isForeign
  | hour _ hh => exact .figures (by simp) hh.isForeign
  | minuteOfHour hm => exact .figures (by simp) hm.isForeign
  | weekday _ _ _ hd => exact .figures (by simp) hd.isForeign

theorem exists_field_of_asterisk (kind : FieldKind) :
    ∃ found, Expression.field kind ['*'] = .ok found := ⟨_, rfl⟩

/-- A text with a time of day is an expression, unless its minute is out of bounds or its figures
are foreign. -/
theorem hasOversight_of_time {m h : Nat}
    (hr : ∀ expression, Expression.ofText given ≠ .ok expression)
    (hw : words given.toList = [minute, hour, ['*'], ['*'], dayOfWeek]) (hm : Writes minute m)
    (hh : Writes hour h) (hlt : h < 24)
    (hd : ¬ IsForeign dayOfWeek → ∃ found, Expression.field .dayOfWeek dayOfWeek = .ok found) :
    HasOversight (words given.toList) := by
  rw [hw]
  by_contra hno
  have hforeign : ∀ word ∈ [minute, hour, ['*'], ['*'], dayOfWeek], ¬ IsForeign word :=
    fun word hmem hf => hno (.figures (List.mem_cons_of_mem _ hmem) hf)
  have hminute := hm.isReadable (hforeign minute (by simp))
  have hhour := hh.isReadable (hforeign hour (by simp))
  have hlow : m ≤ 59 := Nat.le_of_not_lt fun hn => hno (.minute hminute.1 hn)
  obtain ⟨expression, hx⟩ := Expression.exists_of_fields hw
    (Expression.exists_field_of_readable hminute ⟨Nat.zero_le m, hlow⟩)
    (Expression.exists_field_of_readable hhour ⟨Nat.zero_le h, Nat.le_of_lt_succ hlt⟩)
    (exists_field_of_asterisk .dayOfMonth) (exists_field_of_asterisk .month)
    (hd (hforeign dayOfWeek (by simp)))
  exact hr expression hx

theorem field_ne_ok_of_open (hr : ∀ expression, Expression.ofText given ≠ .ok expression)
    (hw : words given.toList = [minute, ['*'], ['*'], ['*'], ['*']]) (found : Field) :
    Expression.field .minute minute ≠ .ok found := by
  intro hf
  obtain ⟨expression, hx⟩ :=
    Expression.exists_of_fields hw ⟨found, hf⟩ (exists_field_of_asterisk .hour)
      (exists_field_of_asterisk .dayOfMonth) (exists_field_of_asterisk .month)
      (exists_field_of_asterisk .dayOfWeek)
  exact hr expression hx

theorem hasOversight_of_hasShape (hr : ∀ expression, Expression.ofText given ≠ .ok expression)
    (h : HasShape (words given.toList) label) : HasOversight (words given.toList) := by
  generalize hw : words given.toList = parts at h ⊢
  cases h with
  | @stepped last n hn =>
      by_contra hno
      have hlast := hn.isReadable fun hf => hno (.figures (by simp [stepText]) hf)
      have hpos : n ≠ 0 := fun hz => hno (.step (hz ▸ hlast.1))
      obtain ⟨found, hf⟩ :=
        @Expression.exists_field_of_readable_step .minute _ _ hlast (Nat.one_le_iff_ne_zero.2 hpos)
      exact field_ne_ok_of_open hr hw found hf
  | listed hl => exact .list hl (field_ne_ok_of_open hr hw)
  | @hourly minute m hm =>
      by_contra hno
      have hminute := hm.isReadable fun hf => hno (.figures (by simp) hf)
      have hlow : m ≤ 59 := Nat.le_of_not_lt fun hn => hno (.minute hminute.1 hn)
      obtain ⟨found, hf⟩ :=
        @Expression.exists_field_of_readable .minute _ _ hminute ⟨Nat.zero_le m, hlow⟩
      exact field_ne_ok_of_open hr hw found hf
  | daily hm hh hlt =>
      exact hw ▸ hasOversight_of_time hr hw hm hh hlt fun _ => exists_field_of_asterisk .dayOfWeek
  | weekly hm hh hlt hd hname =>
      refine hw ▸ hasOversight_of_time hr hw hm hh hlt fun hf => ?_
      exact Expression.exists_field_of_readable (hd.isReadable hf)
        ⟨Nat.zero_le _, Nat.le_of_lt_succ (lt_of_weekdayNames hname)⟩

/-- A text that is refused is its own label just if its words have neither a shape nor figures that
cannot be read. Else labels have overlooked one of a few faults. -/
theorem rejected_texts_fall_back {error : Error} (h : Expression.ofText given = .error error) :
    (cronText given = .ok given ↔
        ¬ IsUnread (words given.toList) ∧ ∀ label, ¬ HasShape (words given.toList) label) ∧
      (cronText given ≠ .ok given → HasOversight (words given.toList)) := by
  have hr : ∀ expression, Expression.ofText given ≠ .ok expression := by
    simp [h]
  rcases cronText_cases given with ⟨label, hs⟩ | hu | hself
  · have hlabel := cronText_of_hasShape hs
    have hother : cronText given ≠ .ok given := by
      rw [hlabel]
      exact fun he => ne_of_hasShape hs (Except.ok.inj he)
    exact ⟨⟨fun he => absurd he hother, fun hn => absurd hs (hn.2 label)⟩,
      fun _ => hasOversight_of_hasShape hr hs⟩
  · have herror := cronText_of_isUnread hu
    have hother : cronText given ≠ .ok given := by
      simp [herror]
    exact ⟨⟨fun he => absurd he hother, fun hn => absurd hu hn.1⟩,
      fun _ => hasOversight_of_isUnread hu⟩
  · refine ⟨⟨fun _ => ⟨fun hu => ?_, fun label hs => ?_⟩, fun _ => hself⟩,
      fun hn => absurd hself hn⟩
    · have herror := cronText_of_isUnread hu
      rw [hself] at herror
      contradiction
    · have hlabel := cronText_of_hasShape hs
      rw [hself] at hlabel
      exact ne_of_hasShape hs (Except.ok.inj hlabel).symm

/-- Hours that are a range have no label, and a minute above 59 is overlooked. -/
theorem rejected_texts_fall_back_hours :
    (∃ error, Expression.ofText "0 9-17 * * 8" = .error error) ∧
      cronText "0 9-17 * * 8" = .ok "0 9-17 * * 8" ∧
      (∃ error, Expression.ofText "75 9 * * *" = .error error) ∧
        HasOversight (words "75 9 * * *".toList) := by
  obtain ⟨error, h⟩ : ∃ error, Expression.ofText "0 9-17 * * 8" = .error error := ⟨_, rfl⟩
  obtain ⟨other, ho⟩ : ∃ error, Expression.ofText "75 9 * * *" = .error error := ⟨_, rfl⟩
  have hwords : words "0 9-17 * * 8".toList = ["0", "9-17", "*", "*", "8"].map String.toList := by
    decide +kernel
  have hhours : ¬ isFigures "9-17".toList = true := by decide
  have hself : cronText "0 9-17 * * 8" = .ok "0 9-17 * * 8" := by
    refine (rejected_texts_fall_back h).1.2 (hwords ▸ ⟨fun hu => ?_, fun label hs => ?_⟩)
    · cases hu with
      | hour _ hh => exact hhours hh.1
      | minuteOfHour _ hh => exact hhours hh.1
      | weekday _ hh => exact hhours hh.1
    · cases hs with
      | weekly _ hh => exact hhours hh.1
  exact ⟨⟨error, h⟩, hself, ⟨other, ho⟩, (rejected_texts_fall_back ho).2 (by decide +kernel)⟩

/-- Texts that are refused, four with labels of runs that there are not, and one without any. -/
theorem rejected_texts_mislabelled :
    (∀ text ∈ ["60 * * * *", "75 9 * * *", "*/0 * * * *", "1,,2 * * * *", "² * * * *"],
      (Expression.ofText text).isOk = false) ∧
    cronText "60 * * * *" = .ok "Hourly at :60" ∧ cronText "75 9 * * *" = .ok "Daily 9:75 AM" ∧
    cronText "*/0 * * * *" = .ok "Every 0 min" ∧ cronText "1,,2 * * * *" = .ok "3× per hour" ∧
    cronText "² * * * *" = .error .malformedInteger := by
  decide +kernel

end Almanac.Label

import Almanac.Proofs.Cron.Numbers

/-!
# How reading cron text fails

Reading a field fails with a fault that names the field. It fails in no other way as long as no
numeral is too long, so that a text is then an expression or refused. A field that is too long a
numeral has no fault, and the text is not read at all.
-/

namespace Almanac.Cron

open Almanac.Text

variable {α β : Type} {kind : FieldKind}

/-- A reading that fails does so with a fault of this sort. -/
def FailsWith (allowed : Fault → Prop) (result : Except Refusal α) : Prop :=
  ∀ refusal, result = .error refusal → ∃ cause, refusal = .fault cause ∧ allowed cause

namespace FailsWith

variable {allowed : Fault → Prop}

theorem ok (value : α) : FailsWith allowed (.ok value : Except Refusal α) := by
  intro refusal h
  contradiction

theorem fault {cause : Fault} (h : allowed cause) :
    FailsWith allowed (.error (.fault cause) : Except Refusal α) := by
  intro refusal he
  exact ⟨cause, (Except.error.inj he).symm, h⟩

theorem bind {first : Except Refusal α} {next : α → Except Refusal β} (h : FailsWith allowed first)
    (hn : ∀ value, FailsWith allowed (next value)) : FailsWith allowed (first >>= next) := by
  intro refusal he
  rcases bind_eq_error_iff.1 he with hf | ⟨value, -, hs⟩
  · exact h refusal hf
  · exact hn value refusal hs

theorem map {first : Except Refusal α} (h : FailsWith allowed first) (f : α → β) :
    FailsWith allowed (first.map f) := by
  cases first with
  | ok value => exact ok (f value)
  | error refusal => exact fun found he => h found (congrArg Except.error (Except.error.inj he))

theorem mono {wider : Fault → Prop} {result : Except Refusal α} (h : FailsWith allowed result)
    (hw : ∀ cause, allowed cause → wider cause) : FailsWith wider result := by
  intro refusal he
  obtain ⟨cause, rfl, hc⟩ := h refusal he
  exact ⟨cause, rfl, hw cause hc⟩

end FailsWith

/-- A reading that fails does so with a fault of this field. -/
abbrev Blames (kind : FieldKind) (result : Except Refusal α) : Prop :=
  FailsWith (fun cause => cause.kind? = some kind) result

namespace Reader

variable {text : List Char}

/-! ## Numbers -/

theorem blames_number (h : HasShortNumerals text) : Blames kind (number kind text) := by
  unfold number
  split
  · rename_i hd
    have hl : text.length ≤ digitLimit :=
      h text (List.infix_refl text) (isNumeral_of_isDigits hd).2.1
    rw [if_pos hl]
    exact .ok _
  · exact .fault rfl

theorem blames_bounded (h : HasShortNumerals text) : Blames kind (bounded kind text) := by
  refine (blames_number h).bind fun n => ?_
  split
  · exact .ok n
  · exact .fault rfl

theorem blames_positive (h : HasShortNumerals text) : Blames kind (positive kind text) := by
  refine (blames_number h).bind fun step => ?_
  split
  · exact .fault rfl
  · exact .ok step

theorem blames_range {before after : List Char} (h : HasShortNumerals (before ++ '-' :: after)) :
    Blames kind (range kind text before after) := by
  refine (blames_bounded h.before).bind fun a => (blames_bounded h.after).bind fun b => ?_
  split
  · exact .ok (a, b)
  · exact .fault rfl

/-! ## Items and fields -/

theorem blames_plainItem (h : HasShortNumerals text) : Blames kind (plainItem kind text) := by
  unfold plainItem
  split
  · rename_i before after hc
    rcases (cut_eq_some_iff _ _ _ _).1 hc with ⟨rfl, -⟩
    exact (blames_range h).bind fun ends => .ok _
  · exact (blames_bounded h).bind fun n => .ok _

theorem blames_steppedItem {last : List Char} (h : HasShortNumerals (text ++ '/' :: last)) :
    Blames kind (steppedItem kind text last) := by
  refine (blames_positive h.after).bind fun step => ?_
  split
  · exact .ok _
  · split
    · rename_i before after hc
      rcases (cut_eq_some_iff _ _ _ _).1 hc with ⟨rfl, -⟩
      exact (blames_range h.before).bind fun ends => .ok _
    · exact (blames_bounded h.before).bind fun n => .ok _

theorem blames_item (h : HasShortNumerals text) (field : List Char) :
    Blames kind (item kind field text) := by
  unfold item
  split
  · exact .fault rfl
  · split
    · rename_i before after hc
      rcases (cut_eq_some_iff _ _ _ _).1 hc with ⟨rfl, -⟩
      exact blames_steppedItem h
    · exact blames_plainItem h

theorem blames_items {parts : List (List Char)} (h : ∀ part ∈ parts, HasShortNumerals part)
    (field : List Char) :
    Blames kind (items kind field parts) := by
  induction parts with
  | nil => exact .ok []
  | cons part rest ih =>
      obtain ⟨hpart, hrest⟩ := List.forall_mem_cons.1 h
      exact (blames_item hpart field).bind fun head => (ih hrest).bind fun tail => .ok _

theorem blames_pattern (h : HasShortNumerals text) : Blames kind (pattern kind text) := by
  unfold pattern
  split
  · exact .ok Pattern.any
  · have hparts : ∀ part ∈ pieces (· == ',') text, HasShortNumerals part :=
      fun part hp => h.of_infix (infix_of_mem_pieces hp)
    exact (blames_items hparts text).map Pattern.list

theorem pattern_of_long (hd : isDigits text = true) (hl : digitLimit < text.length) :
    pattern kind text = .error .numeralTooLong := by
  have hnumber : number kind text = .error .numeralTooLong := by
    rw [number, if_pos hd, if_neg (by omega)]
  rw [pattern_of_figures (isFigures_of_isDigits hd), bounded, hnumber]
  rfl

end Reader

namespace Expression

theorem blames_field {word : List Char} (h : HasShortNumerals word) :
    Blames kind (field kind word) :=
  (Reader.blames_pattern h).map (·.field kind)

theorem ofWords_failsWith {text : String} {minute hour dayOfMonth month dayOfWeek : List Char}
    (h : ∀ word ∈ [minute, hour, dayOfMonth, month, dayOfWeek], HasShortNumerals word) :
    FailsWith (fun cause => cause.kind?.isSome = true)
      (ofWords text minute hour dayOfMonth month dayOfWeek) := by
  have hfield : ∀ (kind : FieldKind) (word : List Char), HasShortNumerals word →
      FailsWith (fun cause => cause.kind?.isSome = true) (field kind word) :=
    fun kind word hs => (blames_field hs).mono fun cause hc => by rw [hc]; rfl
  simp only [List.forall_mem_cons] at h
  obtain ⟨hminute, hhour, hday, hmonth, hweekday, -⟩ := h
  refine (hfield _ _ hminute).bind fun m => (hfield _ _ hhour).bind fun o => ?_
  refine (hfield _ _ hday).bind fun d => (hfield _ _ hmonth).bind fun n => ?_
  exact (hfield _ _ hweekday).bind fun w => .ok _

/-- A text that is not an expression is blank, has the wrong number of words, or has a word that is
not read. -/
theorem ofText_eq_error {given : String} {error : Error} (h : ofText given = .error error) :
    words given.toList = [] ∧ error = .cron ⟨given, .blank⟩ ∨
      (words given.toList).length ≠ 5 ∧
        error = .cron ⟨String.ofList (normalized given.toList),
          .fieldCount (words given.toList).length⟩ ∨
      ∃ minute hour dayOfMonth month dayOfWeek refusal,
        words given.toList = [minute, hour, dayOfMonth, month, dayOfWeek] ∧
          ofWords (String.ofList (normalized given.toList)) minute hour dayOfMonth month dayOfWeek =
            .error refusal ∧ error = refusal.error (String.ofList (normalized given.toList)) := by
  unfold ofText at h
  split at h
  · rename_i hw
    exact .inl ⟨hw, (Except.error.inj h).symm⟩
  · rename_i minute hour dayOfMonth month dayOfWeek hw
    cases ho :
      ofWords (String.ofList (normalized given.toList)) minute hour dayOfMonth month dayOfWeek with
    | ok expression => simp [ho, Except.mapError] at h
    | error refusal =>
        simp only [ho, Except.mapError] at h
        exact .inr (.inr ⟨_, _, _, _, _, refusal, hw, ho, (Except.error.inj h).symm⟩)
  · rename_i hfive
    refine .inr (.inl ⟨fun hl => ?_, (Except.error.inj h).symm⟩)
    obtain ⟨minute, rest, hcons, hr⟩ := List.length_eq_succ_iff.1 hl
    obtain ⟨hour, dayOfMonth, month, dayOfWeek, rfl⟩ := List.length_eq_four.1 hr
    exact hfive minute hour dayOfMonth month dayOfWeek hcons.symm

theorem ofText_cases (given : String) :
    (∃ expression, ofText given = .ok expression) ∨
      (∃ refusal, ofText given = .error (.cron refusal)) ∨
      ofText given = .error .numeralTooLong ∧ ¬ HasShortNumerals given.toList := by
  cases hr : ofText given with
  | ok expression => exact .inl ⟨expression, rfl⟩
  | error error =>
      rcases ofText_eq_error hr with ⟨-, rfl⟩ | ⟨-, rfl⟩ | ⟨_, _, _, _, _, refusal, hw, ho, rfl⟩
      · exact .inr (.inl ⟨_, rfl⟩)
      · exact .inr (.inl ⟨_, rfl⟩)
      · cases refusal with
        | fault cause => exact .inr (.inl ⟨_, rfl⟩)
        | numeralTooLong =>
            refine .inr (.inr ⟨rfl, fun hshort => ?_⟩)
            have hwords := fun word (hm : word ∈ words given.toList) =>
              hshort.of_infix (infix_of_mem_words hm)
            rw [hw] at hwords
            obtain ⟨cause, hc, -⟩ := ofWords_failsWith hwords _ ho
            contradiction

theorem ofText_of_long_minute {minute rest : List Char} (hd : isDigits minute = true)
    (hl : digitLimit < minute.length) (hr : (words rest).length = 4) :
    ofText (String.ofList (minute ++ ' ' :: rest)) = .error .numeralTooLong := by
  obtain ⟨hne, hdigits, -⟩ := isNumeral_of_isDigits hd
  obtain ⟨hour, dayOfMonth, month, dayOfWeek, hrest⟩ := List.length_eq_four.1 hr
  have hw : words (String.ofList (minute ++ ' ' :: rest)).toList =
      [minute, hour, dayOfMonth, month, dayOfWeek] := by
    rw [String.toList_ofList, words_append hne (fun c hc => not_isBlank_of_isDigit (hdigits c hc)),
      hrest]
  rw [ofText_of_words hw, ofWords, field, Reader.pattern_of_long hd hl]
  rfl

end Expression

end Almanac.Cron

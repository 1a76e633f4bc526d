import Almanac.Proofs.Cron.Faults

/-!
# The word that a refusal is about

The words of a text are read from the left, each for its own field. A refused text of five words is
refused for the leftmost word to which the grammar gives no meaning: the refusal names its field,
and says the same whatever stands to the right of it. Blank texts and texts with another number of
words are refused without a field.
-/

namespace Almanac.Cron

open Almanac.Text

abbrev Slot := FieldKind × List Char

namespace Slot

variable {slot : Slot}

def read (slot : Slot) : Except Refusal Field := Expression.field slot.1 slot.2

def IsLegible (slot : Slot) : Prop := ∃ pattern : Pattern, pattern.Reads slot.1 slot.2

theorem isLegible_of_read {found : Field} (h : slot.read = .ok found) : slot.IsLegible := by
  rcases map_eq_ok_iff.1 h with ⟨pattern, hp, -⟩
  exact ⟨pattern, Reader.reads_of_pattern hp⟩

theorem not_isLegible_of_read (h : HasShortNumerals slot.2) {refusal : Refusal}
    (hr : slot.read = .error refusal) :
    ¬ slot.IsLegible := by
  intro hlegible
  rcases hlegible with ⟨pattern, hp⟩
  rw [read, Expression.field_of_reads h hp] at hr
  contradiction

end Slot

def slots (text : List Char) : List Slot := FieldKind.inOrder.zip (words text)

theorem hasShortNumerals_of_mem_slots {text : List Char} (h : HasShortNumerals text) {slot : Slot}
    (hs : slot ∈ slots text) : HasShortNumerals slot.2 :=
  h.of_infix (infix_of_mem_words (List.of_mem_zip hs).2)

/-- The word at this place is the leftmost one of the text that is outside the grammar of its
field. -/
def IsLeftmostIllegible (before : List Slot) (slot : Slot) (text : List Char) : Prop :=
  before ++ [slot] <+: slots text ∧ (∀ earlier ∈ before, earlier.IsLegible) ∧ ¬ slot.IsLegible

namespace Expression

theorem ofWords_eq_error_iff (text : String) {minute hour dayOfMonth month dayOfWeek : List Char}
    {refusal : Refusal} :
    ofWords text minute hour dayOfMonth month dayOfWeek = .error refusal ↔
      (FieldKind.inOrder.zip [minute, hour, dayOfMonth, month, dayOfWeek]).mapM Slot.read =
        .error refusal := by
  simp [ofWords, FieldKind.inOrder, bind_eq_error_iff, Slot.read, pure, Except.pure]

theorem ofText_eq_error_iff_of_five {given : String} (h : (words given.toList).length = 5)
    {error : Error} :
    ofText given = .error error ↔ ∃ refusal, (slots given.toList).mapM Slot.read = .error refusal ∧
      refusal.error (String.ofList (normalized given.toList)) = error := by
  rcases List.length_eq_succ_iff.1 h with ⟨minute, rest, hw, hr⟩
  rcases List.length_eq_four.1 hr with ⟨hour, dayOfMonth, month, dayOfWeek, rfl⟩
  rw [ofText_of_words hw.symm, slots, ← hw]
  simp only [← ofWords_eq_error_iff (String.ofList (normalized given.toList))]
  cases ofWords (String.ofList (normalized given.toList)) minute hour dayOfMonth month
    dayOfWeek with
  | ok expression => simp [Except.mapError]
  | error refusal => simp [Except.mapError]

/-- The fault of a text of five words comes from the first of them that is not read, and from no
word after it. -/
theorem ofText_of_first_unread {given : String} (h : (words given.toList).length = 5)
    {before : List Slot} {slot : Slot} (hp : before ++ [slot] <+: slots given.toList)
    (hb : ∀ earlier ∈ before, ∃ found, earlier.read = .ok found)
    {refusal : Refusal} (hs : slot.read = .error refusal) :
    ofText given = .error (refusal.error (String.ofList (normalized given.toList))) := by
  rcases hp with ⟨after, hslots⟩
  refine (ofText_eq_error_iff_of_five h).2 ⟨refusal, ?_, rfl⟩
  rw [← hslots, List.append_assoc]
  exact mapM_eq_error_iff.2 ⟨before, slot, after, rfl, hb, hs⟩

theorem exists_first_unread {given : String} (h : (words given.toList).length = 5) {error : Error}
    (he : ofText given = .error error) :
    ∃ before slot refusal, before ++ [slot] <+: slots given.toList ∧
      (∀ earlier ∈ before, ∃ found, earlier.read = .ok found) ∧ slot.read = .error refusal ∧
        refusal.error (String.ofList (normalized given.toList)) = error := by
  rcases (ofText_eq_error_iff_of_five h).1 he with ⟨refusal, hread, hrefusal⟩
  rcases mapM_eq_error_iff.1 hread with ⟨before, slot, after, hslots, hb, hs⟩
  refine ⟨before, slot, refusal, ⟨after, ?_⟩, hb, hs, hrefusal⟩
  rw [hslots, List.append_assoc]
  rfl

theorem refused_for_leftmost {given : String} (h : HasShortNumerals given.toList)
    (hfive : (words given.toList).length = 5) {error : Error} (he : ofText given = .error error) :
    ∃ before slot cause, IsLeftmostIllegible before slot given.toList ∧ cause.kind? = some slot.1 ∧
      ∀ other : String, (words other.toList).length = 5 → before ++ [slot] <+: slots other.toList →
        ofText other = .error (.cron ⟨String.ofList (normalized other.toList), cause⟩) := by
  rcases exists_first_unread hfive he with ⟨before, slot, refusal, hp, hb, hs, -⟩
  have hmem : slot ∈ slots given.toList := hp.subset (by simp)
  have hshort : HasShortNumerals slot.2 := hasShortNumerals_of_mem_slots h hmem
  rcases blames_field hshort refusal hs with ⟨cause, rfl, hkind⟩
  have hearlier : ∀ earlier ∈ before, earlier.IsLegible := by
    intro earlier hm
    rcases hb earlier hm with ⟨found, hf⟩
    exact Slot.isLegible_of_read hf
  refine ⟨before, slot, cause, ⟨hp, hearlier, Slot.not_isLegible_of_read hshort hs⟩, hkind, ?_⟩
  intro other hother hprefix
  exact ofText_of_first_unread hother hprefix hb hs

theorem ofText_of_blank {given : String} (h : words given.toList = []) :
    ofText given = .error (.cron ⟨given, .blank⟩) := by
  rw [ofText, h]

theorem ofText_of_count {given : String} (hne : words given.toList ≠ [])
    (h : (words given.toList).length ≠ 5) :
    ofText given =
      .error (.cron ⟨String.ofList (normalized given.toList),
        .fieldCount (words given.toList).length⟩) := by
  unfold ofText
  split
  · contradiction
  · rename_i hw
    rw [hw] at h
    contradiction
  · rfl

/-- A refused text without numerals that are too long is shown with its refusal. If it is blank, it
is shown as given, and otherwise by its words with single spaces between them. The refusal has no
field unless there are five words, and then names the field of the leftmost word outside its
grammar. No word to the right of that one has a say in it. -/
theorem refusals_name_leftmost {given : String} (h : HasShortNumerals given.toList) {error : Error}
    (he : ofText given = .error error) :
    ∃ refusal : ParseError, error = .cron refusal ∧
      (words given.toList = [] → refusal.field? = none ∧ refusal.expression = given) ∧
      (words given.toList ≠ [] →
        refusal.expression = String.ofList (join ' ' (words given.toList))) ∧
      ((words given.toList).length ≠ 5 → refusal.field? = none) ∧
      ((words given.toList).length = 5 → ∃ before slot,
        IsLeftmostIllegible before slot given.toList ∧ refusal.field? = some slot.1.label ∧
          ∀ other : String, (words other.toList).length = 5 →
            before ++ [slot] <+: slots other.toList →
            ofText other =
              .error (.cron ⟨String.ofList (join ' ' (words other.toList)), refusal.fault⟩)) := by
  by_cases hblank : words given.toList = []
  · rw [ofText_of_blank hblank] at he
    refine ⟨_, (Except.error.inj he).symm, fun _ => ⟨rfl, rfl⟩, absurd hblank, fun _ => rfl, ?_⟩
    simp [hblank]
  · have hwords : ∀ {P : Prop}, words given.toList = [] → P := fun hw => absurd hw hblank
    by_cases hfive : (words given.toList).length = 5
    · rcases refused_for_leftmost h hfive he with ⟨before, slot, cause, hleft, hkind, hright⟩
      have hfield : cause.kind?.map (·.label) = some slot.1.label := by rw [hkind]; rfl
      rw [hright given hfive hleft.1] at he
      refine ⟨_, (Except.error.inj he).symm, hwords, fun _ => rfl, absurd hfive, fun _ => ?_⟩
      exact ⟨before, slot, hleft, hfield, hright⟩
    · rw [ofText_of_count hblank hfive] at he
      refine ⟨_, (Except.error.inj he).symm, hwords, fun _ => rfl, fun _ => rfl, ?_⟩
      intro hcount
      exact absurd hcount hfive

/-- The hour is at fault, though the month and the weekday are no better. -/
theorem refusals_name_leftmost_hour :
    let given := " 5 9-8\t7 1,,2 x"
    HasShortNumerals given.toList ∧ ∃ refusal, ofText given = .error (.cron refusal) ∧
      refusal.expression = "5 9-8 7 1,,2 x" ∧ refusal.field? = some "hour" ∧
        ∃ before slot, IsLeftmostIllegible before slot given.toList ∧
          refusal.field? = some slot.1.label ∧
          ∀ other : String, (words other.toList).length = 5 →
            before ++ [slot] <+: slots other.toList →
            ofText other =
              .error (.cron ⟨String.ofList (join ' ' (words other.toList)), refusal.fault⟩) := by
  intro given
  have hshort : HasShortNumerals given.toList := .of_length (by decide)
  have he : ofText given = .error (.cron ⟨"5 9-8 7 1,,2 x", .reversed .hour "9-8"⟩) := by decide
  rcases refusals_name_leftmost hshort he with ⟨refusal, hrefusal, -, -, -, hleft⟩
  obtain rfl := Error.cron.inj hrefusal
  exact ⟨hshort, _, he, rfl, rfl, hleft (by decide)⟩

end Expression

end Almanac.Cron

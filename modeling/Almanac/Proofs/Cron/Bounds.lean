import Almanac.Proofs.Cron.Acceptance
import Mathlib.Order.Interval.Set.Basic

/-!
# Bounds of the accepted fields

A field that is read allows numbers within its bounds only, and almost always allows some: an item
whose numbers are in bounds covers the one it starts from. The exception is a weekday item that
starts from seven and goes on in steps. Seven is accepted as a name of Sunday, but it lies past the
last weekday that steps reach, so that the item covers nothing, not even Sunday.
-/

namespace Almanac.Cron

open Almanac.Text

variable {kind : FieldKind}

theorem progression_eq_empty_iff {first step last : Nat} : progression first step last = ∅ ↔
    last < first := by
  rw [Set.eq_empty_iff_forall_notMem]
  constructor
  · intro h
    by_contra hle
    have hfirst : first ∈ progression first step last := ⟨Nat.le_of_not_lt hle, 0, by simp⟩
    exact h first hfirst
  · intro h n hn
    rcases hn with ⟨hl, k, rfl⟩
    omega

/-! ## Items -/

namespace Item

def IsPastSaturday (item : Item) : Prop := ∃ step, item = .onward 7 step

/-- Valid items cover something, apart from a weekday past the one that steps stop at. -/
theorem meaning_eq_empty_iff {item : Item} (h : item.IsValid kind) :
    item.meaning kind = ∅ ↔ kind = .dayOfWeek ∧ item.IsPastSaturday := by
  cases item with
  | single n => simp [meaning, IsPastSaturday]
  | span a b =>
      have hab : a ≤ b := h.2.1
      simp [meaning, Set.Icc_eq_empty_iff, IsPastSaturday, hab]
  | stepped step =>
      have hlow : kind.low ≤ kind.stepHigh := by cases kind <;> decide
      simp [meaning, progression_eq_empty_iff, IsPastSaturday, hlow]
  | onward n step =>
      have hhigh := h.1.2
      have hpast : (onward n step).IsPastSaturday ↔ n = 7 := by simp [IsPastSaturday]
      rw [hpast, meaning, progression_eq_empty_iff]
      cases kind <;> simp only [FieldKind.stepHigh, FieldKind.high] at hhigh ⊢ <;> simp <;> omega
  | spanStepped a b step =>
      have hab : a ≤ b := h.1.2.1
      simp [meaning, progression_eq_empty_iff, IsPastSaturday, hab]

/-- The text of such an item: a numeral of seven before a slash. -/
def StepsFromSeven (part : List Char) : Prop :=
  ∃ numeral rest, part = numeral ++ '/' :: rest ∧ IsNumeral numeral 7

theorem before_slash {before numeral last rest : List Char} (hb : '/' ∉ before) (hn : '/' ∉ numeral)
    (h : before ++ '/' :: last = numeral ++ '/' :: rest) : before = numeral := by
  have hfirst := (cut_eq_some_iff '/' (before ++ '/' :: last) before last).2 ⟨rfl, hb⟩
  have hsecond := (cut_eq_some_iff '/' (before ++ '/' :: last) numeral rest).2 ⟨h, hn⟩
  exact (Prod.mk.inj (Option.some.inj (hfirst.symm.trans hsecond))).1

theorem HasText.stepsFromSeven_iff {item : Item} {part : List Char} (h : item.HasText part) :
    StepsFromSeven part ↔ item.IsPastSaturday := by
  constructor
  · intro hs
    rcases hs with ⟨numeral, rest, hp, hseven⟩
    have hn := hseven.not_mem_slash
    have hmem : '/' ∈ part := by simp [hp]
    cases h with
    | single hs => exact absurd hmem hs.not_mem_slash
    | span ha hb => simp [ha.not_mem_slash, hb.not_mem_slash] at hmem
    | stepped hs =>
        have heq := @before_slash ['*'] numeral _ rest (by decide) hn hp
        have hstar : '*' ∉ numeral := hseven.not_mem_asterisk
        simp [← heq] at hstar
    | @onward text last n step ht hs =>
        have heq := before_slash ht.not_mem_slash hn hp
        rw [heq] at ht
        refine ⟨step, ?_⟩
        rw [← ht.2.2, hseven.2.2]
    | @spanStepped before after last a b step ha hb hs =>
        have hnot : '/' ∉ before ++ '-' :: after := by simp [ha.not_mem_slash, hb.not_mem_slash]
        have heq := before_slash hnot hn hp
        have hmark : '-' ∉ numeral := hseven.not_mem_dash
        simp [← heq] at hmark
  · intro hpast
    rcases hpast with ⟨step, rfl⟩
    cases h with
    | onward hn hs => exact ⟨_, _, rfl, hn⟩

end Item

/-! ## Fields -/

namespace Pattern

variable {pattern : Pattern} {text : List Char}

/-- Every item of the field starts from seven and goes on in steps, as in `7/2,07/3`. -/
def AlwaysPastSaturday (text : List Char) : Prop :=
  ∀ part ∈ pieces (· == ',') text, Item.StepsFromSeven part

theorem not_alwaysPastSaturday_asterisk : ¬ AlwaysPastSaturday ['*'] := by
  intro h
  obtain ⟨numeral, rest, hp, -⟩ := h ['*'] (by decide)
  have hmem : '/' ∈ ['*'] := by simp [hp]
  contradiction

theorem forall_stepsFromSeven_iff {items : List Item} {parts : List (List Char)}
    (h : List.Forall₂ Item.HasText items parts) :
    (∀ part ∈ parts, Item.StepsFromSeven part) ↔ ∀ item ∈ items, item.IsPastSaturday := by
  induction h with
  | nil => simp
  | cons hhead _ ih => rw [List.forall_mem_cons, List.forall_mem_cons, hhead.stepsFromSeven_iff, ih]

theorem numbers_eq_empty_iff (h : pattern.Reads kind text) :
    pattern.numbers kind = ∅ ↔ kind = .dayOfWeek ∧ AlwaysPastSaturday text := by
  cases h.1 with
  | any =>
      have hle : kind.low ≤ kind.high := by cases kind <;> decide
      simp [numbers, Set.Icc_eq_empty_iff, hle, not_alwaysPastSaturday_asterisk]
  | @list items parts hf =>
      have hvalid := h.2.2
      have hset : (list items).numbers kind = ∅ ↔ ∀ item ∈ items, item.meaning kind = ∅ := by
        simp only [numbers, Set.eq_empty_iff_forall_notMem, Set.mem_ofPred_eq, not_exists, not_and]
        exact ⟨fun h item hi n => h n item hi, fun h n item hi => h item hi n⟩
      rw [hset, AlwaysPastSaturday, pieces_of_forall₂ h.2.1 hf, forall_stepsFromSeven_iff hf]
      constructor
      · intro hempty
        have hpast : ∀ item ∈ items, kind = .dayOfWeek ∧ item.IsPastSaturday :=
          fun item hi => (Item.meaning_eq_empty_iff (hvalid item hi)).1 (hempty item hi)
        obtain ⟨item, hi⟩ := List.exists_mem_of_ne_nil items h.2.1
        exact ⟨(hpast item hi).1, fun item hi => (hpast item hi).2⟩
      · intro hpast item hi
        exact (Item.meaning_eq_empty_iff (hvalid item hi)).2 ⟨hpast.1, hpast.2 item hi⟩

theorem meaning_eq_empty_iff : pattern.meaning kind = ∅ ↔ pattern.numbers kind = ∅ := by
  unfold meaning
  split
  · exact Set.image_eq_empty
  · rfl

/-- A field allows no number exactly if it is one of weekdays and always starts past the last of
them. -/
theorem values_eq_nil_iff (h : pattern.Reads kind text) :
    (pattern.field kind).values = [] ↔ kind = .dayOfWeek ∧ AlwaysPastSaturday text := by
  rw [← numbers_eq_empty_iff h, ← meaning_eq_empty_iff, List.eq_nil_iff_forall_not_mem,
    Set.eq_empty_iff_forall_notMem]
  exact forall_congr' fun n => not_congr (mem_values_iff h.2)

theorem bounds_of_mem_numbers (h : pattern.IsValid kind) {n : Nat} (hn : n ∈ pattern.numbers kind) :
    kind.low ≤ n ∧ n ≤ kind.high := by
  cases pattern with
  | any => exact hn
  | list items =>
      obtain ⟨item, hi, hn⟩ := hn
      exact Item.bounds_of_mem_meaning (h.2 item hi) hn

theorem bounds_of_mem_values (h : pattern.IsValid kind) {n : Nat}
    (hn : n ∈ (pattern.field kind).values) :
    kind.low ≤ n ∧ n ≤ kind.stepHigh := by
  rw [mem_values_iff h, meaning] at hn
  cases kind with
  | dayOfWeek =>
      obtain ⟨m, hm, rfl⟩ := hn
      have hhigh : m ≤ 7 := (bounds_of_mem_numbers h hm).2
      simp only [FieldKind.low, FieldKind.stepHigh, weekday]
      split <;> omega
  | _ => exact bounds_of_mem_numbers h hn

end Pattern

/-! ## Expressions -/

namespace Expression

def wordOf (minute hour dayOfMonth month dayOfWeek : List Char) : FieldKind → List Char
  | .minute => minute
  | .hour => hour
  | .dayOfMonth => dayOfMonth
  | .month => month
  | .dayOfWeek => dayOfWeek

theorem exists_words {given : String} {expression : Expression}
    (h : ofText given = .ok expression) :
    ∃ word : FieldKind → List Char, words given.toList = FieldKind.inOrder.map word ∧
      ∀ kind, field kind (word kind) = .ok (expression.fieldOf kind) := by
  obtain ⟨minute, hour, dayOfMonth, month, dayOfWeek, hw, ho⟩ := ofText_eq_ok_iff.1 h
  obtain ⟨-, hm, hh, hd, hn, hk⟩ := ofWords_eq_ok_iff.1 ho
  refine ⟨wordOf minute hour dayOfMonth month dayOfWeek, hw, ?_⟩
  intro kind
  cases kind with
  | minute => exact hm
  | hour => exact hh
  | dayOfMonth => exact hd
  | month => exact hn
  | dayOfWeek => exact hk

theorem values_eq_nil_iff_of_field {word : List Char} {found : Field}
    (h : field kind word = .ok found) :
    found.values = [] ↔ kind = .dayOfWeek ∧ Pattern.AlwaysPastSaturday word := by
  obtain ⟨pattern, hp, rfl⟩ := map_eq_ok_iff.1 h
  exact Pattern.values_eq_nil_iff (Reader.reads_of_pattern hp)

theorem exists_value_of_ofText {given : String} {expression : Expression}
    (h : ofText given = .ok expression)
    (hk : kind ≠ .dayOfWeek) : ∃ n, n ∈ (expression.fieldOf kind).values := by
  obtain ⟨word, -, hfield⟩ := exists_words h
  apply List.exists_mem_of_ne_nil
  rw [Ne, values_eq_nil_iff_of_field (hfield kind)]
  exact fun hnil => hk hnil.1

theorem bounds_of_ofText {given : String} {expression : Expression}
    (h : ofText given = .ok expression) {n : Nat}
    (hn : n ∈ (expression.fieldOf kind).values) : kind.low ≤ n ∧ n ≤ kind.stepHigh := by
  obtain ⟨word, -, hfield⟩ := exists_words h
  obtain ⟨pattern, hp, hf⟩ := map_eq_ok_iff.1 (hfield kind)
  rw [← hf] at hn
  exact Pattern.bounds_of_mem_values (Reader.reads_of_pattern hp).2 hn

theorem mem_values_of_asterisk {found : Field} (h : field kind ['*'] = .ok found) {n : Nat}
    (hn : kind.low ≤ n ∧ n ≤ kind.stepHigh) : n ∈ found.values := by
  obtain rfl := Except.ok.inj h
  have hnumber : n ∈ Pattern.any.numbers kind := ⟨hn.1, Nat.le_trans hn.2 (Item.stepHigh_le kind)⟩
  have hvalid : Pattern.any.IsValid kind := trivial
  rw [Pattern.mem_values_iff hvalid, Pattern.meaning]
  by_cases hk : kind = .dayOfWeek
  · subst hk
    have hne : n ≠ 7 := by
      have hsix : n ≤ 6 := hn.2
      omega
    rw [if_pos rfl]
    exact ⟨n, hnumber, if_neg hne⟩
  · rw [if_neg hk]
    exact hnumber

end Expression

end Almanac.Cron

import Almanac.Proofs.Cron.Bounds
import Almanac.Proofs.Text.Figures

/-!
# Fields that are a number or a step

The simplest fields are a single number and the asterisk with a step. Such a field is read if its
figures are ASCII digits, not too many of them, and their number is in bounds or positive. A field
with one number allows it alone. Whatever is read, a field has no characters but digits and four
marks.
-/

namespace Almanac.Cron

open Almanac.Text

variable {kind : FieldKind} {text last : List Char}

theorem IsReadable.natural? {n : Nat} (h : IsReadable text n) : Text.natural? text = some n := by
  rw [natural?_of_isNumeral h.1, if_pos h.2]

/-! ## Reading -/

namespace Reader

/-- Figures have no marks, so that they are read as one number or not at all. -/
theorem pattern_of_figures (h : isFigures text = true) :
    pattern kind text = (bounded kind text).map fun n => .list [.single n] := by
  have hcomma : ∀ c ∈ text, (c == ',') = false := by
    intro c hc
    have hne : c ≠ ',' := fun he =>
      not_mem_of_isFigures h (show isFigure ',' = false by decide) (he ▸ hc)
    simpa using hne
  have hslash := not_mem_of_isFigures h (show isFigure '/' = false by decide)
  have hdash := not_mem_of_isFigures h (show isFigure '-' = false by decide)
  rw [pattern, if_neg (ne_asterisk_of_isFigures h), pieces_of_unbroken text hcomma, items, item,
    if_neg (isFigures_iff.1 h).1, (cut_eq_none_iff _ _).2 hslash]
  show (plainItem kind text >>= _).map _ = _
  rw [plainItem, (cut_eq_none_iff _ _).2 hdash]
  cases bounded kind text <;> rfl

theorem pattern_of_step (h : isFigures last = true) :
    pattern kind ('*' :: '/' :: last) = (positive kind last).map fun step =>
      .list [.stepped step] := by
  have hmem := not_mem_of_isFigures h (show isFigure ',' = false by decide)
  have hcomma : ∀ c ∈ '*' :: '/' :: last, (c == ',') = false := by
    intro c hc
    have hne : c ≠ ',' := by
      rintro rfl
      simp [hmem] at hc
    simpa using hne
  have hcut : cut '/' ('*' :: '/' :: last) = some (['*'], last) := by simp [cut]
  rw [pattern, if_neg (by simp), pieces_of_unbroken _ hcomma, items, item, if_neg (by simp), hcut]
  show (steppedItem kind ['*'] last >>= _).map _ = _
  rw [steppedItem]
  cases positive kind last <;> rfl

end Reader

/-! ## Values -/

namespace Pattern

theorem mem_values_single_iff {n m : Nat} (h : kind.low ≤ n ∧ n ≤ kind.high) :
    m ∈ ((list [.single n]).field kind).values ↔
      m = if kind = .dayOfWeek then weekday n else n := by
  have hvalid : (list [.single n]).IsValid kind := ⟨by simp, by simpa [Item.IsValid] using h⟩
  have hnumbers : (list [.single n]).numbers kind = {n} := by
    ext k
    simp [numbers, Item.meaning]
  rw [mem_values_iff hvalid, meaning, hnumbers]
  split
  · rw [Set.image_singleton, Set.mem_singleton_iff]
  · rw [Set.mem_singleton_iff]

theorem mem_values_stepped_iff {step m : Nat} (hk : kind ≠ .dayOfWeek) (h : 1 ≤ step) :
    m ∈ ((list [.stepped step]).field kind).values ↔
      m ∈ progression kind.low step kind.stepHigh := by
  have hvalid : (list [.stepped step]).IsValid kind := ⟨by simp, by simpa [Item.IsValid] using h⟩
  rw [mem_values_iff hvalid, meaning, if_neg hk]
  simp [numbers, Item.meaning]

end Pattern

/-! ## Characters -/

def marks : List Char := ['*', ',', '-', '/']

theorem Item.HasText.mem_marks {item : Item} (h : item.HasText text) {c : Char} (hc : c ∈ text)
    (hd : c.isDigit = false) : c ∈ marks := by
  have hnot : ∀ {part : List Char} {n : Nat}, IsNumeral part n → c ∉ part := fun hn => hn.not_mem hd
  cases h with
  | single hn => exact absurd hc (hnot hn)
  | span ha hb =>
      simp only [List.mem_append, List.mem_cons, hnot ha, hnot hb, false_or, or_false] at hc
      simp [marks, hc]
  | stepped hs =>
      simp only [List.mem_cons, hnot hs, or_false] at hc
      rcases hc with rfl | rfl <;> simp [marks]
  | onward hn hs =>
      simp only [List.mem_append, List.mem_cons, hnot hn, hnot hs, false_or, or_false] at hc
      simp [marks, hc]
  | spanStepped ha hb hs =>
      simp only [List.mem_append, List.mem_cons, hnot ha, hnot hb, hnot hs, false_or,
        or_false] at hc
      rcases hc with rfl | rfl <;> simp [marks]

theorem Pattern.HasText.mem_marks {pattern : Pattern} (h : pattern.HasText text) {c : Char}
    (hc : c ∈ text) (hd : c.isDigit = false) : c ∈ marks := by
  cases h with
  | any =>
      rw [List.mem_singleton.1 hc]
      decide
  | list hf =>
      rcases mem_join hc with rfl | ⟨part, hp, hc⟩
      · decide
      · obtain ⟨item, ht⟩ := exists_item_of_mem hf part hp
        exact ht.mem_marks hc hd

namespace Expression

variable {word : List Char} {found : Field}

theorem field_of_figures (hf : isFigures word = true) (h : field kind word = .ok found) :
    ∃ n, IsReadable word n ∧ n ≤ kind.high ∧
      ∀ m, m ∈ found.values ↔ m = if kind = .dayOfWeek then Pattern.weekday n else n := by
  obtain ⟨pattern, hp, rfl⟩ := map_eq_ok_iff.1 h
  rw [Reader.pattern_of_figures hf] at hp
  obtain ⟨n, hn, rfl⟩ := map_eq_ok_iff.1 hp
  obtain ⟨hr, hb⟩ := Reader.bounded_eq_ok_iff.1 hn
  exact ⟨n, hr, hb.2, fun m => Pattern.mem_values_single_iff hb⟩

theorem field_of_step (hf : isFigures last = true) (hk : kind ≠ .dayOfWeek)
    (h : field kind ('*' :: '/' :: last) = .ok found) :
    ∃ step, IsReadable last step ∧ 1 ≤ step ∧
      ∀ m, m ∈ found.values ↔ m ∈ progression kind.low step kind.stepHigh := by
  obtain ⟨pattern, hp, rfl⟩ := map_eq_ok_iff.1 h
  rw [Reader.pattern_of_step hf] at hp
  obtain ⟨step, hs, rfl⟩ := map_eq_ok_iff.1 hp
  obtain ⟨hr, hpos⟩ := Reader.positive_eq_ok_iff.1 hs
  exact ⟨step, hr, hpos, fun m => Pattern.mem_values_stepped_iff hk hpos⟩

theorem exists_field_of_readable {n : Nat} (h : IsReadable word n)
    (hb : kind.low ≤ n ∧ n ≤ kind.high) :
    ∃ found, field kind word = .ok found := by
  rw [field, Reader.pattern_of_figures h.1.isFigures, Reader.bounded_eq_ok_iff.2 ⟨h, hb⟩]
  exact ⟨_, rfl⟩

theorem exists_field_of_readable_step {step : Nat} (h : IsReadable last step) (hs : 1 ≤ step) :
    ∃ found, field kind ('*' :: '/' :: last) = .ok found := by
  rw [field, Reader.pattern_of_step h.1.isFigures, Reader.positive_eq_ok_iff.2 ⟨h, hs⟩]
  exact ⟨_, rfl⟩

theorem mem_marks_of_field (h : field kind word = .ok found) {c : Char} (hc : c ∈ word)
    (hd : c.isDigit = false) :
    c ∈ marks := by
  obtain ⟨pattern, hp, rfl⟩ := map_eq_ok_iff.1 h
  exact (Reader.reads_of_pattern hp).1.mem_marks hc hd

theorem exists_of_fields {given : String} {minute hour dayOfMonth month dayOfWeek : List Char}
    (hw : words given.toList = [minute, hour, dayOfMonth, month, dayOfWeek])
    (hminute : ∃ found, field .minute minute = .ok found)
    (hhour : ∃ found, field .hour hour = .ok found)
    (hday : ∃ found, field .dayOfMonth dayOfMonth = .ok found)
    (hmonth : ∃ found, field .month month = .ok found)
    (hweekday : ∃ found, field .dayOfWeek dayOfWeek = .ok found) :
    ∃ expression, ofText given = .ok expression := by
  obtain ⟨m, hm⟩ := hminute
  obtain ⟨o, ho⟩ := hhour
  obtain ⟨d, hd⟩ := hday
  obtain ⟨n, hn⟩ := hmonth
  obtain ⟨k, hk⟩ := hweekday
  exact ⟨⟨String.ofList (normalized given.toList), m, o, d, n, k⟩,
    ofText_eq_ok_iff.2 ⟨_, _, _, _, _, hw, ofWords_eq_ok_iff.2 ⟨rfl, hm, ho, hd, hn, hk⟩⟩⟩

end Expression

end Almanac.Cron

import Almanac.Text.Numeral

/-!
# Parts of a text

Whatever a text is cut into, each part stands in it without a gap. So a bound on the runs of digits
of a text holds for all parts of it, and it is the only one that reading a number needs.
-/

namespace Almanac.Text

/-- No run of digits in the text is too long to be read. -/
def HasShortNumerals (text : List Char) : Prop :=
  ∀ run, run <:+: text → (∀ c ∈ run, c.isDigit = true) → run.length ≤ digitLimit

theorem HasShortNumerals.of_infix {part text : List Char} (h : HasShortNumerals text)
    (hp : part <:+: text) :
    HasShortNumerals part := by
  intro run hr hd
  apply h run _ hd
  exact hr.trans hp

theorem HasShortNumerals.before {before after : List Char} {mark : Char}
    (h : HasShortNumerals (before ++ mark :: after)) : HasShortNumerals before :=
  h.of_infix (List.prefix_append before (mark :: after)).isInfix

theorem HasShortNumerals.after {before after : List Char} {mark : Char}
    (h : HasShortNumerals (before ++ mark :: after)) : HasShortNumerals after := by
  apply h.of_infix
  exact ((List.suffix_cons mark after).trans (List.suffix_append before (mark :: after))).isInfix

theorem HasShortNumerals.of_length {text : List Char} (h : text.length ≤ digitLimit) :
    HasShortNumerals text := by
  intro run hr _
  exact Nat.le_trans hr.length_le h

/-! ## Pieces -/

theorem pieces_infix_cons (breaks : Char → Bool) (text : List Char) :
    ∃ head tail, pieces breaks text = head :: tail ∧ head <+: text ∧
      ∀ part ∈ tail, part <:+: text := by
  induction text with
  | nil => exact ⟨[], [], rfl, List.prefix_refl [], by simp⟩
  | cons c rest ih =>
      obtain ⟨head, tail, hp, hh, ht⟩ := ih
      have hrest : rest <:+: c :: rest := (List.suffix_cons c rest).isInfix
      by_cases hb : breaks c = true
      · refine ⟨[], head :: tail, by simp [pieces, hb, hp], List.nil_prefix, ?_⟩
        intro part hm
        rcases List.mem_cons.1 hm with rfl | hm
        · exact hh.isInfix.trans hrest
        · exact (ht part hm).trans hrest
      · refine ⟨c :: head, tail, by simp [pieces, hb, hp], List.cons_prefix_cons.2 ⟨rfl, hh⟩, ?_⟩
        intro part hm
        exact (ht part hm).trans hrest

theorem infix_of_mem_pieces {breaks : Char → Bool} {text part : List Char}
    (h : part ∈ pieces breaks text) :
    part <:+: text := by
  obtain ⟨head, tail, hp, hh, ht⟩ := pieces_infix_cons breaks text
  rw [hp] at h
  rcases List.mem_cons.1 h with rfl | h
  · exact hh.isInfix
  · exact ht part h

theorem infix_of_mem_words {text part : List Char} (h : part ∈ words text) : part <:+: text :=
  infix_of_mem_pieces (List.mem_filter.1 h).1

theorem not_isBlank_of_isDigit {c : Char} (h : c.isDigit = true) : isBlank c = false := by
  simp only [Char.isDigit, Bool.and_eq_true, decide_eq_true_eq] at h
  have hlow : 48 ≤ c.toNat := h.1
  have hhigh : c.toNat ≤ 57 := h.2
  simp only [isBlank, Ranges.holds, blankRanges, List.any_cons, List.any_nil, Bool.or_false,
    Bool.or_eq_false_iff, Bool.and_eq_false_iff, decide_eq_false_iff_not]
  omega

theorem words_append {part : List Char} (hne : part ≠ []) (hb : ∀ c ∈ part, isBlank c = false)
    (rest : List Char) :
    words (part ++ ' ' :: rest) = part :: words rest := by
  rw [words, pieces_append_break isBlank_space part rest hb,
    List.filter_cons_of_pos (by simpa using hne)]
  rfl

theorem join_pieces (mark : Char) (text : List Char) :
    join mark (pieces (· == mark) text) = text := by
  induction text with
  | nil => rfl
  | cons c rest ih =>
      obtain ⟨head, tail, hp⟩ := List.exists_cons_of_ne_nil (pieces_ne_nil (· == mark) rest)
      rw [hp] at ih
      by_cases hc : c = mark
      · have hcons : pieces (· == mark) (c :: rest) = [] :: head :: tail := by simp [pieces, hc, hp]
        rw [hcons, join, ih, hc]
        · rfl
        · simp
      · have hcons : pieces (· == mark) (c :: rest) = (c :: head) :: tail := by
          simp [pieces, hc, hp]
        rw [hcons, ← ih]
        cases tail with
        | nil => rfl
        | cons next tail => rfl

theorem mem_join {mark c : Char} {parts : List (List Char)} (h : c ∈ join mark parts) :
    c = mark ∨ ∃ part ∈ parts, c ∈ part := by
  induction parts with
  | nil => simp [join] at h
  | cons part rest ih =>
      cases rest with
      | nil => exact .inr ⟨part, by simp, h⟩
      | cons next rest =>
          have hjoin : join mark (part :: next :: rest) =
              part ++ mark :: join mark (next :: rest) := rfl
          rw [hjoin, List.mem_append, List.mem_cons] at h
          rcases h with hpart | hmark | hrest
          · exact .inr ⟨part, by simp, hpart⟩
          · exact .inl hmark
          · rcases ih hrest with hmark | ⟨found, hf, hc⟩
            · exact .inl hmark
            · exact .inr ⟨found, List.mem_cons_of_mem part hf, hc⟩

/-! ## Numerals -/

/-- The text writes `n` in ASCII digits, with leading zeros or without. -/
def IsNumeral (text : List Char) (n : Nat) : Prop :=
  text ≠ [] ∧ (∀ c ∈ text, c.isDigit = true) ∧ digitsValue text = n

namespace IsNumeral

variable {text : List Char} {n : Nat}

theorem isDigits (h : IsNumeral text n) : isDigits text = true := by
  obtain ⟨hne, hd, -⟩ := h
  simpa [Text.isDigits, hne] using hd

theorem not_mem (h : IsNumeral text n) {c : Char} (hc : c.isDigit = false) : c ∉ text := by
  intro hm
  have hd := h.2.1 c hm
  rw [hc] at hd
  contradiction

theorem not_mem_comma (h : IsNumeral text n) : ',' ∉ text := h.not_mem (by decide)

theorem not_mem_dash (h : IsNumeral text n) : '-' ∉ text := h.not_mem (by decide)

theorem not_mem_slash (h : IsNumeral text n) : '/' ∉ text := h.not_mem (by decide)

theorem not_mem_asterisk (h : IsNumeral text n) : '*' ∉ text := h.not_mem (by decide)

end IsNumeral

theorem isNumeral_of_isDigits {text : List Char} (h : isDigits text = true) :
    IsNumeral text (digitsValue text) := by
  simp only [isDigits, Bool.and_eq_true, Bool.not_eq_true', List.isEmpty_eq_false_iff,
    List.all_eq_true] at h
  exact ⟨h.1, h.2, rfl⟩

end Almanac.Text

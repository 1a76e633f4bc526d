import Mathlib.Algebra.Group.Nat.Defs
import Almanac.Proofs.Text.Parts

/-!
# Figures and numerals

Figures are more than ASCII digits, and not all of them write a number. A numeral is read the same
way whether any figures are accepted or ASCII digits only, as long as it is short enough to be read.
A number is known by what is written for it.
-/

namespace Almanac.Text

variable {text : List Char}

/-! ## Figures -/

theorem decimalValue?_of_isDigit {c : Char} (h : c.isDigit = true) :
    decimalValue? c = some (c.toNat - 48) := by
  simp only [Char.isDigit, Bool.and_eq_true, decide_eq_true_eq] at h
  have hlow : 48 ≤ c.toNat := h.1
  have hhigh : c.toNat ≤ 57 := h.2
  have hfirst : decimalZeros.find? (fun base => base ≤ c.toNat && c.toNat ≤ base + 9) =
      some 48 := by
    rw [decimalZeros, List.find?_cons_of_pos]
    simp [hlow, hhigh]
  rw [decimalValue?, hfirst]
  rfl

theorem isFigure_of_isDigit {c : Char} (h : c.isDigit = true) : isFigure c = true := by
  rw [isFigure, decimalValue?_of_isDigit h]
  rfl

theorem isFigures_iff : isFigures text = true ↔ text ≠ [] ∧ ∀ c ∈ text, isFigure c = true := by
  simp [isFigures]

theorem not_mem_of_isFigures (h : isFigures text = true) {c : Char} (hc : isFigure c = false) :
    c ∉ text := by
  intro hm
  rw [(isFigures_iff.1 h).2 c hm] at hc
  contradiction

theorem ne_asterisk_of_isFigures (h : isFigures text = true) : text ≠ ['*'] := by
  have hasterisk := not_mem_of_isFigures h (show isFigure '*' = false by decide)
  rintro rfl
  simp at hasterisk

theorem isFigures_of_isDigits (h : isDigits text = true) : isFigures text = true := by
  obtain ⟨hne, hd, -⟩ := isNumeral_of_isDigits h
  exact isFigures_iff.2 ⟨hne, fun c hc => isFigure_of_isDigit (hd c hc)⟩

theorem IsNumeral.isFigures {n : Nat} (h : IsNumeral text n) : isFigures text = true :=
  isFigures_of_isDigits h.isDigits

/-! ## Reading figures -/

theorem digitRun?_of_digits (hne : text ≠ []) (h : ∀ c ∈ text, c.isDigit = true) :
    digitRun? text = some (text.map fun c => c.toNat - 48) := by
  fun_induction digitRun? text with
  | case1 => contradiction
  | case2 c => simp [decimalValue?_of_isDigit (h c (by simp))]
  | case3 c rest ih =>
      -- an underscore is no digit
      have hmark := h '_' (by simp)
      contradiction
  | case4 c rest hr hu ih =>
      have hc := decimalValue?_of_isDigit (h c (by simp))
      have hrest := ih (fun he => hr he) (fun d hd => h d (by simp [hd]))
      rw [hc, hrest]
      rfl

theorem natural?_of_isNumeral {n : Nat} (h : IsNumeral text n) :
    natural? text = if text.length ≤ digitLimit then some n else none := by
  rw [natural?, digitRun?_of_digits h.1 h.2.1, ← h.2.2]
  show (if (text.map _).length ≤ digitLimit then some (positional _) else none) = _
  rw [List.length_map]
  rfl

/-! ## Writing numbers -/

theorem toDigits_inj {m n : Nat} (h : Nat.toDigits 10 m = Nat.toDigits 10 n) : m = n := by
  rw [← @Nat.ofDigitChars_ten_toDigits m, ← @Nat.ofDigitChars_ten_toDigits n]
  exact congrArg (Nat.ofDigitChars 10 · 0) h

theorem isDigit_of_mem_toDigits {n : Nat} {c : Char} (h : c ∈ Nat.toDigits 10 n) :
    c.isDigit = true :=
  Nat.isDigit_of_mem_toDigits (by decide) (by decide) h

theorem toDigits_append_ne {n : Nat} {c : Char} (hc : c.isDigit = false) (rest text : List Char) :
    Nat.toDigits 10 n ++ rest ≠ c :: text := by
  intro h
  obtain ⟨head, tail, hd⟩ := List.exists_cons_of_ne_nil (@Nat.toDigits_ne_nil n 10)
  have hdigit : head.isDigit = true := @isDigit_of_mem_toDigits n head (by simp [hd])
  rw [hd] at h
  rw [(List.cons.inj h).1, hc] at hdigit
  contradiction

theorem padded_two {n : Nat} (h : n < 100) : padded 2 n = fixed 2 n := by
  revert n
  decide

theorem foldl_positional (digits : List Nat) (value : Nat) :
    digits.foldl (fun value digit => 10 * value + digit) value =
      value * 10 ^ digits.length + positional digits := by
  induction digits generalizing value with
  | nil => simp [positional]
  | cons digit rest ih =>
      have hfirst := ih (10 * 0 + digit)
      rw [positional, List.foldl_cons, List.foldl_cons, ih, hfirst, List.length_cons, Nat.pow_succ]
      grind

theorem digitsValue_cons (c : Char) (text : List Char) :
    digitsValue (c :: text) = (c.toNat - 48) * 10 ^ text.length + digitsValue text := by
  rw [digitsValue, positional, List.map_cons, List.foldl_cons, foldl_positional, List.length_map,
    Nat.mul_zero, Nat.zero_add, digitsValue]

theorem toNat_digitChar {d : Nat} (h : d < 10) : (digitChar d).toNat = 48 + d := by
  revert d
  decide

/-- The last digits of a number write what is left of it without the digits before them. -/
theorem digitsValue_fixed (width n : Nat) : digitsValue (fixed width n) = n % 10 ^ width := by
  induction width with
  | zero => simp [fixed, digitsValue, positional, Nat.mod_one]
  | succ width ih =>
      have hdigit : n / 10 ^ width % 10 < 10 := Nat.mod_lt _ (by decide)
      rw [fixed, digitsValue_cons, fixed_length, ih, Nat.pow_eq, toNat_digitChar hdigit,
        Nat.add_sub_cancel_left, Nat.mod_pow_succ, Nat.mul_comm, Nat.add_comm]

theorem fixed_inj {width m n : Nat} (hm : m < 10 ^ width) (hn : n < 10 ^ width)
    (h : fixed width m = fixed width n) :
    m = n := by
  have hvalue := congrArg digitsValue h
  rwa [digitsValue_fixed, digitsValue_fixed, Nat.mod_eq_of_lt hm, Nat.mod_eq_of_lt hn] at hvalue

end Almanac.Text

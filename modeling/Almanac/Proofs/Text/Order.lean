import Almanac.Proofs.Text.Figures

/-!
# The order of texts

Texts compare by their first difference. So parts of equal length decide before what follows them,
and numbers that are written with a fixed number of digits compare as their texts do.
-/

namespace Almanac.Text

/-- Parts of equal length decide the order, and only equal ones leave it to what follows. -/
theorem append_lt_append_iff {α : Type} [LT α] {a b s t : List α} (h : a.length = b.length) :
    a ++ s < b ++ t ↔ a < b ∨ a = b ∧ s < t := by
  induction a generalizing b with
  | nil =>
      rw [List.eq_nil_of_length_eq_zero h.symm]
      simp [List.not_lt_nil]
  | cons c a ih =>
      cases b with
      | nil => contradiction
      | cons d b =>
          simp only [List.cons_append, List.cons_lt_cons_iff, ih (Nat.succ.inj h), List.cons.injEq,
            and_or_left, and_assoc, or_assoc]

/-! ## Digits -/

section Digits

variable {d e : Nat}

theorem digitChar_lt_iff (hd : d < 10) (he : e < 10) : digitChar d < digitChar e ↔ d < e := by
  rw [Char.lt_def, UInt32.lt_iff_toNat_lt, Char.toNat_val, Char.toNat_val, toNat_digitChar hd,
    toNat_digitChar he]
  omega

theorem digitChar_inj (hd : d < 10) (he : e < 10) : digitChar d = digitChar e ↔ d = e := by
  rw [← Char.toNat_inj, toNat_digitChar hd, toNat_digitChar he]
  omega

theorem isDigit_digitChar (h : d < 10) : (digitChar d).isDigit = true := by
  have hzero : '0'.toNat = 48 := rfl
  have hnine : '9'.toNat = 57 := rfl
  rw [Char.isDigit_iff_toNat, toNat_digitChar h]
  omega

theorem add_mul_lt_add_mul_iff {size m n : Nat} (hm : m < size) (hn : n < size) :
    m + size * d < n + size * e ↔ d < e ∨ d = e ∧ m < n := by
  have hblock : ∀ {i j : Nat}, i < j → size * i + size ≤ size * j :=
    fun h => Nat.mul_le_mul_left size h
  rcases Nat.lt_trichotomy d e with h | h | h
  · have hlater := hblock h
    omega
  · subst h
    omega
  · have hlater := hblock h
    omega

end Digits

/-! ## Fixed numbers of digits -/

section Fixed

variable {width m n : Nat} {s t : List Char}

theorem fixed_lt_fixed_iff_mod (width m n : Nat) :
    fixed width m < fixed width n ↔ m % 10 ^ width < n % 10 ^ width := by
  induction width with
  | zero => simp [fixed, Nat.mod_one]
  | succ width ih =>
      have hpos : 0 < 10 ^ width := Nat.pow_pos (by decide)
      have hm : m / 10 ^ width % 10 < 10 := Nat.mod_lt _ (by decide)
      have hn : n / 10 ^ width % 10 < 10 := Nat.mod_lt _ (by decide)
      rw [fixed, fixed, List.cons_lt_cons_iff, Nat.pow_eq, digitChar_lt_iff hm hn,
        digitChar_inj hm hn, ih, Nat.mod_pow_succ, Nat.mod_pow_succ,
        add_mul_lt_add_mul_iff (Nat.mod_lt m hpos) (Nat.mod_lt n hpos)]

theorem fixed_lt_fixed_iff (hm : m < 10 ^ width) (hn : n < 10 ^ width) :
    fixed width m < fixed width n ↔ m < n := by
  rw [fixed_lt_fixed_iff_mod, Nat.mod_eq_of_lt hm, Nat.mod_eq_of_lt hn]

theorem fixed_append_lt_iff (hm : m < 10 ^ width) (hn : n < 10 ^ width) :
    fixed width m ++ s < fixed width n ++ t ↔ m < n ∨ m = n ∧ s < t := by
  have hlength : (fixed width m).length = (fixed width n).length := by
    rw [fixed_length, fixed_length]
  have hequal : fixed width m = fixed width n ↔ m = n := ⟨fixed_inj hm hn, congrArg (fixed width)⟩
  rw [append_lt_append_iff hlength, fixed_lt_fixed_iff hm hn, hequal]

theorem isDigit_of_mem_fixed {c : Char} (h : c ∈ fixed width n) : c.isDigit = true := by
  induction width with
  | zero => simp [fixed] at h
  | succ width ih =>
      rcases List.mem_cons.1 h with rfl | hrest
      · exact isDigit_digitChar (Nat.mod_lt _ (by decide))
      · exact ih hrest

theorem isNumeral_fixed (hw : 0 < width) (hn : n < 10 ^ width) : IsNumeral (fixed width n) n := by
  refine ⟨List.ne_nil_of_length_pos (by rwa [fixed_length]), fun c => isDigit_of_mem_fixed, ?_⟩
  rw [digitsValue_fixed, Nat.mod_eq_of_lt hn]

end Fixed

end Almanac.Text

import Mathlib.Data.Set.Image
import Mathlib.Order.Interval.Set.Defs
import Almanac.Cron.Expression
import Almanac.Proofs.Cron.Grammar

/-!
# What cron fields mean

An item stands for a set of numbers, and a list for the union of its items. On the field of weekdays
seven is Sunday, which is zero. The numbers that a field allows are those of its pattern, in
ascending order.
-/

namespace Almanac.Cron

def progression (first step last : Nat) : Set Nat := {n | n ≤ last ∧ ∃ k, n = first + k * step}

namespace Item

def meaning (kind : FieldKind) : Item → Set Nat
  | .single n => {n}
  | .span a b => Set.Icc a b
  | .stepped step => progression kind.low step kind.stepHigh
  | .onward n step => progression n step kind.stepHigh
  | .spanStepped a b step => progression a step b

theorem reaches_iff {first last step n : Nat} : reaches first last step n = true ↔
    n ∈ progression first step last := by
  simp only [reaches, progression, Bool.and_eq_true, decide_eq_true_eq, beq_iff_eq,
    Set.mem_ofPred_eq]
  constructor
  · intro h
    rcases h with ⟨⟨hf, hl⟩, hm⟩
    rcases Nat.dvd_of_mod_eq_zero hm with ⟨k, hk⟩
    refine ⟨hl, k, ?_⟩
    rw [Nat.mul_comm, ← hk]
    omega
  · intro h
    rcases h with ⟨hl, k, rfl⟩
    refine ⟨⟨Nat.le_add_right first _, hl⟩, ?_⟩
    rw [Nat.add_sub_cancel_left, Nat.mul_mod_left]

theorem covers_iff {kind : FieldKind} {item : Item} {n : Nat} :
    item.covers kind n = true ↔ n ∈ item.meaning kind := by
  cases item with
  | single m => simp [covers, meaning]
  | span a b => simp [covers, meaning]
  | stepped step => exact reaches_iff
  | onward m step => exact reaches_iff
  | spanStepped a b step => exact reaches_iff

theorem stepHigh_le (kind : FieldKind) : kind.stepHigh ≤ kind.high := by
  cases kind <;> decide

theorem bounds_of_mem_meaning {kind : FieldKind} {item : Item} (h : item.IsValid kind) {n : Nat}
    (hn : n ∈ item.meaning kind) : kind.low ≤ n ∧ n ≤ kind.high := by
  have hs := stepHigh_le kind
  cases item with
  | single m =>
      cases hn
      exact h
  | span a b =>
      obtain ⟨ha, hb⟩ := hn
      simp only [IsValid] at h
      omega
  | stepped step =>
      rcases hn with ⟨hl, k, rfl⟩
      exact ⟨Nat.le_add_right _ _, Nat.le_trans hl hs⟩
  | onward m step =>
      rcases hn with ⟨hl, k, rfl⟩
      exact ⟨Nat.le_trans h.1.1 (Nat.le_add_right _ _), Nat.le_trans hl hs⟩
  | spanStepped a b step =>
      rcases hn with ⟨hl, k, rfl⟩
      exact ⟨Nat.le_trans h.1.1 (Nat.le_add_right _ _), Nat.le_trans hl h.1.2.2⟩

end Item

namespace Pattern

def numbers (kind : FieldKind) : Pattern → Set Nat
  | .any => Set.Icc kind.low kind.high
  | .list items => {n | ∃ item ∈ items, n ∈ item.meaning kind}

def weekday (n : Nat) : Nat := if n = 7 then 0 else n

def meaning (kind : FieldKind) (pattern : Pattern) : Set Nat :=
  if kind = .dayOfWeek then Set.image weekday (pattern.numbers kind) else pattern.numbers kind

theorem mem_accepted_iff {kind : FieldKind} {n : Nat} :
    n ∈ accepted kind ↔ kind.low ≤ n ∧ n ≤ kind.high := by
  have hle : kind.low ≤ kind.high := by cases kind <;> decide
  rw [accepted, List.mem_range'_1]
  omega

theorem mem_covered_iff {kind : FieldKind} {pattern : Pattern} (h : pattern.IsValid kind)
    {n : Nat} :
    n ∈ pattern.covered kind ↔ n ∈ pattern.numbers kind := by
  cases pattern with
  | any => exact mem_accepted_iff
  | list items =>
      simp only [covered, numbers, List.mem_filter, List.any_eq_true, Item.covers_iff,
        mem_accepted_iff, Set.mem_ofPred_eq]
      constructor
      · intro h
        rcases h with ⟨-, hn⟩
        exact hn
      · intro hx
        rcases hx with ⟨item, hi, hn⟩
        exact ⟨Item.bounds_of_mem_meaning (h.2 item hi) hn, item, hi, hn⟩

theorem le_high_of_mem_covered {kind : FieldKind} {pattern : Pattern} {n : Nat}
    (h : n ∈ pattern.covered kind) :
    n ≤ kind.high := by
  cases pattern with
  | any => exact (mem_accepted_iff.1 h).2
  | list items => exact (mem_accepted_iff.1 (List.mem_filter.1 h).1).2

theorem mem_foldSunday_iff {values : List Nat} (h : ∀ m ∈ values, m ≤ 7) {n : Nat} :
    n ∈ foldSunday values ↔ ∃ m ∈ values, weekday m = n := by
  simp only [foldSunday, List.mem_filter, List.mem_range, Bool.or_eq_true, Bool.and_eq_true,
    List.contains_iff_mem, beq_iff_eq, weekday]
  constructor
  · intro h
    rcases h with ⟨hn, hm | ⟨rfl, h7⟩⟩
    · exact ⟨n, hm, if_neg (by omega)⟩
    · exact ⟨7, h7, rfl⟩
  · intro hx
    rcases hx with ⟨m, hm, rfl⟩
    have hle := h m hm
    by_cases h7 : m = 7
    · subst h7
      exact ⟨by decide, .inr ⟨rfl, hm⟩⟩
    · rw [if_neg h7]
      exact ⟨by omega, .inl hm⟩

theorem mem_values_iff {kind : FieldKind} {pattern : Pattern} (h : pattern.IsValid kind) {n : Nat} :
    n ∈ (pattern.field kind).values ↔ n ∈ pattern.meaning kind := by
  by_cases hk : kind = .dayOfWeek
  · have hle : ∀ m ∈ pattern.covered kind, m ≤ 7 := by
      intro m hm
      have hm := le_high_of_mem_covered hm
      rwa [hk] at hm
    simp only [field, meaning, if_pos hk, mem_foldSunday_iff hle, mem_covered_iff h, Set.mem_image]
  · simp only [field, meaning, if_neg hk, mem_covered_iff h]

theorem pairwise_covered (kind : FieldKind) (pattern : Pattern) :
    (pattern.covered kind).Pairwise (· < ·) := by
  have ha : (accepted kind).Pairwise (· < ·) := List.pairwise_lt_range'
  cases pattern with
  | any => exact ha
  | list items => exact ha.filter _

theorem pairwise_values (kind : FieldKind) (pattern : Pattern) :
    (pattern.field kind).values.Pairwise (· < ·) := by
  by_cases hk : kind = .dayOfWeek
  · simp only [field, if_pos hk]
    exact List.pairwise_lt_range.filter _
  · simp only [field, if_neg hk]
    exact pairwise_covered kind pattern

end Pattern

theorem Field.allows_iff {field : Field} {n : Nat} : field.allows n = true ↔ n ∈ field.values := by
  simp only [allows, List.any_eq_true, beq_iff_eq, Int.natCast_inj, exists_eq_right]

end Almanac.Cron

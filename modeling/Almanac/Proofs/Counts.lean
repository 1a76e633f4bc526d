import Mathlib
import Almanac.Count

/-!
# Sums of counts

Counts that are natural numbers are added as such, in any order.
-/

namespace Almanac

theorem sum_sum_comm {α β : Type} (f : α → β → Nat) (xs : List α) (ys : List β) :
    (xs.map fun x => (ys.map (f x)).sum).sum =
      (ys.map fun y => (xs.map fun x => f x y).sum).sum := by
  induction xs with
  | nil => simp
  | cons x xs ih =>
      simp only [List.map_cons, List.sum_cons, ih, List.sum_map_add]

theorem sum_le_sum_add_length {α : Type} {f g : α → Nat} {xs : List α}
    (h : ∀ x ∈ xs, f x ≤ g x + 1) :
    (xs.map f).sum ≤ (xs.map g).sum + xs.length := by
  have hsum : (xs.map f).sum ≤ (xs.map fun x => g x + 1).sum := List.sum_le_sum h
  rw [List.sum_map_add] at hsum
  simpa using hsum

namespace Count

theorem foldl_add_whole (ns : List Nat) (m : Nat) :
    (ns.map whole).foldl add (.whole m) = .whole (m + ns.sum) := by
  induction ns generalizing m with
  | nil => simp
  | cons n ns ih => simp [add, ih, Nat.add_assoc]

@[simp] theorem sum_whole (ns : List Nat) : sum (ns.map whole) = .whole ns.sum := by
  simp [sum, foldl_add_whole]

/-- Where counts are natural numbers or missing, the missing ones are as good as none. -/
theorem sum_filterMap {α : Type} {f : α → Option Count} {g : α → Nat} {xs : List α}
    (h : ∀ x ∈ xs, f x = some (.whole (g x)) ∨ f x = none ∧ g x = 0) :
    sum (xs.filterMap f) = .whole (xs.map g).sum := by
  suffices hs : ∃ ns : List Nat, xs.filterMap f = ns.map .whole ∧ ns.sum = (xs.map g).sum by
    obtain ⟨ns, hf, hg⟩ := hs
    rw [hf, sum_whole, hg]
  induction xs with
  | nil => exact ⟨[], rfl, rfl⟩
  | cons x xs ih =>
      rcases List.forall_mem_cons.1 h with ⟨hx, hrest⟩
      obtain ⟨ns, hf, hg⟩ := ih hrest
      rcases hx with hx | ⟨hx, hz⟩
      · exact ⟨g x :: ns, by rw [List.filterMap_cons_some hx, hf, List.map_cons], by simp [hg]⟩
      · exact ⟨ns, by rw [List.filterMap_cons_none hx, hf], by simp [hg, hz]⟩

end Count

end Almanac

import Almanac.Cached

/-!
# Coherent caches

A cache is coherent if every entry holds what its key reads as. Looking up a value in a coherent
cache gives what reading it anew would give, and leaves a coherent cache: whether an expression is
found, read, or makes another one give way cannot be seen from it.
-/

namespace Almanac.Cron

open Almanac.Text

namespace Expression

theorem words_keyOf (text : String) : words (Cache.keyOf text).toList = words text.toList := by
  simp [Cache.keyOf]

theorem normalized_keyOf (text : String) :
    normalized (Cache.keyOf text).toList = normalized text.toList := by
  rw [normalized, words_keyOf, normalized]

theorem ofText_keyOf {text : String} (h : words text.toList ≠ []) :
    ofText (Cache.keyOf text) = ofText text := by
  simp only [ofText, words_keyOf, normalized_keyOf]
  split
  · rename_i hw
    exact absurd hw h
  · rfl
  · rfl

theorem words_ne_nil_of_ofText {text : String} {expression : Expression}
    (h : ofText text = .ok expression) : words text.toList ≠ [] := by
  intro hw
  simp [ofText, hw] at h

theorem ofText_keyOf_eq_ok_iff {text : String} {expression : Expression} :
    ofText (Cache.keyOf text) = .ok expression ↔ ofText text = .ok expression := by
  constructor
  · intro h
    have hw := words_ne_nil_of_ofText h
    rw [words_keyOf] at hw
    rwa [ofText_keyOf hw] at h
  · intro h
    rwa [ofText_keyOf (words_ne_nil_of_ofText h)]

def ofKey : Value → Except Error Expression
  | .list _ => .error .notAKey
  | .record _ => .error .notAKey
  | value => ofValue value

end Expression

namespace Cache

theorem keyOf_keyOf (text : String) : keyOf (keyOf text) = keyOf text := by
  rw [keyOf, Expression.normalized_keyOf, keyOf]

/-- A key tells apart exactly the texts that have different words. -/
theorem keyOf_eq_keyOf_iff {text other : String} : keyOf text = keyOf other ↔
    words text.toList = words other.toList := by
  constructor
  · intro h
    rw [← Expression.words_keyOf, h, Expression.words_keyOf]
  · intro h
    rw [keyOf, keyOf, normalized, normalized, h]

variable {cache : Cache}

/-- Every entry holds the expression that its key writes. -/
def IsCoherent (cache : Cache) : Prop :=
  ∀ entry ∈ cache.entries, Expression.ofText entry.key = .ok entry.expression

theorem isCoherent_empty (capacity : Int) : (empty capacity).IsCoherent := by
  simp [IsCoherent, empty]

theorem isCoherent_clear (cache : Cache) : cache.clear.IsCoherent := by
  simp [IsCoherent, clear]

theorem isCoherent_touch (h : cache.IsCoherent) {entry : CacheEntry} (he : entry ∈ cache.entries) :
    (cache.touch entry).IsCoherent := by
  intro other ho
  simp only [touch, List.mem_append, List.mem_filter, List.mem_singleton] at ho
  rcases ho with ⟨ho, -⟩ | rfl
  · exact h other ho
  · exact h other he

theorem mem_entries_add {entry other : CacheEntry} (h : other ∈ (cache.add entry).entries) :
    other ∈ cache.entries ∨ other = entry := by
  simp only [add] at h
  split at h
  · exact .inl h
  · split at h
    · simpa using List.mem_of_mem_drop h
    · simpa using h

theorem isCoherent_add (h : cache.IsCoherent) {entry : CacheEntry}
    (he : Expression.ofText entry.key = .ok entry.expression) : (cache.add entry).IsCoherent := by
  intro other ho
  rcases mem_entries_add ho with ho | rfl
  · exact h other ho
  · exact he

theorem find?_spec {key : String} {entry : CacheEntry} (h : cache.find? key = some entry) :
    entry ∈ cache.entries ∧ entry.key = key :=
  ⟨List.mem_of_find?_eq_some h, by simpa using List.find?_some h⟩

theorem getText_spec (h : cache.IsCoherent) (text : String) :
    (cache.getText text).1.map (·.entry.expression) = Expression.ofText text ∧
      (cache.getText text).2.IsCoherent := by
  unfold getText
  cases hf : cache.find? (keyOf text) with
  | some entry =>
      rcases find?_spec hf with ⟨hm, hk⟩
      have hr := h entry hm
      rw [hk] at hr
      exact ⟨(Expression.ofText_keyOf_eq_ok_iff.1 hr).symm, isCoherent_touch h hm⟩
  | none =>
      cases hr : Expression.ofText text with
      | ok expression => exact ⟨rfl, isCoherent_add h (Expression.ofText_keyOf_eq_ok_iff.2 hr)⟩
      | error error => exact ⟨rfl, h⟩

theorem get_spec (h : cache.IsCoherent) (value : Value) :
    (cache.get value).1.map (·.entry.expression) = Expression.ofKey value ∧
      (cache.get value).2.IsCoherent := by
  cases value with
  | text text => exact getText_spec h text
  | _ => exact ⟨rfl, h⟩

end Cache

end Almanac.Cron

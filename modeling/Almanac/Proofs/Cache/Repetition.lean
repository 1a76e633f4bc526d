import Almanac.Proofs.Cache.Effects
import Almanac.Proofs.Cache.Recency

/-!
# Asking for a text once more

An expression that was just asked for is the newest in a cache that has room for one. Asking for it
again finds it there and changes nothing, so that a loop which looks up one text does so with effect
only once. A cache without room reads the text each time.
-/

namespace Almanac

open Almanac.Cron

namespace Cron.Cache

variable {cache : Cache} {entry : CacheEntry} {text : String} {expression : Expression}

/-! ## The newest entry -/

def IsNewest (cache : Cache) (entry : CacheEntry) : Prop :=
  ∃ older, cache.entries = older ++ [entry] ∧ ∀ other ∈ older, other.key ≠ entry.key

theorem isNewest_touch (cache : Cache) (entry : CacheEntry) : (cache.touch entry).IsNewest entry :=
  ⟨cache.entries.filter (·.key != entry.key), rfl, by simp⟩

theorem isNewest_add (hroom : 0 < cache.capacity) (hn : cache.find? entry.key = none) :
    (cache.add entry).IsNewest entry := by
  have hkeys : ∀ other ∈ cache.entries, other.key ≠ entry.key := by simpa [find?] using hn
  simp only [add, if_neg (Int.not_le.2 hroom)]
  by_cases hfull : cache.capacity < (cache.entries ++ [entry]).length
  · -- the entry that gives way is an older one, since the cache has room for one
    have hpos : 1 ≤ cache.entries.length := by
      rw [List.length_append, List.length_singleton] at hfull
      omega
    refine ⟨cache.entries.drop 1, ?_, fun other ho => hkeys other (List.mem_of_mem_drop ho)⟩
    simp only [if_pos hfull, List.drop_append_of_le_length hpos]
  · exact ⟨cache.entries, if_neg hfull, hkeys⟩

theorem IsNewest.find?_eq (h : cache.IsNewest entry) : cache.find? entry.key = some entry := by
  have ⟨older, he, hkeys⟩ := h
  have hnone : older.find? (·.key == entry.key) = none := by simpa using hkeys
  rw [find?, he, List.find?_append, hnone, Option.none_or, List.find?_cons_of_pos (by simp)]

theorem IsNewest.touch_eq (h : cache.IsNewest entry) : cache.touch entry = cache := by
  have ⟨older, he, hkeys⟩ := h
  have hall : older.filter (·.key != entry.key) = older :=
    List.filter_eq_self.2 (by simpa using hkeys)
  rw [touch, he, List.filter_append, hall, List.filter_cons_of_neg (by simp), List.filter_nil,
    List.append_nil, ← he]

theorem IsNewest.get_eq (h : cache.IsNewest entry) (hk : entry.key = keyOf text) :
    cache.get (.text text) = (.ok ⟨entry, false⟩, cache) := by
  show cache.getText text = _
  rw [getText, ← hk, h.find?_eq]
  exact congrArg _ h.touch_eq

/-! ## What an accepted text gives -/

theorem get_of_accepted (hc : cache.IsCoherent) (hx : Expression.ofText text = .ok expression) :
    ∃ entry, entry.key = keyOf text ∧ entry.expression = expression ∧
      (keyOf text ∈ cache.keys ∧ cache.get (.text text) = (.ok ⟨entry, false⟩, cache.touch entry) ∨
        cache.find? (keyOf text) = none ∧
        cache.get (.text text) = (.ok ⟨entry, true⟩, cache.add entry)) := by
  have hget : cache.get (.text text) = cache.getText text := rfl
  rw [hget, getText]
  cases hf : cache.find? (keyOf text) with
  | some entry =>
      rcases find?_spec hf with ⟨hm, hk⟩
      have hread := hc entry hm
      rw [hk, Expression.ofText_keyOf_eq_ok_iff, hx] at hread
      exact ⟨entry, hk, (Except.ok.inj hread).symm, .inl ⟨hk ▸ List.mem_map_of_mem hm, rfl⟩⟩
  | none =>
      rw [hx]
      exact ⟨_, rfl, rfl, .inr ⟨rfl, rfl⟩⟩

theorem exists_isNewest_get (hroom : 0 < cache.capacity) (hc : cache.IsCoherent)
    (hx : Expression.ofText text = .ok expression) :
    ∃ entry, entry.key = keyOf text ∧ (cache.get (.text text)).2.IsNewest entry := by
  have ⟨entry, hk, _, hget⟩ := get_of_accepted hc hx
  rcases hget with ⟨-, hget⟩ | ⟨hn, hget⟩
  · exact ⟨entry, hk, by rw [hget]; exact isNewest_touch cache entry⟩
  · exact ⟨entry, hk, by rw [hget]; exact isNewest_add hroom (hk ▸ hn)⟩

theorem Tracks.entries_eq_nil {past : List String} (h : cache.Tracks past)
    (hn : cache.capacity = 0) :
    cache.entries = [] := by
  have hle := h.length_keys_le
  rw [keys, List.length_map, hn] at hle
  exact List.length_eq_zero_iff.1 (Nat.le_zero.1 hle)

end Cron.Cache

/-! ## Look-ups as computations -/

namespace Cached

variable {cache : Cache} {value : Value} {text : String} {expression : Expression}

theorem expression_of_ok {found : Lookup} {later : Cache}
    (h : cache.get value = (.ok found, later)) :
    Cached.expression value cache =
      ⟨.ok found.entry.expression, later,
        if found.isFresh then [.parsed found.entry.expression.text] else []⟩ := by
  rw [Cached.expression, h]

theorem expression_of_error {error : Error} {later : Cache}
    (h : cache.get value = (.error error, later)) :
    Cached.expression value cache = ⟨.error error, later, []⟩ := by
  rw [Cached.expression, h]

theorem cache_expression (value : Value) (cache : Cache) :
    (Cached.expression value cache).cache = (cache.get value).2 := by
  cases h : cache.get value with
  | mk result later =>
      cases result with
      | ok found => rw [expression_of_ok h]
      | error error => rw [expression_of_error h]

theorem expression_of_accepted (hc : cache.IsCoherent)
    (hx : Expression.ofText text = .ok expression) :
    Cached.expression (.text text) cache = ⟨.ok expression, (cache.get (.text text)).2,
      if Cache.keyOf text ∈ cache.keys then [] else [.parsed (Cache.keyOf text)]⟩ := by
  have ⟨entry, _, he, hget⟩ := Cache.get_of_accepted hc hx
  rcases hget with ⟨hm, hget⟩ | ⟨hn, hget⟩
  · rw [expression_of_ok hget, hget, if_pos hm, he]
    rfl
  · rw [expression_of_ok hget, hget, if_neg (Cache.find?_eq_none_iff.1 hn), he,
      Expression.text_of_ofText hx]
    rfl

theorem isSilent_expression_of_refused (hc : cache.IsCoherent) {error : Error}
    (h : Expression.ofKey value = .error error) :
    (Cached.expression value).IsSilent cache := by
  have hresult := (Cache.get_spec hc value).1
  rw [h] at hresult
  cases hget : cache.get value with
  | mk result later =>
      cases result with
      | ok found =>
          rw [hget] at hresult
          contradiction
      | error found =>
          have hsame : (cache.get value).2 = cache := Cache.get_of_error (congrArg Prod.fst hget)
          rw [hget] at hsame
          change later = cache at hsame
          exact ⟨by rw [expression_of_error hget, hsame], by rw [expression_of_error hget]⟩

/-- Where there is room for one expression, asking for it again has no effects. -/
theorem isSilent_expression_after_get (hroom : 0 < cache.capacity) (hc : cache.IsCoherent)
    (hx : Expression.ofText text = .ok expression) :
    (Cached.expression (.text text)).IsSilent (cache.get (.text text)).2 := by
  have ⟨entry, hk, hnewest⟩ := Cache.exists_isNewest_get hroom hc hx
  constructor
  · rw [cache_expression, hnewest.get_eq hk]
  · rw [expression_of_ok (hnewest.get_eq hk)]
    rfl

/-! ## Loops that look up one text -/

section Loops

variable {α β : Type} {act : α → Cached β} {items : List α}

/-- With room for the expression, a loop leaves what one look-up leaves. -/
theorem forEach_of_room
    (hact : ∀ item ∈ items, ∃ f : Expression → β, act item = f <$> Cached.expression (.text text))
    (hne : items ≠ []) (hroom : 0 < cache.capacity) (hc : cache.IsCoherent)
    (hx : Expression.ofText text = .ok expression) :
    (forEach act items cache).cache = (cache.get (.text text)).2 ∧
      (forEach act items cache).log =
        if Cache.keyOf text ∈ cache.keys then [] else [.parsed (Cache.keyOf text)] := by
  apply forEach_of_silent hne
  · intro item hi
    have ⟨f, hf⟩ := hact item hi
    rw [hf, map_apply, expression_of_accepted hc hx]
    exact ⟨f expression, rfl⟩
  · intro item hi
    have ⟨f, hf⟩ := hact item hi
    rw [hf]
    exact (isSilent_expression_after_get hroom hc hx).map f

theorem forEach_of_no_room
    (hact : ∀ item ∈ items, ∃ f : Expression → β, act item = f <$> Cached.expression (.text text))
    (hn : cache.capacity = 0) {past : List String} (ht : cache.Tracks past)
    (hx : Expression.ofText text = .ok expression) :
    (forEach act items cache).cache.entries = [] ∧
      (forEach act items cache).log = List.replicate items.length (.parsed (Cache.keyOf text)) := by
  -- a cache that tracks requests without room for any holds nothing, and each step leaves such a
  -- cache
  have hstep : ∀ item ∈ items, ∀ cache : Cache, (cache.capacity = 0 ∧ ∃ past, cache.Tracks past) →
      ∃ value later, act item cache = ⟨.ok value, later, [.parsed (Cache.keyOf text)]⟩ ∧
        later.capacity = 0 ∧ ∃ past, later.Tracks past := by
    rintro item hi cache ⟨hn, past, ht⟩
    obtain ⟨f, hf⟩ := hact item hi
    have hkey : Cache.keyOf text ∉ cache.keys := by simp [Cache.keys, ht.entries_eq_nil hn]
    refine ⟨f expression, (cache.get (.text text)).2, ?_, ?_, _, ht.getText text⟩
    · rw [hf, map_apply, expression_of_accepted ht.coherent hx, if_neg hkey]
      rfl
    · rw [← hn]
      exact Cache.capacity_apply cache (.get (.text text))
  obtain ⟨⟨hcapacity, _, htracks⟩, hlog⟩ := forEach_of_record hstep ⟨hn, past, ht⟩
  exact ⟨htracks.entries_eq_nil hcapacity, hlog⟩

end Loops

end Cached

end Almanac

import Mathlib.Data.List.Dedup
import Mathlib.Data.List.DropRight
import Almanac.Proofs.Cache.Coherence
import Almanac.Proofs.Cron.Acceptance

/-!
# The cache keeps what was asked for last

After any requests a cache holds the distinct texts that were asked for most recently, as many as
its capacity admits, in the order of their last requests. What is kept is defined on the history of
requests alone (`recent`); one operation changes the cache as it changes the history
(`Tracks.apply`), so any number of operations do.
-/

namespace Almanac.Cron

open Almanac.Text

/-! ## Recent items -/

section Items

variable {α : Type} [DecidableEq α] {limit : Nat} {items : List α} {item : α}

/-- The distinct items, each where it occurs last, and of these the last `limit`. -/
def recent (limit : Nat) (items : List α) : List α := items.dedup.rtake limit

theorem length_recent_le (limit : Nat) (items : List α) : (recent limit items).length ≤ limit := by
  simp only [recent, List.rtake, List.length_drop]
  omega

theorem nodup_recent (limit : Nat) (items : List α) : (recent limit items).Nodup :=
  (List.drop_sublist _ _).nodup (List.nodup_dedup items)

/-- All distinct items are recent, or as many as the limit admits are. -/
theorem exists_dedup_eq_append_recent (limit : Nat) (items : List α) :
    ∃ older, items.dedup = older ++ recent limit items ∧
      (older = [] ∨ (recent limit items).length = limit) := by
  refine ⟨items.dedup.rdrop limit, (List.take_append_drop _ _).symm, ?_⟩
  simp only [recent, List.rtake, List.rdrop, List.length_drop, List.take_eq_nil_iff]
  omega

/-- What is recent is found at the end of the distinct items, if the end is long enough. -/
theorem recent_of_dedup {older newest : List α} (h : items.dedup = older ++ newest)
    (hfull : older = [] ∨ limit ≤ newest.length) : recent limit items = newest.rtake limit := by
  rcases hfull with rfl | hfull
  · rw [recent, h, List.nil_append]
  · have hlength : (older ++ newest).length - limit = older.length + (newest.length - limit) := by
      rw [List.length_append]
      omega
    rw [recent, h, List.rtake, hlength, List.drop_length_add_append, List.rtake]

theorem dedup_concat (items : List α) (item : α) :
    (items ++ [item]).dedup = items.dedup.filter (· != item) ++ [item] := by
  induction items with
  | nil => simp
  | cons head rest ih =>
      by_cases hr : head ∈ rest
      · rw [List.dedup_cons_of_mem hr, ← ih]
        exact List.dedup_cons_of_mem (List.mem_append_left [item] hr)
      · rw [List.dedup_cons_of_notMem hr]
        by_cases hi : head = item
        · have hm : head ∈ rest ++ [item] := by simp [hi]
          rw [List.cons_append, List.dedup_cons_of_mem hm, ih,
            List.filter_cons_of_neg (by simp [hi])]
        · have hm : head ∉ rest ++ [item] := by simp [hr, hi]
          rw [List.cons_append, List.dedup_cons_of_notMem hm, ih,
            List.filter_cons_of_pos (by simp [hi])]
          rfl

/-- A recent item that occurs again moves to the end, and all others stay. -/
theorem recent_concat_of_mem (h : item ∈ recent limit items) :
    recent limit (items ++ [item]) = (recent limit items).filter (· != item) ++ [item] := by
  obtain ⟨older, ho, hfull⟩ := exists_dedup_eq_append_recent limit items
  have hdedup : (items ++ [item]).dedup =
      older.filter (· != item) ++ ((recent limit items).filter (· != item) ++ [item]) := by
    rw [dedup_concat, ho, List.filter_append, List.append_assoc]
  have hlength : ((recent limit items).filter (· != item) ++ [item]).length =
      (recent limit items).length := by
    have hpos : 0 < (recent limit items).length := List.length_pos_of_mem h
    rw [← (nodup_recent limit items).erase_eq_filter, List.length_append,
      List.length_erase_of_mem h, List.length_singleton]
    omega
  have hle := length_recent_le limit items
  rw [recent_of_dedup hdedup, List.rtake, hlength, Nat.sub_eq_zero_of_le hle, List.drop_zero]
  rcases hfull with rfl | hfull
  · exact .inl rfl
  · exact .inr (by omega)

/-- Any other item is added at the end, and the first gives way if there are too many. -/
theorem recent_concat_of_not_mem (h : item ∉ recent limit items) :
    recent limit (items ++ [item]) = (recent limit items ++ [item]).rtake limit := by
  obtain ⟨older, ho, hfull⟩ := exists_dedup_eq_append_recent limit items
  have hkept : (recent limit items).filter (· != item) = recent limit items := by
    apply List.filter_eq_self.2
    intro other hother
    simpa using fun he : other = item => h (he ▸ hother)
  have hdedup : (items ++ [item]).dedup = older.filter (· != item) ++
      (recent limit items ++ [item]) := by
    rw [dedup_concat, ho, List.filter_append, hkept, List.append_assoc]
  apply recent_of_dedup hdedup
  rcases hfull with rfl | hfull
  · exact .inl rfl
  · rw [List.length_append]
    exact .inr (by omega)

theorem exists_last_occurrence (h : item ∈ items) :
    ∃ before since, items = before ++ item :: since ∧ item ∉ since := by
  induction items with
  | nil => simp at h
  | cons head rest ih =>
      by_cases hr : item ∈ rest
      · obtain ⟨before, since, rfl, hs⟩ := ih hr
        exact ⟨head :: before, since, rfl, hs⟩
      · rcases List.mem_cons.1 h with rfl | hm
        · exact ⟨[], rest, rfl, hr⟩
        · exact absurd hm hr

/-- An item is recent if it occurs and fewer distinct items than the limit occur after it. -/
theorem mem_recent_iff : item ∈ recent limit items ↔
    ∃ before since, items = before ++ item :: since ∧ item ∉ since ∧
      since.dedup.length < limit := by
  have hsplit : ∀ before since, item ∉ since →
      ∃ older, (before ++ item :: since).dedup = older ++ item :: since.dedup := by
    intro before since hs
    obtain ⟨older, ho⟩ := List.suffix_union_right before (item :: since).dedup
    exact ⟨older, by rw [List.dedup_append, ← ho, List.dedup_cons_of_notMem hs]⟩
  constructor
  · intro h
    have hmem : item ∈ items := List.mem_dedup.1 (List.mem_of_mem_drop h)
    obtain ⟨before, since, rfl, hs⟩ := exists_last_occurrence hmem
    refine ⟨before, since, rfl, hs, ?_⟩
    by_contra hge
    obtain ⟨older, ho⟩ := hsplit before since hs
    have hdedup : (before ++ item :: since).dedup = (older ++ [item]) ++ since.dedup := by
      simpa using ho
    rw [recent_of_dedup hdedup (.inr (Nat.le_of_not_lt hge))] at h
    exact hs (List.mem_dedup.1 (List.mem_of_mem_drop h))
  · intro h
    rcases h with ⟨before, since, rfl, hs, hlt⟩
    obtain ⟨older, ho⟩ := hsplit before since hs
    have hcount : (older ++ item :: since.dedup).length - limit ≤ older.length := by
      rw [List.length_append, List.length_cons]
      omega
    rw [recent, ho, List.rtake, List.drop_append_of_le_length hcount]
    simp

end Items

/-! ## Requests -/

namespace Cache

inductive Operation where
  | get (value : Value)
  | clear

def apply (cache : Cache) : Operation → Cache
  | .get value => (cache.get value).2
  | .clear => cache.clear

def run (cache : Cache) (operations : List Operation) : Cache := operations.foldl apply cache

def requestKey? : Value → Option String
  | .text text => (Expression.ofText text).toOption.map fun _ => keyOf text
  | _ => none

/-- The history of requests after an operation, where `past` is the history before it. -/
def remember (past : List String) : Operation → List String
  | .get value => past ++ (requestKey? value).toList
  | .clear => []

/-- The normalized texts of the successful requests since the cache was last cleared, in the order
of the requests. -/
def requested (operations : List Operation) : List String := operations.foldl remember []

theorem requestKey?_of_ok {text : String} {expression : Expression}
    (h : Expression.ofText text = .ok expression) :
    requestKey? (.text text) = some (keyOf text) := by
  simp [requestKey?, h, Except.toOption]

theorem requestKey?_of_error {text : String} {error : Error}
    (h : Expression.ofText text = .error error) :
    requestKey? (.text text) = none := by
  simp [requestKey?, h, Except.toOption]

/-! ## What an operation does to the keys -/

variable {cache : Cache}

theorem find?_eq_none_iff {key : String} : cache.find? key = none ↔ key ∉ cache.keys := by
  simp [find?, keys]

theorem keys_touch (cache : Cache) (entry : CacheEntry) :
    (cache.touch entry).keys = cache.keys.filter (· != entry.key) ++ [entry.key] := by
  simp [touch, keys, List.filter_map, Function.comp_def]

theorem keys_add_eq_ite (cache : Cache) (entry : CacheEntry) :
    (cache.add entry).keys =
      if cache.capacity ≤ 0 then cache.keys
      else if cache.capacity < (cache.keys ++ [entry.key]).length then
        (cache.keys ++ [entry.key]).drop 1
      else cache.keys ++ [entry.key] := by
  simp only [add, keys, apply_ite (List.map CacheEntry.key), List.map_drop, List.map_append,
    List.map_cons, List.map_nil, List.length_append, List.length_map, List.length_singleton]

theorem keys_add (hle : cache.keys.length ≤ cache.capacity.toNat) (entry : CacheEntry) :
    (cache.add entry).keys = (cache.keys ++ [entry.key]).rtake cache.capacity.toNat := by
  have hlength : (cache.keys ++ [entry.key]).length = cache.keys.length + 1 := List.length_append
  rw [keys_add_eq_ite, List.rtake, hlength]
  split
  · rename_i hpos
    have hnil : cache.keys = [] := List.length_eq_zero_iff.1 (by omega)
    rw [hnil, Int.toNat_of_nonpos hpos]
    rfl
  · split
    · rename_i hfull
      rw [show cache.keys.length + 1 - cache.capacity.toNat = 1 by omega]
    · rename_i hroom
      rw [show cache.keys.length + 1 - cache.capacity.toNat = 0 by omega, List.drop_zero]

/-! ## Caches and histories -/

/-- The cache holds what is recent in the history of requests, and each of its entries is an object
of its own. -/
structure Tracks (cache : Cache) (past : List String) : Prop where
  keys_eq : cache.keys = recent cache.capacity.toNat past
  coherent : cache.IsCoherent
  normalized : ∀ key ∈ past, keyOf key = key
  reading_lt : ∀ entry ∈ cache.entries, entry.reading < cache.readings
  reading_inj : ∀ entry ∈ cache.entries, ∀ other ∈ cache.entries, entry.reading = other.reading →
    entry = other

theorem tracks_clear (cache : Cache) : cache.clear.Tracks [] where
  keys_eq := by simp [clear, keys, recent]
  coherent := isCoherent_clear cache
  normalized := by simp
  reading_lt := by simp [clear]
  reading_inj := by simp [clear]

theorem tracks_empty (capacity : Int) : (empty capacity).Tracks [] := tracks_clear (empty capacity)

namespace Tracks

variable {past : List String}

theorem length_keys_le (h : cache.Tracks past) : cache.keys.length ≤ cache.capacity.toNat := by
  rw [h.keys_eq]
  exact length_recent_le _ _

theorem touch (h : cache.Tracks past) {entry : CacheEntry} (he : entry ∈ cache.entries) :
    (cache.touch entry).Tracks (past ++ [entry.key]) := by
  have hkey : entry.key ∈ recent cache.capacity.toNat past := h.keys_eq ▸ List.mem_map_of_mem he
  have hpast : entry.key ∈ past := List.mem_dedup.1 (List.mem_of_mem_drop hkey)
  have hmem : ∀ other ∈ (cache.touch entry).entries, other ∈ cache.entries := by
    intro other ho
    rcases List.mem_append.1 ho with ho | ho
    · exact List.mem_of_mem_filter ho
    · exact List.mem_singleton.1 ho ▸ he
  constructor
  · rw [keys_touch, h.keys_eq]
    exact (recent_concat_of_mem hkey).symm
  · exact isCoherent_touch h.coherent he
  · intro key hk
    rcases List.mem_append.1 hk with hk | hk
    · exact h.normalized key hk
    · exact List.mem_singleton.1 hk ▸ h.normalized _ hpast
  · intro other ho
    exact h.reading_lt other (hmem other ho)
  · intro first hf second hs
    exact h.reading_inj first (hmem first hf) second (hmem second hs)

theorem add (h : cache.Tracks past) {text : String} {expression : Expression}
    (hx : Expression.ofText text = .ok expression) (hn : cache.find? (keyOf text) = none) :
    (cache.add ⟨keyOf text, expression, cache.readings⟩).Tracks (past ++ [keyOf text]) := by
  have hkey : keyOf text ∉ recent cache.capacity.toNat past := h.keys_eq ▸ find?_eq_none_iff.1 hn
  constructor
  · rw [keys_add h.length_keys_le, h.keys_eq]
    exact (recent_concat_of_not_mem hkey).symm
  · exact isCoherent_add h.coherent (Expression.ofText_keyOf_eq_ok_iff.2 hx)
  · intro key hk
    rcases List.mem_append.1 hk with hk | hk
    · exact h.normalized key hk
    · exact List.mem_singleton.1 hk ▸ keyOf_keyOf text
  · intro other ho
    show other.reading < cache.readings + 1
    rcases mem_entries_add ho with ho | rfl
    · exact Nat.lt_succ_of_lt (h.reading_lt other ho)
    · exact Nat.lt_succ_self _
  · intro first hf second hs heq
    -- the new entry's reading is above those of all others
    rcases mem_entries_add hf with hf | rfl <;> rcases mem_entries_add hs with hs | rfl
    · exact h.reading_inj first hf second hs heq
    · exact absurd heq (Nat.ne_of_lt (h.reading_lt first hf))
    · exact absurd heq.symm (Nat.ne_of_lt (h.reading_lt second hs))
    · rfl

theorem getText (h : cache.Tracks past) (text : String) :
    (cache.getText text).2.Tracks (past ++ (requestKey? (.text text)).toList) := by
  unfold Cache.getText
  cases hf : cache.find? (keyOf text) with
  | some entry =>
      rcases find?_spec hf with ⟨hm, hk⟩
      have hx := h.coherent entry hm
      rw [hk, Expression.ofText_keyOf_eq_ok_iff] at hx
      rw [requestKey?_of_ok hx, Option.toList_some, ← hk]
      exact h.touch hm
  | none =>
      cases hx : Expression.ofText text with
      | ok expression =>
          rw [requestKey?_of_ok hx]
          exact h.add hx hf
      | error error =>
          rw [requestKey?_of_error hx, Option.toList_none, List.append_nil]
          exact h

theorem apply (h : cache.Tracks past) (operation : Operation) :
    (cache.apply operation).Tracks (remember past operation) := by
  cases operation with
  | clear => exact tracks_clear cache
  | get value =>
      cases value with
      | text text => exact h.getText text
      | _ =>
          rw [remember, requestKey?, Option.toList_none, List.append_nil]
          · exact h
          · simp

theorem run (h : cache.Tracks past) (operations : List Operation) :
    (cache.run operations).Tracks (operations.foldl remember past) := by
  induction operations generalizing cache past with
  | nil => exact h
  | cons operation rest ih => exact ih (h.apply operation)

end Tracks

/-! ## What a look-up returns -/

/-- What asking for a text finds, where `past` is the history of requests: the expression that the
text writes, as an object of the cache exactly if the text was asked for and fewer other texts than
the capacity have been since. -/
structure Finds (cache : Cache) (past : List String) (text : String) (expression : Expression)
    (found : Lookup) : Prop where
  result_eq : (cache.get (.text text)).1 = .ok found
  key_eq : found.entry.key = keyOf text
  expression_eq : found.entry.expression = expression
  fresh_iff : found.isFresh = true ↔ found.entry ∉ cache.entries
  /-- An entry with the reading of the object that is returned is that object. -/
  eq_of_reading : ∀ entry ∈ cache.entries, entry.reading = found.entry.reading → entry = found.entry
  mem_iff : found.entry ∈ cache.entries ↔ ∃ before since, past = before ++ keyOf text :: since ∧
    keyOf text ∉ since ∧ since.dedup.length < cache.capacity.toNat

theorem Tracks.exists_finds {past : List String} (h : cache.Tracks past) {text : String}
    {expression : Expression} (hx : Expression.ofText text = .ok expression) :
    ∃ found, cache.Finds past text expression found := by
  have hkeys : keyOf text ∈ cache.keys ↔ ∃ before since, past = before ++ keyOf text :: since ∧
      keyOf text ∉ since ∧ since.dedup.length < cache.capacity.toNat := by
    rw [h.keys_eq]
    exact mem_recent_iff
  cases hf : cache.find? (keyOf text) with
  | some entry =>
      rcases find?_spec hf with ⟨hm, hk⟩
      have hread := h.coherent entry hm
      rw [hk, Expression.ofText_keyOf_eq_ok_iff, hx] at hread
      have hkey : keyOf text ∈ cache.keys := hk ▸ List.mem_map_of_mem hm
      refine ⟨⟨entry, false⟩, ?_, hk, (Except.ok.inj hread).symm, by simp [hm], ?_,
        (iff_of_true hm hkey).trans hkeys⟩
      · show (cache.getText text).1 = _
        rw [Cache.getText, hf]
      · intro other ho he
        exact h.reading_inj other ho entry hm he
  | none =>
      have hkey : keyOf text ∉ cache.keys := find?_eq_none_iff.1 hf
      have hnew : ∀ other ∈ cache.entries, other.reading ≠ cache.readings :=
        fun other ho => Nat.ne_of_lt (h.reading_lt other ho)
      have hmem : (⟨keyOf text, expression, cache.readings⟩ : CacheEntry) ∉ cache.entries :=
        fun hm => hnew _ hm rfl
      refine ⟨⟨⟨keyOf text, expression, cache.readings⟩, true⟩, ?_, rfl, rfl, by simp [hmem], ?_,
        (iff_of_false hmem hkey).trans hkeys⟩
      · show (cache.getText text).1 = _
        rw [Cache.getText, hf, hx]
      · intro other ho he
        exact absurd he (hnew other ho)

theorem get_of_error {value : Value} {error : Error} (h : (cache.get value).1 = .error error) :
    (cache.get value).2 = cache := by
  cases value with
  | text text =>
      change (cache.getText text).1 = _ at h
      show (cache.getText text).2 = cache
      unfold getText at h ⊢
      cases hf : cache.find? (keyOf text) with
      | some entry => simp [hf] at h
      | none =>
          cases hx : Expression.ofText text with
          | ok expression => simp [hf, hx] at h
          | error error => rfl
  | _ => rfl

theorem capacity_apply (cache : Cache) (operation : Operation) :
    (cache.apply operation).capacity = cache.capacity := by
  cases operation with
  | clear => rfl
  | get value =>
      cases value with
      | text text =>
          show (cache.getText text).2.capacity = _
          unfold getText
          split
          · rfl
          · split <;> rfl
      | _ => rfl

theorem capacity_run (cache : Cache) (operations : List Operation) :
    (cache.run operations).capacity = cache.capacity := by
  induction operations generalizing cache with
  | nil => rfl
  | cons operation rest ih =>
      exact (ih (cache.apply operation)).trans (capacity_apply cache operation)

theorem Tracks.text_eq_key {past : List String} (h : cache.Tracks past) {entry : CacheEntry}
    (he : entry ∈ cache.entries) : entry.expression.text = entry.key := by
  have hkey : entry.key ∈ recent cache.capacity.toNat past := h.keys_eq ▸ List.mem_map_of_mem he
  have hpast : entry.key ∈ past := List.mem_dedup.1 (List.mem_of_mem_drop hkey)
  rw [Expression.text_of_ofText (h.coherent entry he)]
  exact h.normalized entry.key hpast

/-- After any operations, the keys of a cache are the normalized texts that were asked for most
recently since it was cleared, as many as its capacity admits, and a text is found in it exactly if
it is one of them. A look-up that fails changes nothing. -/
theorem run_keeps_most_recent (capacity : Int) (operations : List Operation) :
    let cache := (empty capacity).run operations
    let past := requested operations
    cache.keys = recent capacity.toNat past ∧ cache.keys.Nodup ∧ cache.size ≤ capacity.toNat ∧
      (∀ entry ∈ cache.entries, entry.expression.text = entry.key) ∧
      (∀ value, (cache.get value).1.map (·.entry.expression) = Expression.ofKey value) ∧
      (∀ text expression, Expression.ofText text = .ok expression → ∃ found,
        cache.Finds past text expression found) ∧
      ∀ value error, (cache.get value).1 = .error error → (cache.get value).2 = cache := by
  intro cache past
  have htracks : cache.Tracks past := (tracks_empty capacity).run operations
  have hcapacity : cache.capacity = capacity := capacity_run (empty capacity) operations
  have hkeys : cache.keys = recent capacity.toNat past := hcapacity ▸ htracks.keys_eq
  refine ⟨hkeys, ?_, ?_, ?_, ?_, ?_, ?_⟩
  · rw [hkeys]
    exact nodup_recent _ _
  · have hsize : cache.size = cache.keys.length := (List.length_map _).symm
    rw [hsize, hkeys]
    exact length_recent_le _ _
  · intro entry he
    exact htracks.text_eq_key he
  · intro value
    exact (get_spec htracks.coherent value).1
  · intro text expression hx
    exact htracks.exists_finds hx
  · intro value error he
    exact get_of_error he

theorem run_keeps_most_recent_two :
    let operations : List Operation :=
      [.get (.text "1 * * * *"), .get (.text "2 * * * *"), .get (.text "1  * * * *"),
        .get (.text "61 * * * *"), .get (.text "3 * * * *")]
    let cache := (empty 2).run operations
    cache.keys = ["1 * * * *", "3 * * * *"] ∧
      (∃ expression found, cache.Finds (requested operations) "1 * * * *" expression found) ∧
      (cache.get (.text "61 * * * *")).2 = cache := by
  intro operations cache
  obtain ⟨hkeys, -, -, -, -, hfinds, hfails⟩ := run_keeps_most_recent 2 operations
  exact ⟨hkeys.trans rfl, ⟨_, hfinds "1 * * * *" _ rfl⟩, hfails _ _ rfl⟩

end Cache

end Almanac.Cron

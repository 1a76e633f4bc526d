import Almanac.Cached

/-!
# Effects of composed computations

What a composed computation does to the cache and the log is what its parts do, one after the other.
Of special interest are computations that do nothing to either, and loops of which every step does
the same.
-/

namespace Almanac.Cached

open Almanac.Cron

variable {α β : Type} {cache : Cache}

theorem andThen_of_ok {first : Cached α} {next : α → Cached β} {value : α}
    (h : (first cache).result = .ok value) :
    andThen first next cache = ⟨(next value (first cache).cache).result,
      (next value (first cache).cache).cache,
      (first cache).log ++ (next value (first cache).cache).log⟩ := by
  unfold andThen
  cases hf : first cache with
  | mk result later log =>
      rw [hf] at h
      subst h
      rfl

theorem andThen_of_error {first : Cached α} {next : α → Cached β} {error : Error}
    (h : (first cache).result = .error error) :
    andThen first next cache = ⟨.error error, (first cache).cache, (first cache).log⟩ := by
  unfold andThen
  cases hf : first cache with
  | mk result later log =>
      rw [hf] at h
      subst h
      rfl

theorem andThen_result_eq_ok_iff {first : Cached α} {next : α → Cached β} {value : β} :
    (andThen first next cache).result = .ok value ↔
      ∃ middle, (first cache).result = .ok middle ∧
        (next middle (first cache).cache).result = .ok value := by
  cases h : (first cache).result with
  | ok middle => simp [andThen_of_ok h]
  | error error => simp [andThen_of_error h]

theorem map_apply (f : α → β) (act : Cached α) (cache : Cache) :
    (f <$> act) cache = ⟨(act cache).result.map f, (act cache).cache, (act cache).log⟩ := by
  show andThen act (fun value => ofResult (.ok (f value))) cache = _
  cases hr : (act cache).result with
  | ok value =>
      rw [andThen_of_ok hr, ofResult_apply, List.append_nil]
      rfl
  | error error =>
      rw [andThen_of_error hr]
      rfl

theorem result_map (f : α → β) (act : Cached α) (cache : Cache) :
    ((f <$> act) cache).result = (act cache).result.map f := by
  rw [map_apply]

/-! ## Computations without effects -/

structure IsSilent (act : Cached α) (cache : Cache) : Prop where
  cache_eq : (act cache).cache = cache
  log_eq : (act cache).log = []

theorem isSilent_ofResult (result : Except Error α) (cache : Cache) :
    (ofResult result).IsSilent cache := ⟨rfl, rfl⟩

theorem isSilent_pure (value : α) (cache : Cache) : (pure value : Cached α).IsSilent cache :=
  ⟨rfl, rfl⟩

theorem IsSilent.bind {first : Cached α} {next : α → Cached β} (hf : first.IsSilent cache)
    (hn : ∀ value, (next value).IsSilent cache) : (first >>= next).IsSilent cache := by
  rw [bind_eq]
  cases hr : (first cache).result with
  | ok value =>
      have ⟨hcache, hlog⟩ := hn value
      constructor
      · rw [andThen_of_ok hr, hf.cache_eq, hcache]
      · rw [andThen_of_ok hr, hf.cache_eq, hf.log_eq, hlog, List.append_nil]
  | error error =>
      constructor
      · rw [andThen_of_error hr, hf.cache_eq]
      · rw [andThen_of_error hr, hf.log_eq]

theorem IsSilent.map {act : Cached α} (h : act.IsSilent cache) (f : α → β) :
    (f <$> act).IsSilent cache := by
  constructor
  · rw [map_apply, h.cache_eq]
  · rw [map_apply, h.log_eq]

theorem IsSilent.forEach {act : α → Cached β} {items : List α}
    (h : ∀ item ∈ items, (act item).IsSilent cache) :
    (forEach act items).IsSilent cache := by
  induction items with
  | nil => exact isSilent_ofResult _ cache
  | cons item rest ih =>
      have ⟨hitem, hrest⟩ := List.forall_mem_cons.1 h
      exact hitem.bind fun head => (ih hrest).map fun tail => head :: tail

/-! ## Loops -/

section Loops

variable {act : α → Cached β} {item : α} {items rest : List α} {value : β}

theorem forEach_singleton (act : α → Cached β) (item : α) :
    forEach act [item] = (fun value => [value]) <$> act item := by
  show andThen (act item) (fun head =>
      andThen (ofResult (.ok [])) fun tail => ofResult (.ok (head :: tail))) =
    andThen (act item) fun value => ofResult (.ok [value])
  simp only [andThen_ofResult_ok]

theorem forEach_congr_at {other : α} (h : act item = act other) (before after : List α) :
    forEach act (before ++ item :: after) = forEach act (before ++ other :: after) := by
  induction before with
  | nil => rw [List.nil_append, List.nil_append, forEach, forEach, h]
  | cons head rest ih => rw [List.cons_append, List.cons_append, forEach, forEach, ih]

theorem forEach_of_ok {f : α → β} (h : ∀ item ∈ items, act item = ofResult (.ok (f item))) :
    forEach act items = ofResult (.ok (items.map f)) := by
  induction items with
  | nil => rfl
  | cons item rest ih =>
      have hitem := h item List.mem_cons_self
      have hrest := ih fun other ho => h other (List.mem_cons_of_mem item ho)
      rw [forEach, hitem, hrest]
      simp only [andThen_ofResult_ok, List.map_cons]

theorem forEach_cons_of_ok (h : (act item cache).result = .ok value) :
    (forEach act (item :: rest) cache).cache = (forEach act rest (act item cache).cache).cache ∧
      (forEach act (item :: rest) cache).log =
        (act item cache).log ++ (forEach act rest (act item cache).cache).log := by
  have hloop : forEach act (item :: rest) =
      andThen (act item) fun head => (fun tail => head :: tail) <$> forEach act rest := rfl
  rw [hloop, andThen_of_ok h, map_apply]
  exact ⟨rfl, rfl⟩

/-- If no step does anything after the first, a loop does what its first step does. -/
theorem forEach_of_silent {later : Cache} {log : List LogEntry} (hne : items ≠ [])
    (hfirst : ∀ item ∈ items, ∃ value, act item cache = ⟨.ok value, later, log⟩)
    (hlater : ∀ item ∈ items, (act item).IsSilent later) :
    (forEach act items cache).cache = later ∧ (forEach act items cache).log = log := by
  cases items with
  | nil => exact absurd rfl hne
  | cons item rest =>
      have ⟨value, hitem⟩ := hfirst item List.mem_cons_self
      have ⟨hcache, hlog⟩ :=
        IsSilent.forEach fun other ho => hlater other (List.mem_cons_of_mem item ho)
      have ⟨hc, hl⟩ := @forEach_cons_of_ok α β cache act item rest value (by rw [hitem])
      rw [hc, hl, hitem]
      exact ⟨hcache, by rw [hlog, List.append_nil]⟩

/-- If every step leaves the same record, and the cache in a state in which it does, a loop leaves
that record once for each item. -/
theorem forEach_of_record {P : Cache → Prop} {entry : LogEntry}
    (h : ∀ item ∈ items, ∀ cache, P cache →
      ∃ value later, act item cache = ⟨.ok value, later, [entry]⟩ ∧ P later) (hc : P cache) :
    P (forEach act items cache).cache ∧
      (forEach act items cache).log = List.replicate items.length entry := by
  induction items generalizing cache with
  | nil => exact ⟨hc, rfl⟩
  | cons item rest ih =>
      have ⟨hitem, hrest⟩ := List.forall_mem_cons.1 h
      have ⟨value, later, heq, hlater⟩ := hitem cache hc
      have ⟨hcache, hlog⟩ := @forEach_cons_of_ok α β cache act item rest value (by rw [heq])
      have ⟨hkept, hrecords⟩ := ih hrest hlater
      rw [hcache, hlog, heq]
      exact ⟨hkept, by rw [hrecords]; rfl⟩

end Loops

end Almanac.Cached

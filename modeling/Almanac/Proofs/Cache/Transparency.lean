import Almanac.Proofs.Cache.Coherence

/-!
# Computations that the cache cannot influence

A computation yields a result if it gives that result on every coherent cache and leaves a coherent
one. Each combinator passes this on, so that what a composed computation yields is read off its
parts, with no cache in sight.
-/

namespace Almanac.Cached

open Almanac.Cron

variable {α β : Type}

def Yields (act : Cached α) (result : Except Error α) : Prop :=
  ∀ cache : Cache, cache.IsCoherent → (act cache).result = result ∧ (act cache).cache.IsCoherent

theorem yields_ofResult (result : Except Error α) : (ofResult result).Yields result :=
  fun _ h => ⟨rfl, h⟩

theorem yields_pure (value : α) : (pure value : Cached α).Yields (.ok value) :=
  yields_ofResult (.ok value)

theorem yields_record (entry : LogEntry) : (record entry).Yields (.ok ()) :=
  fun _ h => ⟨rfl, h⟩

theorem yields_clear : clear.Yields (.ok ()) :=
  fun cache _ => ⟨rfl, Cache.isCoherent_clear cache⟩

theorem yields_expression (value : Value) : (expression value).Yields (Expression.ofKey value) := by
  intro cache h
  obtain ⟨hr, hc⟩ := Cache.get_spec h value
  rw [← hr]
  unfold expression
  split
  · rename_i found later hg
    rw [hg] at hc
    rw [hg]
    exact ⟨rfl, hc⟩
  · rename_i error later hg
    rw [hg] at hc
    rw [hg]
    exact ⟨rfl, hc⟩

theorem Yields.bind {first : Cached α} {next : α → Cached β} {result : Except Error α}
    {results : α → Except Error β} (hf : first.Yields result)
    (hn : ∀ value, (next value).Yields (results value)) :
    (first >>= next).Yields (result >>= results) := by
  intro cache h
  obtain ⟨hr, hc⟩ := hf cache h
  rw [bind_eq]
  unfold andThen
  split
  · rename_i value later log ho
    simp only [ho] at hr hc
    rw [← hr]
    exact hn value later hc
  · rename_i error later log ho
    simp only [ho] at hr hc
    rw [← hr]
    exact ⟨rfl, hc⟩

theorem Yields.map {act : Cached α} {result : Except Error α} (h : act.Yields result) (f : α → β) :
    (f <$> act).Yields (result.map f) := by
  have hb : (act >>= fun value => pure (f value)).Yields (result >>= fun value => .ok (f value)) :=
    h.bind fun value => yields_pure (f value)
  cases result <;> exact hb

def caught : Except Error α → Except Error (Except ParseError α)
  | .ok value => .ok (.ok value)
  | .error (.cron error) => .ok (.error error)
  | .error error => .error error

theorem caught_eq_error_iff {result : Except Error α} {error : Error} :
    caught result = .error error ↔ result = .error error ∧ ∀ refusal, error ≠ .cron refusal := by
  constructor
  · intro h
    unfold caught at h
    split at h
    · contradiction
    · contradiction
    · rename_i hother
      rw [← Except.error.inj h]
      exact ⟨rfl, hother⟩
  · intro h
    rcases h with ⟨rfl, hother⟩
    cases error with
    | cron refusal => exact absurd rfl (hother refusal)
    | _ => rfl

theorem Yields.catchRefusal {act : Cached α} {result : Except Error α} (h : act.Yields result) :
    (catchRefusal act).Yields (caught result) := by
  intro cache hcache
  obtain ⟨hr, hc⟩ := h cache hcache
  unfold Cached.catchRefusal
  cases ho : act cache with
  | mk outcome later log =>
      simp only [ho] at hr hc
      subst hr
      cases outcome with
      | ok value => exact ⟨rfl, hc⟩
      | error error => cases error <;> exact ⟨rfl, hc⟩

theorem Yields.forEach {act : α → Cached β} {results : α → Except Error β}
    (h : ∀ item, (act item).Yields (results item)) (items : List α) :
    (forEach act items).Yields (items.mapM results) := by
  induction items with
  | nil => exact yields_pure []
  | cons item rest ih =>
      rw [List.mapM_cons]
      exact (h item).bind fun head => ih.bind fun tail => yields_pure (head :: tail)

end Almanac.Cached

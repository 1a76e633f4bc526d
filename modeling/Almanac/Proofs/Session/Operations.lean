import Almanac.Proofs.Cache.Repetition
import Almanac.Session

/-!
# Sessions change caches by cache operations

Whatever is asked of a session, it changes its cache by looking values up and by clearing it. What
cache operations preserve is thus true of the cache of every session: it is no larger than the
configuration says, and each expression in it is that of its key.
-/

namespace Almanac

open Almanac.Cron

namespace Cached

variable {α β : Type}

/-- The computation changes the cache by cache operations, whichever they are. -/
def Operates (act : Cached α) : Prop :=
  ∀ cache, ∃ operations, (act cache).cache = cache.run operations

theorem operates_ofResult (result : Except Error α) : (ofResult result).Operates :=
  fun _ => ⟨[], rfl⟩

theorem operates_pure (value : α) : (pure value : Cached α).Operates := fun _ => ⟨[], rfl⟩

theorem operates_record (entry : LogEntry) : (record entry).Operates := fun _ => ⟨[], rfl⟩

theorem operates_clear : clear.Operates := fun _ => ⟨[.clear], rfl⟩

theorem operates_expression (value : Value) : (Cached.expression value).Operates :=
  fun cache => ⟨[.get value], cache_expression value cache⟩

theorem Operates.bind {first : Cached α} {next : α → Cached β} (hf : first.Operates)
    (hn : ∀ value, (next value).Operates) : (first >>= next).Operates := by
  intro cache
  have ⟨operations, ho⟩ := hf cache
  rw [bind_eq]
  cases hr : (first cache).result with
  | ok value =>
      have ⟨others, hothers⟩ := hn value (first cache).cache
      refine ⟨operations ++ others, ?_⟩
      rw [andThen_of_ok hr, hothers, ho]
      exact List.foldl_append.symm
  | error error =>
      rw [andThen_of_error hr]
      exact ⟨operations, ho⟩

theorem Operates.map {act : Cached α} (h : act.Operates) (f : α → β) : (f <$> act).Operates := by
  intro cache
  rw [map_apply]
  exact h cache

theorem Operates.catchRefusal {act : Cached α} (h : act.Operates) :
    (catchRefusal act).Operates := by
  intro cache
  have hsame : (Cached.catchRefusal act cache).cache = (act cache).cache := by
    unfold Cached.catchRefusal
    split <;> simp [*]
  rw [hsame]
  exact h cache

theorem Operates.forEach {act : α → Cached β} (h : ∀ item, (act item).Operates) (items : List α) :
    (forEach act items).Operates := by
  induction items with
  | nil => exact operates_ofResult _
  | cons item rest ih => exact (h item).bind fun head => ih.map fun tail => head :: tail

end Cached

/-! ## Estimates, pages and requests -/

section Requests

open Cached

variable (config : Config) (job : Job)

theorem Estimator.operates_onDate (date : Date) : (onDate config job date).Operates := by
  unfold onDate
  cases job.schedule with
  | every period =>
      by_cases hp : period ≤ 0
      · simp only [hp, if_true]
        exact operates_pure _
      · simp only [hp, if_false]
        exact (operates_ofResult _).bind fun _ => operates_ofResult _
  | once instant => exact operates_pure _
  | cron expr => exact (operates_expression expr).bind fun _ => operates_pure _
  | unsupported given => exact operates_ofResult _

theorem Estimator.operates_onDay (point : TimePoint) : (onDay config job point).Operates := by
  unfold onDay
  by_cases he : job.isEnabled = true
  · simp only [he, if_true]
    exact (operates_ofResult _).bind fun date => operates_onDate config job date
  · simp only [he]
    exact operates_pure _

theorem Estimator.operates_perDay (start stop : TimePoint) :
    (perDay config job start stop).Operates := by
  refine (operates_ofResult _).bind fun _ => (operates_ofResult _).bind fun _ => ?_
  refine (operates_ofResult _).bind fun days => Operates.forEach (fun day => ?_) days
  exact (operates_onDay config job (.ofInstant day)).bind fun _ => operates_pure _

theorem Estimator.operates_total (start stop : TimePoint) :
    (total config job start stop).Operates :=
  (operates_perDay config job start stop).bind fun _ => (operates_record _).bind fun _ =>
    operates_pure _

theorem Page.operates_jobRow (range : DateRange) : (jobRow config range job).Operates := by
  refine (Estimator.operates_perDay config job _ _).catchRefusal.bind fun counted => ?_
  cases counted with
  | ok counts => exact operates_pure _
  | error refusal => exact (operates_record _).bind fun _ => operates_pure _

theorem Page.operates_build (jobs : List Job) (anchor : TimePoint) (view : Value) :
    (build config jobs anchor view).Operates := by
  refine (operates_ofResult _).bind fun _ => (operates_ofResult _).bind fun range => ?_
  refine (Operates.forEach (fun job => operates_jobRow config job range) jobs).bind fun _ => ?_
  exact (operates_ofResult _).bind fun _ => (operates_ofResult _).bind fun _ => operates_pure _

theorem Session.operates_respond (request : Except Error Request) :
    (respond config request).Operates := by
  cases request with
  | error error => exact operates_ofResult _
  | ok request =>
      cases request with
      | day job point => exact (Estimator.operates_onDay config job point).map _
      | perDay job start stop => exact (Estimator.operates_perDay config job start stop).map _
      | total job start stop => exact (Estimator.operates_total config job start stop).map _
      | page jobs anchor view => exact (Page.operates_build config jobs anchor view).map _
      | expression text => exact (operates_expression text).map _
      | clear => exact operates_clear.map _

end Requests

/-! ## Sessions -/

namespace Session

variable (config : Config)

theorem exists_operations_after (cache : Cache) (requests : List (Except Error Request)) :
    ∃ operations, after config cache requests = cache.run operations := by
  induction requests generalizing cache with
  | nil => exact ⟨[], rfl⟩
  | cons request rest ih =>
      have ⟨operations, ho⟩ := operates_respond config request cache
      have ⟨others, hothers⟩ := ih (respond config request cache).cache
      refine ⟨operations ++ others, ?_⟩
      rw [after, hothers, ho]
      exact List.foldl_append.symm

/-- The cache of a session has the capacity of the configuration, and holds what was asked for
last. -/
theorem tracks_after_fresh (requests : List (Except Error Request)) :
    (after config (fresh config) requests).capacity = config.capacity ∧
      ∃ past, (after config (fresh config) requests).Tracks past := by
  have ⟨operations, ho⟩ := exists_operations_after config (fresh config) requests
  rw [ho]
  exact ⟨Cache.capacity_run (fresh config) operations, _,
    (Cache.tracks_empty config.capacity).run operations⟩

end Session

end Almanac

import Almanac.Proofs.Estimate.Uncached

/-!
# Answers do not depend on history

Every request of a session is answered as it would be on a new cache, whatever was asked before,
whether it succeeded or failed, and however many expressions are remembered. One request leaves a
coherent cache coherent, so requests of any number do.
-/

namespace Almanac.Session

open Almanac.Cron

variable (config : Config)

theorem isCoherent_fresh : (fresh config).IsCoherent := Cache.isCoherent_empty config.capacity

theorem isCoherent_after {cache : Cache} (h : cache.IsCoherent)
    (requests : List (Except Error Request)) :
    (after config cache requests).IsCoherent := by
  induction requests generalizing cache with
  | nil => exact h
  | cons request rest ih => exact ih (Uncached.yields_respond config request cache h).2

theorem isCoherent_after_fresh (requests : List (Except Error Request)) :
    (after config (fresh config) requests).IsCoherent :=
  isCoherent_after config (isCoherent_fresh config) requests

theorem results_outcomes {cache : Cache} (h : cache.IsCoherent)
    (requests : List (Except Error Request)) :
    (outcomes config cache requests).map (·.result) = requests.map (Uncached.respond config) := by
  induction requests generalizing cache with
  | nil => rfl
  | cons request rest ih =>
      rcases Uncached.yields_respond config request cache h with ⟨hr, hc⟩
      rw [outcomes, List.map_cons, List.map_cons, hr, ih hc]

theorem result_alone (request : Request) :
    (alone config request).result = Uncached.respond config (.ok request) :=
  (Uncached.yields_respond config (.ok request) _ (isCoherent_fresh config)).1

/-- Each request of a session has the result that it has as the only request of a session. -/
theorem results_eq_results_fresh (requests : List (Except Error Request)) :
    (outcomes config (fresh config) requests).map (·.result) =
      requests.map fun request => (respond config request (fresh config)).result := by
  rw [results_outcomes config (isCoherent_fresh config)]
  apply List.map_congr_left
  intro request _
  exact (Uncached.yields_respond config request _ (isCoherent_fresh config)).1.symm

end Almanac.Session

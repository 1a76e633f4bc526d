import Almanac.Page
import Almanac.Proofs.Counts

/-!
# Tallies of runs

A tally is filled count by count, in the order in which jobs and their days are gone through. What
it holds for a day in the end is the sum of all counts of that day, whatever other days were counted
in between.
-/

namespace Almanac

namespace Tally

theorem runsOn_add (tally : Tally) (more : DayCount) (day : Instant) :
    (tally.add more).runsOn day =
      if more.day = day then (tally.runsOn day).add more.count else tally.runsOn day := by
  induction tally with
  | nil =>
      by_cases hd : more.day = day
      · simp [add, runsOn, hd]
      · simp [add, runsOn, hd]
  | cons found rest ih =>
      rw [add]
      by_cases hm : found.day = more.day
      · rw [if_pos hm]
        by_cases hd : more.day = day
        · simp [runsOn, hm, hd]
        · simp [runsOn, hm, hd]
      · rw [if_neg hm, runsOn, runsOn, ih]
        by_cases hd : found.day = day
        · have hn : more.day ≠ day := fun he => hm (hd.trans he.symm)
          simp [hd, hn]
        · simp [hd]

theorem runsOn_foldl_add (counts : List DayCount) (tally : Tally) (day : Instant) :
    (counts.foldl (fun tally more => tally.add more) tally).runsOn day =
      ((counts.filter (·.day = day)).map (·.count)).foldl Count.add (tally.runsOn day) := by
  induction counts generalizing tally with
  | nil => rfl
  | cons more rest ih =>
      rw [List.foldl_cons, ih, runsOn_add]
      by_cases hd : more.day = day
      · simp [hd]
      · simp [hd]

theorem runsOn_ofCounts (counts : List DayCount) (day : Instant) :
    (ofCounts counts).runsOn day = Estimator.totalOf (counts.filter (·.day = day)) :=
  runsOn_foldl_add counts [] day

end Tally

/-! ## The counts of one day -/

section OneDay

variable {f : Instant → Option Count} {days : List Instant} {day : Instant}

theorem filter_day_of_notMem (hd : day ∉ days) :
    (days.filterMap fun d => (f d).map (⟨d, ·⟩ : Count → DayCount)).filter (·.day = day) = [] := by
  apply List.filter_eq_nil_iff.2
  intro counted hc
  rcases List.mem_filterMap.1 hc with ⟨d, hm, hs⟩
  rcases Option.map_eq_some_iff.1 hs with ⟨count, -, rfl⟩
  have hne : d ≠ day := fun he => hd (he ▸ hm)
  simpa using hne

theorem filter_day_of_mem (hn : days.Nodup) (hd : day ∈ days) :
    ((days.filterMap fun d => (f d).map (⟨d, ·⟩ : Count → DayCount)).filter (·.day = day)).map
      (·.count) = (f day).toList := by
  induction days with
  | nil => simp at hd
  | cons d days ih =>
      rcases List.nodup_cons.1 hn with ⟨hnm, hnodup⟩
      by_cases he : d = day
      · subst he
        have hrest := filter_day_of_notMem (f := f) hnm
        cases hf : f d with
        | none => rw [List.filterMap_cons_none (by simp [hf]), hrest]; rfl
        | some count =>
            rw [List.filterMap_cons_some (b := ⟨d, count⟩) (by simp [hf]),
              List.filter_cons_of_pos (by simp), hrest]
            rfl
      · have hm : day ∈ days := (List.mem_cons.1 hd).resolve_left fun h => he h.symm
        cases hf : f d with
        | none => rw [List.filterMap_cons_none (by simp [hf]), ih hnodup hm]
        | some count =>
            rw [List.filterMap_cons_some (b := ⟨d, count⟩) (by simp [hf]),
              List.filter_cons_of_neg (by simp [he]), ih hnodup hm]

end OneDay

end Almanac

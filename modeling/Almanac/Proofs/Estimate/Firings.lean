import Almanac.Proofs.Calendar.Tiling
import Almanac.Proofs.Counts
import Almanac.Proofs.Cron.Matching
import Almanac.Proofs.Estimate.Range
import Almanac.Proofs.Recurrence.Counting
import Almanac.Proofs.Session.History

/-!
# Estimates count firings

The firings of a job are a set of instants, whatever kind of schedule it has. The runs of a job on a
day are the firings within the day, and the runs over a range are the firings from the start of its
first day through the end of its last.
-/

namespace Almanac

open Almanac.Cron

/-- The integer that a job is anchored on. Truth values are integers too. -/
def Job.integerReference? (job : Job) : Option Int :=
  match job.reference with
  | .bool b => some (if b then 1 else 0)
  | .int n => some n
  | _ => none

/-- The instants at which a schedule fires, where intervals are counted from a reference. -/
def Schedule.firings (reference? : Option Int) : Schedule → Set Instant
  | .every period =>
      {t | 0 < period ∧ ∃ reference ∈ reference?, t ∈ Recurrence.instants period reference}
  | .once instant => {instant}
  | .cron expr =>
      {t | ∃ expression, Expression.ofValue expr = .ok expression ∧ expression.MatchesAt t}
  | .unsupported _ => ∅

namespace Schedule

variable {period reference : Int} {reference? : Option Int}

theorem firings_every (h : 0 < period) :
    (every period).firings (some reference) = Recurrence.instants period reference := by
  ext t
  simp [firings, h]

theorem firings_every_of_not_pos (h : period ≤ 0) : (every period).firings reference? = ∅ := by
  ext t
  simp [firings, h]

theorem firings_cron {expr : Value} {expression : Expression}
    (h : Expression.ofValue expr = .ok expression) :
    (cron expr).firings reference? = {t | expression.MatchesAt t} := by
  ext t
  simp [firings, h]

end Schedule

def Job.firings (job : Job) : Set Instant :=
  {t | job.isEnabled = true ∧ t ∈ job.schedule.firings job.integerReference?}

/-- An interval that is enabled and positive has a reference, and an enabled cron text is an
expression. -/
def Job.IsScheduled (job : Job) : Prop :=
  job.isEnabled = true →
    match job.schedule with
    | .every period => 0 < period → job.integerReference?.isSome = true
    | .once _ => True
    | .cron expr => ∃ expression, Expression.ofValue expr = .ok expression
    | .unsupported _ => False

namespace Cron.Expression

theorem ofKey_eq_ok {value : Value} {expression : Expression} (h : ofValue value = .ok expression) :
    ofKey value = .ok expression := by
  cases value with
  | text text => exact h
  | _ => simp [ofValue] at h

end Cron.Expression

/-! ## One day -/

namespace Job

variable {job : Job} {date : Date}

theorem firings_of_isEnabled (h : job.isEnabled = true) :
    job.firings = job.schedule.firings job.integerReference? := by
  ext t
  simp [firings, h]

theorem firings_of_not_isEnabled (h : ¬ job.isEnabled = true) : job.firings = ∅ := by
  ext t
  simp [firings, h]

end Job

namespace Uncached

variable {config : Config} {job : Job} {period : Int}

theorem countFrom_of_integerReference {reference : Int} (h : job.integerReference? = some reference)
    (period start stop : Int) :
    Recurrence.countFrom period job.reference start stop =
      .ok (.whole (Recurrence.count period reference start stop)) := by
  unfold Job.integerReference? at h
  split at h
  · rename_i b hb
    rw [hb, ← Option.some.inj h]
    rfl
  · rename_i n hn
    rw [hn, ← Option.some.inj h]
    rfl
  · simp at h

theorem anchor_of_integerReference {reference : Int} (h : job.integerReference? = some reference)
    (date : Date) : Estimator.anchor config job date = .ok job.reference := by
  have hn : job.reference.isNull = false := by
    unfold Job.integerReference? at h
    split at h <;> simp_all [Value.isNull]
  simp [Estimator.anchor, hn]

theorem ncard_singleton_inter_Icc (instant start stop : Instant) :
    ({instant} ∩ Set.Icc start stop).ncard = if start ≤ instant ∧ instant ≤ stop then 1 else 0 := by
  by_cases h : start ≤ instant ∧ instant ≤ stop
  · have hm : instant ∈ Set.Icc start stop := h
    rw [if_pos h, Set.inter_eq_left.2 (Set.singleton_subset_iff.2 hm), Set.ncard_singleton]
  · have hm : instant ∉ Set.Icc start stop := h
    rw [if_neg h, Set.singleton_inter_eq_empty.2 hm, Set.ncard_empty]

theorem onDate_every (h : 0 < period) (hk : job.schedule = .every period) {reference : Int}
    (hr : job.integerReference? = some reference) (date : Date) :
    onDate config job date =
      .ok (.whole (Recurrence.count period reference date.start date.stop)) := by
  rw [onDate, hk]
  show (if period ≤ 0 then _ else _) = _
  rw [if_neg (Int.not_le.2 h), anchor_of_integerReference hr]
  exact countFrom_of_integerReference hr period date.start date.stop

theorem onDate_every_of_not_pos (h : period ≤ 0) (hk : job.schedule = .every period) (date : Date) :
    onDate config job date = .ok (.whole 0) := by
  rw [onDate, hk]
  exact if_pos h

/-- The runs of an enabled job on a day are its firings within the day. -/
theorem onDate_eq_ncard (h : job.IsScheduled) (he : job.isEnabled = true) (date : Date) :
    onDate config job date = .ok (.whole (job.firings ∩ Set.Icc date.start date.stop).ncard) := by
  have hs := h he
  rw [Job.firings_of_isEnabled he]
  cases hk : job.schedule with
  | every period =>
      rw [hk] at hs
      rcases lt_or_ge 0 period with hp | hp
      · rcases Option.isSome_iff_exists.1 (hs hp) with ⟨reference, hr⟩
        rw [onDate_every hp hk hr, hr, Schedule.firings_every hp,
          Recurrence.ncard_instants_inter_Icc hp]
      · rw [onDate_every_of_not_pos hp hk, Schedule.firings_every_of_not_pos hp, Set.empty_inter,
          Set.ncard_empty]
  | once instant =>
      rw [onDate, hk, Schedule.firings, ncard_singleton_inter_Icc]
  | cron expr =>
      rw [hk] at hs
      rcases hs with ⟨expression, hx⟩
      rw [onDate, hk, Schedule.firings_cron hx, Expression.ncard_matching_eq_countOn]
      show (Expression.ofKey expr >>= _) = _
      rw [Expression.ofKey_eq_ok hx]
      rfl
  | unsupported given =>
      rw [hk] at hs
      exact hs.elim

theorem dayCount_eq_ncard (h : job.IsScheduled) (date : Date) :
    dayCount config job date.start =
      .ok ⟨date.start, .whole (job.firings ∩ Set.Icc date.start date.stop).ncard⟩ := by
  unfold dayCount onDay
  by_cases he : job.isEnabled = true
  · rw [if_pos he, TimePoint.date_ofInstant, Instant.date_start]
    simp only [bind, Except.bind, onDate_eq_ncard h he date]
    rfl
  · rw [if_neg he, Job.firings_of_not_isEnabled he, Set.empty_inter, Set.ncard_empty]
    rfl

/-! ## A range -/

theorem perDay_eq_ncard (h : job.IsScheduled) {start stop : TimePoint} {a b : Instant}
    {first last : Date} (ha : start.instant = .ok a) (hb : stop.instant = .ok b)
    (hf : Instant.date a = .ok first) (hl : Instant.date b = .ok last)
    (hn : last.dayNumber - first.dayNumber + 1 ≤ config.dayLimit) :
    perDay config job start stop = .ok ((first.startsThrough last).map fun day =>
      ⟨day, .whole (job.firings ∩ Set.Icc day (day + (dayMillis - 1))).ncard⟩) := by
  rw [perDay_of_dates ha hb hf hl hn]
  apply mapM_eq_ok_map
  intro day hday
  rcases Date.exists_of_mem_startsThrough hday with ⟨date, rfl, -⟩
  rw [dayCount_eq_ncard h, Date.stop_eq]

theorem totalOf_ncard (s : Set Instant) {first last : Date}
    (hle : first.dayNumber ≤ last.dayNumber) :
    Estimator.totalOf ((first.startsThrough last).map fun day =>
      ⟨day, .whole (s ∩ Set.Icc day (day + (dayMillis - 1))).ncard⟩) =
      .whole (s ∩ Set.Icc first.start last.stop).ncard := by
  have hstop : last.stop =
      first.start + (last.dayNumber - first.dayNumber + 1).toNat * dayMillis - 1 := by
    rw [Date.stop_eq, Date.start_eq, Date.start_eq]
    simp only [dayMillis, Instant]
    omega
  rw [hstop, ← sum_ncard_days, ← Count.sum_whole, Estimator.totalOf, Date.startsThrough,
    List.map_map, List.map_map, List.map_map]
  rfl

end Uncached

namespace Estimator

/-- After any requests, the runs of a job over a range are its firings from the start of the first
day through the end of the last, and the runs on each day are the firings within it. -/
theorem estimates_eq_ncard_firings (config : Config) (past : List (Except Error Request))
    {job : Job} {start stop : TimePoint} {a b : Instant} (h : job.IsScheduled)
    (ha : start.instant = .ok a) (hb : stop.instant = .ok b) (hda : a.IsDated) (hdb : b.IsDated)
    (hle : a ≤ b) (hn : b / dayMillis - a / dayMillis + 1 ≤ config.dayLimit) :
    ∃ lo hi counts, Instant.startOfDay a = .ok lo ∧ Instant.endOfDay b = .ok hi ∧
      (total config job start stop (Session.after config (Session.fresh config) past)).result =
        .ok (.whole (job.firings ∩ Set.Icc lo hi).ncard) ∧
      (perDay config job start stop (Session.after config (Session.fresh config) past)).result =
        .ok counts ∧
      (counts.length : Int) = b / dayMillis - a / dayMillis + 1 ∧
      ∀ (i : Nat) (h : i < counts.length), counts[i] = ⟨lo + i * dayMillis,
        .whole (job.firings ∩
          Set.Icc (lo + i * dayMillis) (lo + i * dayMillis + (dayMillis - 1))).ncard⟩ := by
  rcases Instant.exists_date hda with ⟨first, hf⟩
  obtain ⟨last, hl⟩ := Instant.exists_date hdb
  have hfn := Instant.date_eq_ok_iff.1 hf
  have hln := Instant.date_eq_ok_iff.1 hl
  have hdays : first.dayNumber ≤ last.dayNumber := by
    rw [hfn, hln]
    simp only [dayMillis, Instant] at hle ⊢
    omega
  rw [← hfn, ← hln] at hn ⊢
  have hcache := Session.isCoherent_after_fresh config past
  have hper := Uncached.perDay_eq_ncard h ha hb hf hl hn
  refine ⟨first.start, last.stop, _, Instant.startOfDay_of_date hf, Instant.endOfDay_of_date hl, ?_,
    ((Uncached.yields_perDay config job start stop) _ hcache).1.trans hper, ?_, ?_⟩
  · rw [((Uncached.yields_total config job start stop) _ hcache).1, Uncached.total, hper,
      ← Uncached.totalOf_ncard job.firings hdays]
    rfl
  · rw [List.length_map, Date.length_startsThrough]
    omega
  · intro i hi
    simp [Date.startsThrough]

theorem estimates_of_weekday_mornings :
    let job : Job := ⟨.text "a", .bool true, .cron (.text "0 9 1-7,20/5 * 1-5"), .null⟩
    let cache :=
      Session.after .standard (Session.fresh .standard) [.ok (.expression (.text "* * * * *")),
        .ok .clear]
    ∃ lo hi counts, Instant.startOfDay (-1) = .ok lo ∧ Instant.endOfDay 86400000 = .ok hi ∧
      (total .standard job (.ofInstant (-1)) (.ofInstant 86400000) cache).result =
        .ok (.whole (job.firings ∩ Set.Icc lo hi).ncard) ∧
      (perDay .standard job (.ofInstant (-1)) (.ofInstant 86400000) cache).result = .ok counts ∧
      (counts.length : Int) = 86400000 / dayMillis - -1 / dayMillis + 1 ∧
      ∀ (i : Nat) (h : i < counts.length), counts[i] = ⟨lo + i * dayMillis,
        .whole (job.firings ∩ Set.Icc (lo + i * dayMillis)
          (lo + i * dayMillis + (dayMillis - 1))).ncard⟩ := by
  have hjob : Job.IsScheduled ⟨.text "a", .bool true, .cron (.text "0 9 1-7,20/5 * 1-5"), .null⟩ :=
    fun _ => ⟨_, rfl⟩
  exact estimates_eq_ncard_firings .standard _ hjob rfl rfl (by decide) (by decide) (by decide)
    (by decide)

end Estimator

end Almanac

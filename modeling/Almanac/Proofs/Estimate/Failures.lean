import Almanac.Proofs.Cron.Faults
import Almanac.Proofs.Estimate.Range

/-!
# How estimates fail

What keeps the runs of a job from being counted does not depend on the day, so that an estimate
fails on every day of its range or on none. It then fails for that reason, unless the range has too
many days, which is noticed first, or no days at all.
-/

namespace Almanac

open Almanac.Cron

variable {config : Config} {job : Job} {error : Error}

/-! ## One day -/

namespace Recurrence

def obstacle? (period : Int) : Value → Option Error
  | .bool _ => none
  | .int _ => none
  | .real _ => if (Binary64.ofInt period).isFinite then none else some .unbounded
  | _ => some .notNumeric

theorem countFrom_eq_error_iff {period start stop : Int} (hp : 0 < period) (hle : start ≤ stop)
    (reference : Value) :
    countFrom period reference start stop = .error error ↔
      obstacle? period reference = some error := by
  have hwindow : ¬ (period ≤ 0 ∨ stop < start) := by omega
  cases reference with
  | bool b => simp [countFrom, obstacle?]
  | int n => simp [countFrom, obstacle?]
  | real x =>
      rw [countFrom, countRounded, if_neg hwindow, obstacle?]
      dsimp only
      split
      · split <;> simp
      · simp
  | _ => simp [countFrom, obstacle?, hwindow]

end Recurrence

/-- What keeps the runs of a job from being counted while it is switched on. -/
def Job.obstacle? (config : Config) (job : Job) : Option Error :=
  match job.schedule with
  | .every period =>
      if period ≤ 0 then none
      else if job.reference.isNull then
        if config.needsReference then some (.missingReference job.id) else none
      else Recurrence.obstacle? period job.reference
  | .once _ => none
  | .cron expr =>
      match Expression.ofKey expr with
      | .ok _ => none
      | .error error => some error
  | .unsupported given => some (.unsupportedSchedule given)

namespace Recurrence

theorem eq_of_obstacle? {period : Int} {reference : Value}
    (h : obstacle? period reference = some error) :
    error = .unbounded ∨ error = .notNumeric := by
  unfold obstacle? at h
  split at h
  · contradiction
  · contradiction
  · split at h
    · contradiction
    · exact .inl (Option.some.inj h).symm
  · exact .inr (Option.some.inj h).symm

end Recurrence

theorem Cron.Expression.eq_of_ofKey {value : Value} (h : ofKey value = .error error) :
    (∃ refusal, error = .cron refusal) ∨ error = .numeralTooLong ∨ error = .notAKey := by
  cases value with
  | list items => exact .inr (.inr (Except.error.inj h).symm)
  | record fields => exact .inr (.inr (Except.error.inj h).symm)
  | text given =>
      have hread : ofText given = .error error := h
      rcases ofText_cases given with ⟨expression, hr⟩ | ⟨refusal, hr⟩ | ⟨hr, -⟩
      · rw [hr] at hread
        contradiction
      · exact .inl ⟨refusal, Except.error.inj (hread.symm.trans hr)⟩
      · exact .inr (.inl (Except.error.inj (hread.symm.trans hr)))
  | _ => exact .inl ⟨_, (Except.error.inj h).symm⟩

namespace Job

/-- An interval job that has nothing to count its intervals from. -/
def IsUnanchored (job : Job) : Prop :=
  (∃ period, job.schedule = .every period ∧ 0 < period) ∧ job.reference.isNull = true

def HasRefusal (job : Job) (refusal : ParseError) : Prop :=
  ∃ expr, job.schedule = .cron expr ∧ Expression.ofKey expr = .error (.cron refusal)

/-- Nothing but a missing reference or a refused cron text can keep the runs of the job from being
counted. Intervals of a positive period must have no reference or one that instants can be counted
from, as they can from every integer. -/
def IsCountable (job : Job) : Prop :=
  match job.schedule with
  | .every period =>
      0 < period → job.reference.isNull = true ∨ Recurrence.obstacle? period job.reference = none
  | .once _ => True
  | .cron expr => ∀ error, Expression.ofKey expr = .error error → ∃ refusal, error = .cron refusal
  | .unsupported _ => False

theorem obstacle?_eq_some_iff : job.obstacle? config = some error ↔
    (job.IsUnanchored ∧ config.needsReference = true ∧ error = .missingReference job.id) ∨
      (∃ expr, job.schedule = .cron expr ∧ Expression.ofKey expr = .error error) ∨
      (∃ period, job.schedule = .every period ∧ 0 < period ∧ job.reference.isNull = false ∧
        Recurrence.obstacle? period job.reference = some error) ∨
      ∃ given, job.schedule = .unsupported given ∧ error = .unsupportedSchedule given := by
  rw [obstacle?, IsUnanchored]
  cases hk : job.schedule with
  | every period =>
      by_cases hp : period ≤ 0
      · simp [hp]
      · have hpos : 0 < period := by omega
        cases hr : job.reference.isNull <;> simp [hp, hpos, @eq_comm _ error]
  | once instant => simp
  | cron expr => cases hr : Expression.ofKey expr <;> simp [hr, @eq_comm _ error]
  | unsupported given => simp [@eq_comm _ error]

theorem obstacle?_ne_rangeTooLarge {span : Int} {limit : Value} :
    job.obstacle? config ≠ some (.rangeTooLarge span limit) := by
  intro h
  rcases obstacle?_eq_some_iff.1 h with ⟨-, -, he⟩ | ⟨expr, -, hr⟩ | ⟨period, -, -, -, ho⟩ |
    ⟨given, -, he⟩
  · contradiction
  · simpa using Expression.eq_of_ofKey hr
  · simpa using Recurrence.eq_of_obstacle? ho
  · contradiction

theorem obstacle?_eq_missingReference_iff {id : Value} :
    job.obstacle? config = some (.missingReference id) ↔
      job.IsUnanchored ∧ config.needsReference = true ∧ id = job.id := by
  rw [obstacle?_eq_some_iff]
  constructor
  · intro h
    rcases h with ⟨hu, hn, he⟩ | ⟨expr, -, hr⟩ | ⟨period, -, -, -, ho⟩ | ⟨given, -, he⟩
    · exact ⟨hu, hn, Error.missingReference.inj he⟩
    · simpa using Expression.eq_of_ofKey hr
    · simpa using Recurrence.eq_of_obstacle? ho
    · contradiction
  · intro h
    exact .inl ⟨h.1, h.2.1, by rw [h.2.2]⟩

theorem obstacle?_eq_cron_iff {refusal : ParseError} :
    job.obstacle? config = some (.cron refusal) ↔ job.HasRefusal refusal := by
  rw [obstacle?_eq_some_iff]
  constructor
  · intro h
    rcases h with ⟨-, -, he⟩ | hr | ⟨period, -, -, -, ho⟩ | ⟨given, -, he⟩
    · contradiction
    · exact hr
    · simpa using Recurrence.eq_of_obstacle? ho
    · contradiction
  · intro h
    exact .inr (.inl h)

theorem IsCountable.eq_of_obstacle? (h : job.IsCountable) (ho : job.obstacle? config = some error) :
    error = .missingReference job.id ∨ ∃ refusal, error = .cron refusal := by
  rcases obstacle?_eq_some_iff.1 ho with ⟨-, -, he⟩ | ⟨expr, hk, hr⟩ | ⟨period, hk, hp, hn, hr⟩ |
    ⟨given, hk, -⟩
  · exact .inl he
  · rw [IsCountable, hk] at h
    exact .inr (h error hr)
  · rw [IsCountable, hk] at h
    rcases h hp with hnull | hnone
    · simp [hnull] at hn
    · simp [hnone] at hr
  · rw [IsCountable, hk] at h
    exact h.elim

end Job

namespace Uncached

theorem onDate_eq_error_iff (date : Date) : onDate config job date = .error error ↔
    job.obstacle? config = some error := by
  cases hk : job.schedule with
  | every period =>
      rw [onDate, Job.obstacle?, hk]
      dsimp only
      by_cases hp : period ≤ 0
      · simp [hp]
      · rw [if_neg hp, if_neg hp, Estimator.anchor]
        by_cases hr : job.reference.isNull = true
        · cases config.needsReference <;> simp [hr, bind, Except.bind]
        · rw [if_neg hr, if_neg hr]
          exact Recurrence.countFrom_eq_error_iff (by omega) date.start_le_stop job.reference
  | once instant => simp [onDate, Job.obstacle?, hk]
  | cron expr =>
      rw [onDate, Job.obstacle?, hk]
      cases hr : Expression.ofKey expr <;> simp [hr, bind, Except.bind, pure, Except.pure]
  | unsupported given => simp [onDate, Job.obstacle?, hk]

/-- A day fails as any other day does. -/
theorem onDay_eq_error_iff (date : Date) :
    onDay config job (.ofInstant date.start) = .error error ↔
      job.isEnabled = true ∧ job.obstacle? config = some error := by
  rw [onDay, TimePoint.date_ofInstant, Instant.date_start]
  by_cases he : job.isEnabled = true
  · rw [if_pos he, and_iff_right he]
    exact onDate_eq_error_iff date
  · simp [he]

/-! ## A range -/

variable {start stop : TimePoint} {a b : Instant} {first last : Date}

theorem mapM_dayCount_eq_error_iff :
    (first.startsThrough last).mapM (dayCount config job) = .error error ↔
      first.startsThrough last ≠ [] ∧ job.isEnabled = true ∧ job.obstacle? config = some error := by
  have hday : ∀ day ∈ first.startsThrough last, dayCount config job day = .error error ↔
      job.isEnabled = true ∧ job.obstacle? config = some error := by
    intro day hd
    obtain ⟨date, rfl, -⟩ := Date.exists_of_mem_startsThrough hd
    rw [← onDay_eq_error_iff date, dayCount]
    cases onDay config job (.ofInstant date.start) <;> simp [bind, Except.bind, pure, Except.pure]
  constructor
  · intro h
    rcases exists_of_mapM_eq_error h with ⟨day, hd, he⟩
    exact ⟨List.ne_nil_of_mem hd, (hday day hd).1 he⟩
  · intro h
    exact mapM_eq_error h.1 fun day hd => (hday day hd).2 h.2

/-- An estimate fails because it has too many days, or else, if it has any day, for the reason that
it has on every day. -/
theorem perDay_eq_error_iff (ha : start.instant = .ok a) (hb : stop.instant = .ok b)
    (hf : Instant.date a = .ok first) (hl : Instant.date b = .ok last) :
    perDay config job start stop = .error error ↔
      config.dayLimit < (first.startsThrough last).length ∧
          error = .rangeTooLarge (first.startsThrough last).length config.rangeLimit ∨
        ¬ config.dayLimit < (first.startsThrough last).length ∧ first.startsThrough last ≠ [] ∧
          job.isEnabled = true ∧ job.obstacle? config = some error := by
  rw [perDay_eq ha hb hf hl]
  by_cases hn : config.dayLimit < (first.startsThrough last).length
  · simp [hn, @eq_comm _ error]
  · rw [if_neg hn, mapM_dayCount_eq_error_iff]
    simp [hn]

theorem perDay_of_error (hle : first.dayNumber ≤ last.dayNumber)
    (hn : last.dayNumber - first.dayNumber + 1 ≤ config.dayLimit)
    (h : onDay config job (.ofInstant first.start) = .error error) :
    perDay config job (.ofInstant first.start) (.ofInstant last.stop) = .error error := by
  rw [perDay_of_page hn]
  exact mapM_dayCount_eq_error_iff.2 ⟨Date.startsThrough_ne_nil hle, (onDay_eq_error_iff first).1 h⟩

theorem length_of_perDay (ha : start.instant = .ok a) (hb : stop.instant = .ok b)
    (hf : Instant.date a = .ok first) (hl : Instant.date b = .ok last) {counts : List DayCount}
    (h : perDay config job start stop = .ok counts) :
    counts.length = (first.startsThrough last).length := by
  rw [perDay_eq ha hb hf hl] at h
  split at h
  · contradiction
  · exact (mapM_eq_ok_iff.1 h).length_eq.symm

end Uncached

/-! ## Which failure it is -/

/-- What an estimate of a job over a number of days gives: first it is too large, then a job without
a reference or with a refused text fails, and any other job has its counts. -/
structure Estimator.EndsExactly (config : Config) (job : Job) (days : Nat)
    (result : Except Error (List DayCount)) : Prop where
  too_large : ∀ span limit, result = .error (.rangeTooLarge span limit) ↔
    config.dayLimit < days ∧ span = days ∧ limit = config.rangeLimit
  unanchored : days ≤ config.dayLimit → ∀ id, result = .error (.missingReference id) ↔
    1 ≤ days ∧ job.isEnabled = true ∧ job.IsUnanchored ∧ config.needsReference = true ∧ id = job.id
  refused : days ≤ config.dayLimit → ∀ refusal, result = .error (.cron refusal) ↔
    1 ≤ days ∧ job.isEnabled = true ∧ job.HasRefusal refusal
  counted : days ≤ config.dayLimit → (job.isEnabled = true → job.IsCountable) →
    (∀ id, result ≠ .error (.missingReference id)) → (∀ refusal, result ≠ .error (.cron refusal)) →
      ∃ counts, result = .ok counts ∧ counts.length = days

theorem Estimator.EndsExactly.counted_of_integer {days : Nat}
    {result : Except Error (List DayCount)} (h : EndsExactly config job days result)
    (hd : days ≤ config.dayLimit) {period n : Int} (hk : job.schedule = .every period)
    (hr : job.reference = .int n) :
    ∃ counts, result = .ok counts ∧ counts.length = days := by
  have hcountable : job.IsCountable := by
    rw [Job.IsCountable, hk, hr]
    exact fun _ => .inr rfl
  apply h.counted hd fun _ => hcountable
  · intro id hmissing
    have hnull := ((h.unanchored hd id).1 hmissing).2.2.1.2
    simp [hr, Value.isNull] at hnull
  · intro refusal hrefused
    rcases ((h.refused hd refusal).1 hrefused).2.2 with ⟨expr, hcron, -⟩
    simp [hk] at hcron

namespace Uncached

variable {start stop : TimePoint} {a b : Instant} {first last : Date}

theorem perDay_endsExactly (ha : start.instant = .ok a) (hb : stop.instant = .ok b)
    (hf : Instant.date a = .ok first) (hl : Instant.date b = .ok last) :
    Estimator.EndsExactly config job (first.startsThrough last).length
      (perDay config job start stop) := by
  have herror := fun error : Error => @perDay_eq_error_iff config job error _ _ _ _ _ _ ha hb hf hl
  have hpos : first.startsThrough last ≠ [] ↔ 1 ≤ (first.startsThrough last).length :=
    List.length_pos_iff.symm
  constructor
  case too_large =>
    intro span limit
    simp [herror, Job.obstacle?_ne_rangeTooLarge]
  case unanchored =>
    intro hn id
    have hn : ¬ config.dayLimit < (first.startsThrough last).length := Int.not_lt.2 hn
    simp [herror, hn, hpos, Job.obstacle?_eq_missingReference_iff]
  case refused =>
    intro hn refusal
    have hn : ¬ config.dayLimit < (first.startsThrough last).length := Int.not_lt.2 hn
    simp [herror, hn, hpos, Job.obstacle?_eq_cron_iff]
  case counted =>
    intro hn hcountable hmissing hrefused
    cases hr : perDay config job start stop with
    | ok counts => exact ⟨counts, rfl, length_of_perDay ha hb hf hl hr⟩
    | error error =>
        rw [hr] at hmissing hrefused
        rcases (herror error).1 hr with ⟨hlarge, -⟩ | ⟨-, -, he, ho⟩
        · exact absurd hlarge (Int.not_lt.2 hn)
        · rcases (hcountable he).eq_of_obstacle? ho with rfl | ⟨refusal, rfl⟩
          · exact absurd rfl (hmissing job.id)
          · exact absurd rfl (hrefused refusal)

end Uncached

end Almanac

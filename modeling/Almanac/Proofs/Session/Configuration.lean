import Almanac.Proofs.Result
import Almanac.Proofs.Session.History

/-!
# Answers do not depend on the configuration

A configuration makes some requests fail, for want of a reference or for too many days, and says
nothing about the others. A laxer configuration keeps the answer of a stricter one to each of them
(`Keeps`), which every combinator passes on. Two configurations that both have an answer then have
the same one, since a third is laxer than both.
-/

namespace Almanac

/-- The failure is one that another configuration may not have. -/
def Error.IsRestriction : Error → Prop
  | .missingReference _ => True
  | .rangeTooLarge _ _ => True
  | _ => False

namespace Config

variable {strict lax : Config}

/-- The configuration requires no reference, and covers as many days as the stricter one. -/
structure IsLaxer (strict lax : Config) : Prop where
  dayLimit_le : strict.dayLimit ≤ lax.dayLimit
  needsReference_eq : lax.needsReference = false

def common (first second : Config) : Config where
  cacheSize := .int 0
  requireReference := .bool false
  rangeLimit := .int (max first.dayLimit second.dayLimit)
  cacheSize_valid := by decide
  rangeLimit_valid := Int.le_trans first.one_le_dayLimit (Int.le_max_left _ _)

theorem isLaxer_common_left (first second : Config) : first.IsLaxer (common first second) :=
  ⟨Int.le_max_left _ _, rfl⟩

theorem isLaxer_common_right (first second : Config) : second.IsLaxer (common first second) :=
  ⟨Int.le_max_right _ _, rfl⟩

end Config

/-! ## Results that are kept -/

section Results

variable {α β : Type} {strict lax : Except Error α}

/-- The second result is the first one, unless that is a restriction. -/
def Keeps (strict lax : Except Error α) : Prop :=
  (∀ error, strict = .error error → ¬ error.IsRestriction) → lax = strict

theorem keeps_self (result : Except Error α) : Keeps result result := fun _ => rfl

theorem Keeps.eq_ok (h : Keeps strict lax) {value : α} (hs : strict = .ok value) :
    lax = .ok value := by
  rw [h (by simp [hs]), hs]

theorem Keeps.bind {next later : α → Except Error β} (h : Keeps strict lax)
    (hn : ∀ value, Keeps (next value) (later value)) : Keeps (strict >>= next) (lax >>= later) := by
  intro hfree
  cases strict with
  | error error =>
      have hl : lax = .error error :=
        h fun found hf => hfree found (by rw [Except.error.inj hf]; rfl)
      rw [hl]
      rfl
  | ok value =>
      rw [h.eq_ok rfl]
      exact hn value hfree

theorem Keeps.map (h : Keeps strict lax) (f : α → β) : Keeps (strict.map f) (lax.map f) := by
  intro hfree
  rw [h]
  intro error he
  apply hfree
  rw [he]
  rfl

theorem Keeps.mapM {act other : α → Except Error β} (h : ∀ item, Keeps (act item) (other item))
    (items : List α) :
    Keeps (items.mapM act) (items.mapM other) := by
  induction items with
  | nil => exact keeps_self _
  | cons item rest ih =>
      rw [List.mapM_cons, List.mapM_cons]
      exact (h item).bind fun head => ih.bind fun _ => keeps_self _

/-- A refusal is no restriction, so it may be caught. -/
theorem Keeps.caught (h : Keeps strict lax) : Keeps (Cached.caught strict) (Cached.caught lax) := by
  intro hfree
  rw [h]
  intro error he hrestriction
  apply hfree error _ hrestriction
  rw [he]
  cases error with
  | cron refusal => exact absurd hrestriction id
  | _ => rfl

end Results

/-! ## Estimates and pages -/

namespace Uncached

variable {strict lax : Config} (h : strict.IsLaxer lax) (job : Job)

include h

theorem keeps_anchor (date : Date) :
    Keeps (Estimator.anchor strict job date) (Estimator.anchor lax job date) := by
  unfold Estimator.anchor
  by_cases hr : job.reference.isNull = true
  · rw [if_pos hr, if_pos hr, h.needsReference_eq]
    cases hn : strict.needsReference with
    | false => exact keeps_self _
    | true => exact fun hfree => absurd trivial (hfree _ rfl)
  · rw [if_neg hr, if_neg hr]
    exact keeps_self _

theorem keeps_onDate (date : Date) : Keeps (onDate strict job date) (onDate lax job date) := by
  unfold onDate
  cases job.schedule with
  | every period =>
      by_cases hp : period ≤ 0
      · simp only [hp, if_true]
        exact keeps_self _
      · simp only [hp, if_false]
        exact (keeps_anchor h job date).bind fun _ => keeps_self _
  | _ => exact keeps_self _

theorem keeps_onDay (point : TimePoint) : Keeps (onDay strict job point) (onDay lax job point) := by
  unfold onDay
  by_cases he : job.isEnabled = true
  · simp only [he, if_true]
    exact (keeps_self _).bind fun date => keeps_onDate h job date
  · simp only [he]
    exact keeps_self _

theorem keeps_listedDays (start stop : Instant) :
    Keeps (Estimator.listedDays strict start stop) (Estimator.listedDays lax start stop) := by
  unfold Estimator.listedDays
  by_cases hle : start ≤ stop
  · simp only [hle, if_true]
    refine (keeps_self _).bind fun span => ?_
    by_cases hn : strict.dayLimit < span
    · rw [if_pos hn]
      exact fun hfree => absurd trivial (hfree _ rfl)
    · have hl : ¬ lax.dayLimit < span := fun hlt => hn (Int.lt_of_le_of_lt h.dayLimit_le hlt)
      rw [if_neg hn, if_neg hl]
      exact keeps_self _
  · simp only [hle]
    exact keeps_self _

theorem keeps_perDay (start stop : TimePoint) :
    Keeps (perDay strict job start stop) (perDay lax job start stop) := by
  refine (keeps_self _).bind fun first => (keeps_self _).bind fun last => ?_
  refine (keeps_listedDays h first last).bind fun days => Keeps.mapM (fun day => ?_) days
  exact (keeps_onDay h job (.ofInstant day)).bind fun _ => keeps_self _

theorem keeps_total (start stop : TimePoint) :
    Keeps (total strict job start stop) (total lax job start stop) :=
  (keeps_perDay h job start stop).bind fun _ => keeps_self _

theorem keeps_jobRow (range : DateRange) : Keeps (jobRow strict range job) (jobRow lax range job) :=
  (keeps_perDay h job _ _).caught.bind fun _ => keeps_self _

theorem keeps_page (jobs : List Job) (anchor : TimePoint) (view : Value) :
    Keeps (page strict jobs anchor view) (page lax jobs anchor view) := by
  refine (keeps_self _).bind fun view => (keeps_self _).bind fun range => ?_
  exact (Keeps.mapM (fun job => keeps_jobRow h job range) jobs).bind fun _ => keeps_self _

/-- A laxer configuration changes no answer, and no failure but the restrictions of the stricter
one. -/
theorem keeps_respond (request : Except Error Request) :
    Keeps (respond strict request) (respond lax request) := by
  cases request with
  | error error => exact keeps_self _
  | ok request =>
      cases request with
      | day job point => exact (keeps_onDay h job point).map _
      | perDay job start stop => exact (keeps_perDay h job start stop).map _
      | total job start stop => exact (keeps_total h job start stop).map _
      | page jobs anchor view => exact (keeps_page h jobs anchor view).map _
      | expression text => exact keeps_self _
      | clear => exact keeps_self _

end Uncached

namespace Session

/-- A request that is answered under two configurations, after whatever other requests, has one
answer. Whatever is answered under a configuration is answered under every one that requires no
references and covers as many days. -/
theorem answers_independent_of_config (first second : Config)
    (past others : List (Except Error Request)) (request : Request) :
    let one := (respond first (.ok request) (after first (fresh first) past)).result
    let two := (respond second (.ok request) (after second (fresh second) others)).result
    (∀ answer other, one = .ok answer → two = .ok other → answer = other) ∧
      (first.dayLimit ≤ second.dayLimit → second.needsReference = false →
        ∀ answer, one = .ok answer → two = .ok answer) := by
  intro one two
  have hone : one = Uncached.respond first (.ok request) :=
    (Uncached.yields_respond first (.ok request) _ (isCoherent_after_fresh first past)).1
  have htwo : two = Uncached.respond second (.ok request) :=
    (Uncached.yields_respond second (.ok request) _ (isCoherent_after_fresh second others)).1
  rw [hone, htwo]
  constructor
  · intro answer other ha ho
    have hleft :=
      (Uncached.keeps_respond (Config.isLaxer_common_left first second) (.ok request)).eq_ok ha
    have hright :=
      (Uncached.keeps_respond (Config.isLaxer_common_right first second) (.ok request)).eq_ok ho
    exact Except.ok.inj (hleft.symm.trans hright)
  · intro hlimit hreference answer ha
    exact (Uncached.keeps_respond ⟨hlimit, hreference⟩ (.ok request)).eq_ok ha

/-- A page of a week, where one configuration remembers nothing, requires references and covers just
these days. -/
theorem answers_independent_of_config_in_week :
    let first : Config := ⟨.int 0, .bool true, .int 7, by decide, by decide⟩
    let jobs : List Job := [⟨.text "a", .bool true, .cron (.text "0 9 * * 1"), .null⟩,
      ⟨.text "b", .bool true, .every 7200000, .int 90000000⟩,
      ⟨.text "c", .bool true, .cron (.text "0 9"), .null⟩]
    let request : Request := .page jobs (.ofInstant 0) (.text "week")
    let one := (respond first (.ok request) (after first (fresh first) [])).result
    let two :=
      (respond .standard (.ok request)
        (after .standard (fresh .standard) [.ok request, .ok .clear])).result
    ∃ answer, one = .ok answer ∧ two = .ok answer ∧ ∀ other, two = .ok other → answer = other := by
  intro first jobs request one two
  have ⟨hsame, hmore⟩ :=
    answers_independent_of_config first .standard [] [.ok request, .ok .clear] request
  have hok : one.isOk = true := by decide +kernel
  cases hone : one with
  | error error => simp [hone, Except.isOk, Except.toBool] at hok
  | ok answer =>
      exact ⟨answer, rfl, hmore (by decide) rfl answer hone,
        fun other ho => hsame answer other hone ho⟩

end Session

end Almanac

import Almanac.Proofs.Estimate.Failures
import Almanac.Proofs.Session.Operations

/-!
# What an estimate leaves behind

An estimate looks up the cron text of its job once for every day. Of these look-ups only the first
has effects, in a cache that has room for the expression, and without room each of them reads the
text. Other jobs, and ranges without days or with too many, leave cache and log alone (`Footprint`).
The total of a range that was counted is recorded last.
-/

namespace Almanac

open Almanac.Cron Cached

structure Job.Reads (job : Job) (text : String) (expression : Expression) : Prop where
  enabled : job.isEnabled = true
  schedule_eq : job.schedule = .cron (.text text)
  accepted : Expression.ofText text = .ok expression

theorem Job.Reads.obstacle?_eq_none {config : Config} {job : Job} {text : String}
    {expression : Expression} (h : job.Reads text expression) : job.obstacle? config = none := by
  have hread : Expression.ofKey (.text text) = .ok expression := h.accepted
  rw [Job.obstacle?, h.schedule_eq]
  simp only [hread]

namespace Estimator

/-- What is left, in a cache and in the log, by an estimate over a number of days. -/
structure Footprint {α : Type} (config : Config) (job : Job) (days : Nat) (before : Cache)
    (outcome : Outcome α) : Prop where
  one_lookup : 1 ≤ config.capacity → 1 ≤ days → days ≤ config.dayLimit → ∀ text expression,
    job.Reads text expression → outcome.cache = (before.get (.text text)).2 ∧
      outcome.log = if Cache.keyOf text ∈ before.keys then [] else [.parsed (Cache.keyOf text)]
  no_room : config.capacity = 0 → days ≤ config.dayLimit → ∀ text expression,
    job.Reads text expression → before.entries = [] ∧ outcome.cache.entries = [] ∧
      outcome.log = List.replicate days (.parsed (Cache.keyOf text))
  untouched : (∀ text expression, ¬ job.Reads text expression) ∨ days = 0 ∨ config.dayLimit < days →
    outcome.cache = before ∧ outcome.log = []

section Days

variable {config : Config} {job : Job} {text : String} {expression : Expression} {cache : Cache}

/-! ## One day -/

theorem onDay_of_reads (hr : job.Reads text expression) {point : TimePoint} {date : Date}
    (hd : point.date = .ok date) :
    onDay config job point =
      (fun found => Count.whole (found.countOn date)) <$> Cached.expression (.text text) := by
  rw [onDay, if_pos hr.enabled, hd]
  simp only [bind_eq, andThen_ofResult_ok]
  rw [onDate, hr.schedule_eq]
  rfl

theorem countDay_of_reads (hr : job.Reads text expression) (date : Date) :
    countDay config job date.start =
      (fun found => DayCount.mk date.start (.whole (found.countOn date))) <$>
        Cached.expression (.text text) := by
  have hd : (TimePoint.ofInstant date.start).date = .ok date := Instant.date_start date
  funext cache
  rw [countDay, onDay_of_reads hr hd, map_apply, map_apply, map_apply]
  cases (Cached.expression (.text text) cache).result <;> rfl

theorem isSilent_onDate (hc : cache.IsCoherent) (he : job.isEnabled = true)
    (h : ∀ text expression, ¬ job.Reads text expression) (date : Date) :
      (onDate config job date).IsSilent cache := by
  unfold onDate
  cases hk : job.schedule with
  | every period =>
      by_cases hp : period ≤ 0
      · simp only [hp, if_true]
        exact isSilent_pure _ cache
      · simp only [hp, if_false]
        exact (isSilent_ofResult _ cache).bind fun _ => isSilent_ofResult _ cache
  | once instant => exact isSilent_pure _ cache
  | unsupported given => exact isSilent_ofResult _ cache
  | cron expr =>
      refine IsSilent.bind ?_ fun _ => isSilent_pure _ cache
      cases hx : Expression.ofKey expr with
      | error error => exact isSilent_expression_of_refused hc hx
      | ok expression =>
          cases expr with
          | text text => exact absurd ⟨he, hk, hx⟩ (h text expression)
          | _ => simp [Expression.ofKey, Expression.ofValue] at hx

theorem isSilent_onDay (hc : cache.IsCoherent) (h : ∀ text expression, ¬ job.Reads text expression)
    (point : TimePoint) :
    (onDay config job point).IsSilent cache := by
  unfold onDay
  by_cases he : job.isEnabled = true
  · simp only [he, if_true]
    exact (isSilent_ofResult _ cache).bind fun date => isSilent_onDate hc he h date
  · simp only [he]
    exact isSilent_pure _ cache

/-! ## Several days -/

/-- A loop over days has the footprint of an estimate, if its steps do as estimates of a day do. -/
theorem footprint_forEach {α β : Type} {act : α → Cached β} {items : List α} {past : List String}
    (ht : cache.Tracks past)
    (hcapacity : cache.capacity = config.capacity) (hfew : items.length ≤ config.dayLimit)
    (hreads : ∀ text expression, job.Reads text expression → ∀ item ∈ items,
      ∃ f : Expression → β, act item = f <$> Cached.expression (.text text))
    (hsilent : (∀ text expression, ¬ job.Reads text expression) → ∀ item ∈ items,
      (act item).IsSilent cache) :
    Footprint config job items.length cache (forEach act items cache) := by
  constructor
  case one_lookup =>
    intro hroom hpos _ text expression hr
    rw [← hcapacity] at hroom
    exact forEach_of_room (hreads text expression hr) (List.ne_nil_of_length_pos hpos) hroom
      ht.coherent hr.accepted
  case no_room =>
    intro hn _ text expression hr
    rw [← hcapacity] at hn
    exact ⟨ht.entries_eq_nil hn, forEach_of_no_room (hreads text expression hr) hn ht hr.accepted⟩
  case untouched =>
    intro h
    rcases h with hnone | hempty | hmany
    · have ⟨hcache, hlog⟩ := IsSilent.forEach (hsilent hnone)
      exact ⟨hcache, hlog⟩
    · rw [List.length_eq_zero_iff.1 hempty]
      exact ⟨rfl, rfl⟩
    · exact absurd hmany (Int.not_lt.2 hfew)

end Days

section Ranges

variable {config : Config} {job : Job} {cache : Cache} {past : List String} {start stop : TimePoint}
  {a b : Instant} {first last : Date}

theorem footprint_onDay (ht : cache.Tracks past) (hcapacity : cache.capacity = config.capacity)
    (hd : start.date = .ok first) :
    Footprint config job 1 cache (onDay config job start cache) := by
  have hone : (([start].length : Nat) : Int) ≤ config.dayLimit := config.one_le_dayLimit
  have hloop :
      Footprint config job [start].length cache (forEach (onDay config job) [start] cache) := by
    apply footprint_forEach ht hcapacity hone
    · intro text expression hr point hp
      rw [List.mem_singleton.1 hp]
      exact ⟨_, onDay_of_reads hr hd⟩
    · intro hnone point _
      exact isSilent_onDay ht.coherent hnone point
  rw [forEach_singleton, map_apply] at hloop
  exact ⟨hloop.one_lookup, hloop.no_room, hloop.untouched⟩

theorem footprint_perDay (ht : cache.Tracks past) (hcapacity : cache.capacity = config.capacity)
    (ha : start.instant = .ok a) (hb : stop.instant = .ok b) (hf : Instant.date a = .ok first)
    (hl : Instant.date b = .ok last) :
    Footprint config job (first.startsThrough last).length cache
      (perDay config job start stop cache) := by
  rw [perDay_eq_forEach config job ha hb hf hl]
  by_cases hmany : config.dayLimit < (first.startsThrough last).length
  · rw [if_pos hmany]
    constructor
    case one_lookup => exact fun _ _ hfew => absurd hmany (Int.not_lt.2 hfew)
    case no_room => exact fun _ hfew => absurd hmany (Int.not_lt.2 hfew)
    case untouched => exact fun _ => ⟨rfl, rfl⟩
  · rw [if_neg hmany]
    apply footprint_forEach ht hcapacity (Int.not_lt.1 hmany)
    · intro text expression hr day hday
      have ⟨date, hdate, _⟩ := Date.exists_of_mem_startsThrough hday
      rw [← hdate]
      exact ⟨_, countDay_of_reads hr date⟩
    · intro hnone day _
      exact (isSilent_onDay ht.coherent hnone (.ofInstant day)).map _

/-- An estimate that fails has left nothing behind, for it failed before it read a text. -/
theorem log_of_perDay_error (ht : cache.Tracks past) (hcapacity : cache.capacity = config.capacity)
    (ha : start.instant = .ok a) (hb : stop.instant = .ok b) (hf : Instant.date a = .ok first)
    (hl : Instant.date b = .ok last) {error : Error}
    (h : (perDay config job start stop cache).result = .error error) :
    (perDay config job start stop cache).log = [] := by
  have hplain : Uncached.perDay config job start stop = .error error := by
    rw [← h]
    exact (Uncached.yields_perDay config job start stop cache ht.coherent).1.symm
  refine ((footprint_perDay ht hcapacity ha hb hf hl).untouched ?_).2
  rcases (Uncached.perDay_eq_error_iff ha hb hf hl).1 hplain with ⟨hmany, -⟩ | ⟨-, -, -, hobstacle⟩
  · exact .inr (.inr hmany)
  · refine .inl fun text expression hr => ?_
    rw [hr.obstacle?_eq_none] at hobstacle
    contradiction

theorem total_of_perDay_ok {counts : List DayCount}
    (h : (perDay config job start stop cache).result = .ok counts) :
    total config job start stop cache = ⟨.ok (totalOf counts),
      (perDay config job start stop cache).cache,
      (perDay config job start stop cache).log ++
        [.totalled job.id (totalOf counts) counts.length]⟩ := by
  rw [total, bind_eq, andThen_of_ok h]
  rfl

theorem total_of_perDay_error {error : Error}
    (h : (perDay config job start stop cache).result = .error error) :
    total config job start stop cache =
      ⟨.error error, (perDay config job start stop cache).cache,
        (perDay config job start stop cache).log⟩ := by
  rw [total, bind_eq, andThen_of_error h]

/-- In every session, an estimate over `n` days leaves its cache as one look-up of its text would,
or reads the text `n` times if the cache has no room, or leaves no trace (`Footprint`). A total
leaves the same, and if there is one, it is recorded last. -/
theorem estimates_leave_one_lookup (config : Config) (past : List (Except Error Request))
    (job : Job)
    (ha : start.instant = .ok a) (hb : stop.instant = .ok b) (hda : a.IsDated) (hdb : b.IsDated) :
    let cache := Session.after config (Session.fresh config) past
    let counted := perDay config job start stop cache
    let totalled := total config job start stop cache
    ∃ days, listDays start stop = .ok days ∧
      Footprint config job 1 cache (onDay config job start cache) ∧
      Footprint config job days.length cache counted ∧
      totalled.cache = counted.cache ∧
      (∀ count, totalled.result = .ok count → ∃ entry, totalled.log = counted.log ++ [entry] ∧
        entry = .totalled job.id count days.length ∧
        entry.message =
          s!"Job {job.id.toText}: {count.toValue.toText} runs over {days.length} days") ∧
      ∀ error, totalled.result = .error error → totalled.log = [] := by
  intro cache counted totalled
  have ⟨hcapacity, _, ht⟩ := Session.tracks_after_fresh config past
  have ⟨first, hf⟩ := Instant.exists_date hda
  have ⟨last, hl⟩ := Instant.exists_date hdb
  have hstart := TimePoint.date_of_instant ha hf
  refine ⟨_, listDays_of_points hstart (TimePoint.date_of_instant hb hl),
    footprint_onDay ht hcapacity hstart, footprint_perDay ht hcapacity ha hb hf hl, ?_⟩
  cases hr : counted.result with
  | ok counts =>
      have hlength : counts.length = (first.startsThrough last).length := by
        apply Uncached.length_of_perDay ha hb hf hl
        rw [← hr]
        exact (Uncached.yields_perDay config job start stop cache ht.coherent).1.symm
      have htotal : totalled = ⟨.ok (totalOf counts), counted.cache,
          counted.log ++ [.totalled job.id (totalOf counts) counts.length]⟩ := total_of_perDay_ok hr
      rw [htotal, hlength]
      refine ⟨rfl, fun count hcount => ?_, fun error herror => by contradiction⟩
      rw [Except.ok.inj hcount]
      exact ⟨_, rfl, rfl, rfl⟩
  | error error =>
      have htotal : totalled = ⟨.error error, counted.cache, counted.log⟩ :=
        total_of_perDay_error hr
      rw [htotal]
      exact ⟨rfl, fun count hcount => by contradiction,
        fun _ _ => log_of_perDay_error ht hcapacity ha hb hf hl hr⟩

/-- Three days, in a cache that remembers the text and in one that remembers nothing. -/
theorem estimates_leave_one_lookup_in_three_days :
    let job : Job := ⟨.text "a", .bool true, .cron (.text "0  9 * * *"), .null⟩
    let forgetful : Config := ⟨.int 0, .bool false, .int 3660, by decide, by decide⟩
    let stop := TimePoint.ofInstant 172800000
    let cache := Session.fresh .standard
    (total .standard job (.ofInstant 0) stop cache).cache = (cache.get (.text "0  9 * * *")).2 ∧
      (total .standard job (.ofInstant 0) stop cache).log =
        [.parsed "0 9 * * *", .totalled (.text "a") (.whole 3) 3] ∧
      (perDay forgetful job (.ofInstant 0) stop (Session.fresh forgetful)).log =
        List.replicate 3 (.parsed "0 9 * * *") := by
  intro job forgetful stop cache
  have hdated : Instant.IsDated 0 ∧ Instant.IsDated 172800000 := by decide
  have hthree : listDays (.ofInstant 0) stop = .ok [0, 86400000, 172800000] := by decide +kernel
  have hreads : job.Reads "0  9 * * *" _ := ⟨rfl, rfl, rfl⟩
  have hsession := fun config : Config =>
    @estimates_leave_one_lookup (.ofInstant 0) stop 0 172800000 config [] job rfl rfl
      hdated.1 hdated.2
  have ⟨days, hdays, _, hrange, hsame, hrecord, _⟩ := hsession .standard
  have ⟨others, hothers, _, hforgetful, _⟩ := hsession forgetful
  rw [← Except.ok.inj (hthree.symm.trans hdays)] at hrange hrecord
  rw [← Except.ok.inj (hthree.symm.trans hothers)] at hforgetful
  have ⟨hcache, hlog⟩ := hrange.one_lookup (by decide) (by decide) (by decide) _ _ hreads
  have ⟨entry, htotal, hentry, _⟩ := hrecord (.whole 3) (by decide +kernel)
  rw [hlog, hentry] at htotal
  exact ⟨hsame.trans hcache, htotal, (hforgetful.no_room rfl (by decide) _ _ hreads).2.2⟩

end Ranges

end Estimator

end Almanac

import Almanac.Job
import Almanac.Proofs.Result

/-!
# Where a job takes its times from

A time of a job may stand in several places of its record, and the first that is known counts: an
interval job is anchored on its reference, its next run, or one interval after its last, and a
one-time schedule fires at its instant, its next run or its last. A run is looked for at top level
first and then under the state, where a null at top level is an exception: it ends the search,
though a null anywhere else does not.
-/

namespace Almanac

namespace Value

def firstKnown (values : List Value) : Value := (values.find? fun value => !value.isNull).getD .null

def IsTime (value : Value) : Prop := value = .null ∨ ∃ n, value = .int n

def later (period : Int) : Value → Value
  | .int n => .int (n + period)
  | value => value

theorem firstKnown_pair (first second : Value) :
    firstKnown [first, second] = if first.isNull then second else first := by
  cases first <;> cases second <;> rfl

theorem firstKnown_cons (value : Value) (rest : List Value) :
    firstKnown (value :: rest) = if value.isNull then firstKnown rest else value := by
  cases value <;> rfl

theorem not_isNull_of_toInteger {value : Value} {n : Int} (h : value.toInteger = .ok n) :
    ¬ value.isNull = true := by
  cases value with
  | null => contradiction
  | _ => exact Bool.false_ne_true

theorem isTime_firstKnown {values : List Value} (h : ∀ value ∈ values, value.IsTime) :
    (firstKnown values).IsTime := by
  induction values with
  | nil => exact .inl rfl
  | cons value rest ih =>
      obtain ⟨hvalue, hrest⟩ := List.forall_mem_cons.1 h
      rw [firstKnown_cons]
      split
      · exact ih hrest
      · exact hvalue

theorem isTime_later {value : Value} (h : value.IsTime) (period : Int) :
    (value.later period).IsTime := by
  rcases h with rfl | ⟨n, rfl⟩
  · exact .inl rfl
  · exact .inr ⟨n + period, rfl⟩

end Value

namespace Job

open Value

variable {fields state given : Fields} {nextRun lastRun : Value}

/-- A null at top level stands before a time under the state. -/
def HidesRun (name : String) (fields state : Fields) : Prop :=
  fields.find? name = some .null ∧ state.get name ≠ .null

/-- The times of a record are integers or null wherever they stand. -/
structure HasTimes (fields state given : Fields) : Prop where
  reference : (fields.get "referenceInstantMs").IsTime
  run : ∀ name ∈ ["nextRunAtMs", "lastRunAtMs"], (fields.get name).IsTime ∧ (state.get name).IsTime
  instant : (given.get "atMs").IsTime

def named (fields : Fields) (schedule : Schedule) (reference : Value) : Except Error Job :=
  match fields.find? "id" with
  | some id =>
      .ok ⟨.text id.toText, (fields.find? "enabled").getD (.bool true), schedule, reference⟩
  | none => .error .missingId

/-- What is read from a record with these runs: from each of the places where a time may stand, the
first known one. -/
structure Resolves (fields given : Fields) (nextRun lastRun : Value) : Prop where
  interval : ∀ period, given.get "kind" = .text "every" →
    (given.get "everyMs").toInteger = .ok period →
    ofFields fields = named fields (.every period)
      (firstKnown [fields.get "referenceInstantMs", nextRun, lastRun.later period])
  once : ∀ n, given.get "kind" = .text "at" →
    firstKnown [given.get "atMs", nextRun, lastRun] = .int n →
    ofFields fields = named fields (.once n) (fields.get "referenceInstantMs")
  unknown : given.get "kind" = .text "at" →
    (ofFields fields = .error .instantMissing ↔
      firstKnown [given.get "atMs", nextRun, lastRun] = .null)
  cron : given.get "kind" = .text "cron" →
    ofFields fields = named fields (.cron (Schedule.cronText (given.get "expr")))
      (fields.get "referenceInstantMs")

/-! ## Runs -/

theorem runTime_cases (name : String) (fields state : Fields) :
    runTime name fields state = fields.get name ∨ runTime name fields state = state.get name := by
  unfold runTime Fields.get
  cases fields.find? name with
  | none => exact .inr rfl
  | some value => exact .inl rfl

/-- The first known time of a run is taken, unless a null hides it. -/
theorem runTime_eq_firstKnown_iff (name : String) (fields state : Fields) :
    runTime name fields state = firstKnown [fields.get name, state.get name] ↔
      ¬ HidesRun name fields state := by
  rw [firstKnown_pair, HidesRun]
  cases hf : fields.find? name with
  | none => simp [runTime, Fields.get, hf, isNull]
  | some value =>
      have hget : fields.get name = value := by rw [Fields.get, hf, Option.getD_some]
      rw [runTime, hf, Option.getD_some, hget]
      cases value with
      | null => simp [isNull, @eq_comm _ null]
      | _ => simp [isNull]

theorem isTime_runTime (h : HasTimes fields state given) (name : String)
    (hn : name ∈ ["nextRunAtMs", "lastRunAtMs"]) :
    (runTime name fields state).IsTime := by
  obtain ⟨hfields, hstate⟩ := h.run name hn
  rcases runTime_cases name fields state with he | he
  · rwa [he]
  · rwa [he]

/-! ## Schedules -/

theorem withInstant_of_kind {kind : String} (h : given.get "kind" = .text kind) (hk : kind ≠ "at") :
    withInstant given nextRun lastRun = given := by
  rw [withInstant, if_neg]
  rintro ⟨honce, -⟩
  rw [h] at honce
  exact hk (Value.text.inj honce)

theorem withInstant_of_once (h : given.get "kind" = .text "at") :
    (withInstant given nextRun lastRun).get "kind" = .text "at" ∧
      (withInstant given nextRun lastRun).get "atMs" =
        firstKnown [given.get "atMs", nextRun, lastRun] := by
  rw [firstKnown_cons, firstKnown_pair, withInstant]
  by_cases hnull : (given.get "atMs").isNull = true
  · rw [if_pos ⟨h, hnull⟩, if_pos hnull, Fields.get, Fields.find?_set_of_ne (by decide),
      ← Fields.get]
    refine ⟨h, ?_⟩
    rw [Fields.get, Fields.find?_set]
    rfl
  · rw [if_neg (fun hneeds => hnull hneeds.2), if_neg hnull]
    exact ⟨h, rfl⟩

theorem scheduleOf_every {period : Int} (hk : given.get "kind" = .text "every")
    (hp : (given.get "everyMs").toInteger = .ok period) :
    Schedule.ofFields (withInstant given nextRun lastRun) = .ok (.every period) := by
  rw [withInstant_of_kind hk (by decide), Schedule.ofFields, hk]
  show (Schedule.required (given.get "everyMs") .intervalMissing).map Schedule.every = _
  rw [Schedule.required, if_neg (not_isNull_of_toInteger hp), hp]
  rfl

theorem scheduleOf_once (hk : given.get "kind" = .text "at") :
    Schedule.ofFields (withInstant given nextRun lastRun) =
      (Schedule.required (firstKnown [given.get "atMs", nextRun, lastRun]) .instantMissing).map
        .once := by
  obtain ⟨hkind, hat⟩ := @withInstant_of_once given nextRun lastRun hk
  rw [Schedule.ofFields, hkind, ← hat]
  rfl

theorem scheduleOf_cron (hk : given.get "kind" = .text "cron") :
    Schedule.ofFields (withInstant given nextRun lastRun) =
      .ok (.cron (Schedule.cronText (given.get "expr"))) := by
  rw [withInstant_of_kind hk (by decide), Schedule.ofFields, hk]
  rfl

/-! ## References -/

theorem referenceOf_isTime {value : Value} (h : value.IsTime) : referenceOf value = .ok value := by
  rcases h with rfl | ⟨n, rfl⟩
  · rfl
  · rfl

theorem anchor_every {period : Int} {reference : Value} (hr : reference.IsTime)
    (hn : nextRun.IsTime) (hl : lastRun.IsTime) :
    anchor (.every period) reference nextRun lastRun =
      .ok (firstKnown [reference, nextRun, lastRun.later period]) := by
  rcases hr with rfl | ⟨r, rfl⟩
  · rcases hn with rfl | ⟨n, rfl⟩
    · rcases hl with rfl | ⟨l, rfl⟩
      · rfl
      · rfl
    · rfl
  · rfl

section Records

variable (hs : stateOf fields = .ok state) (hg : Fields.ofValue (fields.get "schedule") = .ok given)

include hs hg

theorem ofFields_eq_named {schedule : Schedule} {reference : Value}
    (hschedule : Schedule.ofFields (withInstant given (runTime "nextRunAtMs" fields state)
      (runTime "lastRunAtMs" fields state)) = .ok schedule)
    (hanchor : anchor schedule (fields.get "referenceInstantMs")
      (runTime "nextRunAtMs" fields state) (runTime "lastRunAtMs" fields state) = .ok reference)
    (ht : reference.IsTime) : ofFields fields = named fields schedule reference := by
  simp only [ofFields, hs, hg, hschedule, hanchor, bind, Except.bind, named]
  cases fields.find? "id" with
  | none => rfl
  | some id =>
      dsimp only
      rw [referenceOf_isTime ht]
      rfl

theorem ofFields_eq_error {error : Error}
    (hschedule : Schedule.ofFields (withInstant given (runTime "nextRunAtMs" fields state)
      (runTime "lastRunAtMs" fields state)) = .error error) : ofFields fields = .error error := by
  simp only [ofFields, hs, hg, hschedule, bind, Except.bind]

theorem ofFields_every (h : HasTimes fields state given) {period : Int}
    (hk : given.get "kind" = .text "every") (hp : (given.get "everyMs").toInteger = .ok period) :
    ofFields fields = named fields (.every period) (firstKnown [fields.get "referenceInstantMs",
      runTime "nextRunAtMs" fields state, (runTime "lastRunAtMs" fields state).later period]) := by
  have hnext := isTime_runTime h "nextRunAtMs" (by simp)
  have hlast := isTime_runTime h "lastRunAtMs" (by simp)
  refine ofFields_eq_named hs hg (scheduleOf_every hk hp) (anchor_every h.reference hnext hlast)
    (isTime_firstKnown ?_)
  simp only [List.forall_mem_cons]
  exact ⟨h.reference, hnext, isTime_later hlast period, by simp⟩

theorem ofFields_once (h : HasTimes fields state given) {n : Int}
    (hk : given.get "kind" = .text "at")
    (hn : firstKnown [given.get "atMs", runTime "nextRunAtMs" fields state,
      runTime "lastRunAtMs" fields state] = .int n) :
    ofFields fields = named fields (.once n) (fields.get "referenceInstantMs") := by
  refine ofFields_eq_named hs hg ?_ rfl h.reference
  rw [scheduleOf_once hk, hn]
  rfl

theorem ofFields_of_no_instant (hk : given.get "kind" = .text "at")
    (hn : firstKnown [given.get "atMs", runTime "nextRunAtMs" fields state,
      runTime "lastRunAtMs" fields state] = .null) :
    ofFields fields = .error .instantMissing := by
  apply ofFields_eq_error hs hg
  rw [scheduleOf_once hk, hn]
  rfl

theorem ofFields_cron (h : HasTimes fields state given) (hk : given.get "kind" = .text "cron") :
    ofFields fields = named fields (.cron (Schedule.cronText (given.get "expr")))
      (fields.get "referenceInstantMs") :=
  ofFields_eq_named hs hg (scheduleOf_cron hk) rfl h.reference

theorem resolves_runTime (h : HasTimes fields state given) :
    Resolves fields given (runTime "nextRunAtMs" fields state)
      (runTime "lastRunAtMs" fields state) := by
  constructor
  case interval => exact fun period hk hp => ofFields_every hs hg h hk hp
  case once => exact fun n hk hn => ofFields_once hs hg h hk hn
  case unknown =>
    intro hk
    refine ⟨fun herror => ?_, ofFields_of_no_instant hs hg hk⟩
    have hnext := isTime_runTime h "nextRunAtMs" (by simp)
    have hlast := isTime_runTime h "lastRunAtMs" (by simp)
    have htimes : ∀ value ∈ [given.get "atMs", runTime "nextRunAtMs" fields state,
        runTime "lastRunAtMs" fields state], value.IsTime := by
      simp only [List.forall_mem_cons]
      exact ⟨h.instant, hnext, hlast, by simp⟩
    rcases isTime_firstKnown htimes with hnull | ⟨n, hn⟩
    · exact hnull
    · -- a known instant leaves the identifier alone to be missing
      rw [ofFields_once hs hg h hk hn, named] at herror
      split at herror <;> contradiction
  case cron => exact fun hk => ofFields_cron hs hg h hk

/-- In a record whose times are integers or null, the first known time counts among all the places
of a schedule and a reference. For a run these are two places, and the first known one counts unless
a null at top level hides the other. -/
theorem first_known_times_count (h : HasTimes fields state given) :
    (∀ name, runTime name fields state = firstKnown [fields.get name, state.get name] ↔
      ¬ HidesRun name fields state) ∧
      Resolves fields given (runTime "nextRunAtMs" fields state)
        (runTime "lastRunAtMs" fields state) ∧
      (¬ HidesRun "nextRunAtMs" fields state → ¬ HidesRun "lastRunAtMs" fields state →
        Resolves fields given (firstKnown [fields.get "nextRunAtMs", state.get "nextRunAtMs"])
          (firstKnown [fields.get "lastRunAtMs", state.get "lastRunAtMs"])) := by
  have hruns := fun name => runTime_eq_firstKnown_iff name fields state
  have hresolves := resolves_runTime hs hg h
  refine ⟨hruns, hresolves, fun hnext hlast => ?_⟩
  rwa [(hruns "nextRunAtMs").2 hnext, (hruns "lastRunAtMs").2 hlast] at hresolves

end Records

/-- A null that hides nothing: the last run is found under the state, and the reference is an
interval after it. -/
theorem first_known_times_count_last :
    let schedule : Fields := [("kind", .text "every"), ("everyMs", .text "60")]
    let state : Fields := [("lastRunAtMs", .int 7)]
    let fields : Fields :=
      [("id", .text "a"), ("nextRunAtMs", .null), ("state", .record state),
        ("schedule", .record schedule)]
    ofFields fields = .ok ⟨.text "a", .bool true, .every 60, .int 67⟩ := by
  intro schedule state fields
  have htimes : HasTimes fields state schedule := by
    refine ⟨.inl rfl, ?_, .inl rfl⟩
    simp only [List.forall_mem_cons]
    exact ⟨⟨.inl rfl, .inl rfl⟩, ⟨.inl rfl, .inr ⟨7, rfl⟩⟩, by simp⟩
  have hnext : ¬ HidesRun "nextRunAtMs" fields state := fun hhides => hhides.2 rfl
  have hlast : ¬ HidesRun "lastRunAtMs" fields state := fun hhides => by cases hhides.1
  exact ((first_known_times_count rfl rfl htimes).2.2 hnext hlast).interval 60 rfl
    (by decide +kernel)

/-- The state knows the run in both records, and a null at top level hides it: one job is anchored
on its last run instead, and the other record is refused. -/
theorem null_run_hides_state :
    let schedule : Fields := [("kind", .text "every"), ("everyMs", .int 10)]
    let state : Fields := [("nextRunAtMs", .int 5), ("lastRunAtMs", .int 7)]
    let interval : Fields :=
      [("id", .text "a"), ("nextRunAtMs", .null), ("state", .record state),
        ("schedule", .record schedule)]
    let once : Fields :=
      [("id", .text "a"), ("lastRunAtMs", .null), ("state", .record [("lastRunAtMs", .int 7)]),
        ("schedule", .record [("kind", .text "at")])]
    firstKnown [interval.get "referenceInstantMs", interval.get "nextRunAtMs",
      state.get "nextRunAtMs"] = .int 5 ∧
      ofFields interval = .ok ⟨.text "a", .bool true, .every 10, .int 17⟩ ∧
      ofFields once = .error .instantMissing := by
  decide +kernel

end Job

end Almanac

import Almanac.Page
import Almanac.Proofs.Estimate.Intervals
import Almanac.Proofs.Job.Storage

/-!
# Jobs that advance

The intervals of a job are counted from its reference in both directions, so that any of its runs
will do. A job whose reference is moved by whole periods cannot be told from the job as it was.
Neither can the jobs of two records that were written at different times, one with the next run to
come and the other with the last run only: what a page shows stays as it is while the job advances.
-/

namespace Almanac

namespace Job

/-- No estimate and no page tells one job from the other: each is the same computation for both,
with the same results, look-ups and records. -/
structure RunsLike (job other : Job) : Prop where
  day : ∀ config point, Estimator.onDay config job point = Estimator.onDay config other point
  perDay : ∀ config start stop,
    Estimator.perDay config job start stop = Estimator.perDay config other start stop
  total : ∀ config start stop,
    Estimator.total config job start stop = Estimator.total config other start stop
  page : ∀ config before after anchor view,
    Page.build config (before ++ job :: after) anchor view =
      Page.build config (before ++ other :: after) anchor view

variable {job other : Job} {period : Int}

/-- Whatever is asked about a job goes through its runs on single days. -/
theorem runsLike_of_onDate (hid : job.id = other.id) (he : job.enabled = other.enabled)
    (h : ∀ config date, Estimator.onDate config job date = Estimator.onDate config other date) :
    job.RunsLike other := by
  have henabled : job.isEnabled = other.isEnabled := by rw [isEnabled, isEnabled, he]
  have hday : ∀ config point, Estimator.onDay config job point =
      Estimator.onDay config other point := by
    intro config point
    rw [Estimator.onDay, Estimator.onDay, henabled]
    simp only [h]
  have hperDay : ∀ config start stop,
      Estimator.perDay config job start stop = Estimator.perDay config other start stop := by
    intro config start stop
    simp only [Estimator.perDay, hday]
  have hrow : ∀ config range, Page.jobRow config range job = Page.jobRow config range other := by
    intro config range
    simp only [Page.jobRow, hperDay, hid]
  constructor
  case day => exact hday
  case perDay => exact hperDay
  case total =>
    intro config start stop
    simp only [Estimator.total, hperDay, hid]
  case page =>
    intro config before after anchor view
    simp only [Page.build, Cached.forEach_congr_at (hrow config _) before after]

/-! ## References -/

theorem runsLike_of_reference (hk : job.schedule = .every period) {reference : Int}
    (hr : job.integerReference? = some reference) (k : Int) :
    ({ job with reference := .int (reference + k * period) } : Job).RunsLike job := by
  refine runsLike_of_onDate ?_ ?_ fun config date => ?_
  · rfl
  · rfl
  · have hmoved := @Estimator.onDate_of_integerReference config
      { job with reference := .int (reference + k * period) } period hk (reference + k * period) rfl
      date
    rw [hmoved, Estimator.onDate_of_integerReference hk hr, Recurrence.count_add_mul]

/-! ## Records -/

def DifferInRuns (fields others : Fields) : Prop :=
  ∀ name, name ∉ ["nextRunAtMs", "lastRunAtMs", "state"] → fields.find? name = others.find? name

/-- The next run of the record is some periods away from `last`, or else unknown, and then its last
run is `last`. -/
def IsAnchoredOn (fields : Fields) (period last : Int) : Prop :=
  ∃ state, stateOf fields = .ok state ∧
    ((∃ j : Int, runTime "nextRunAtMs" fields state = .int (last + j * period)) ∨
      runTime "nextRunAtMs" fields state = .null ∧ runTime "lastRunAtMs" fields state = .int last)

variable {fields others given : Fields} {last : Int}

/-- A schedule that is read as intervals did not want for an instant. -/
theorem withInstant_of_every {nextRun lastRun : Value}
    (h : Schedule.ofFields (withInstant given nextRun lastRun) = .ok (.every period))
    (next previous : Value) :
    withInstant given next previous = given := by
  unfold withInstant at h ⊢
  by_cases hneeds : given.get "kind" = .text ScheduleKind.once.name ∧ (given.get "atMs").isNull
  · rw [if_pos hneeds] at h
    have hkind : (given.set "atMs" (firstPresent nextRun lastRun)).get "kind" =
        .text ScheduleKind.once.name := by
      rw [Fields.get, Fields.find?_set_of_ne (by decide), ← Fields.get, hneeds.1]
    rw [Schedule.ofFields, hkind, ScheduleKind.ofValue_name] at h
    have ⟨instant, hinstant⟩ := map_eq_ok_iff.1 h
    simp at hinstant
  · rw [if_neg hneeds]

/-- Without a reference of its own, an interval job is anchored on one of the runs that its record
knows. -/
theorem anchor_of_isAnchoredOn (h : IsAnchoredOn fields period last) {state : Fields}
    (hs : stateOf fields = .ok state) :
    ∃ j : Int, anchor (.every period) .null (runTime "nextRunAtMs" fields state)
      (runTime "lastRunAtMs" fields state) = .ok (.int (last + j * period)) := by
  have ⟨found, hfound, hruns⟩ := h
  rw [← Except.ok.inj (hs.symm.trans hfound)] at hruns
  cases hruns with
  | inl hnext =>
      have ⟨j, hj⟩ := hnext
      refine ⟨j, ?_⟩
      rw [hj]
      rfl
  | inr hlast =>
      refine ⟨1, ?_⟩
      rw [hlast.1, hlast.2, Int.one_mul]
      rfl

theorem reference_of_record (hj : ofFields fields = .ok job) (hk : job.schedule = .every period)
    (ha : IsAnchoredOn fields period last) :
    if (fields.get "referenceInstantMs").isNull then
      ∃ j : Int, job.reference = .int (last + j * period)
    else referenceOf (fields.get "referenceInstantMs") = .ok job.reference := by
  obtain ⟨state, -, -, anchored, hstate, -, -, hanchor, -, -, hreference, -⟩ :=
    ofFields_eq_ok_iff.1 hj
  rw [hk] at hanchor
  by_cases hnull : (fields.get "referenceInstantMs").isNull = true
  · have hvalue : fields.get "referenceInstantMs" = .null := by
      cases hv : fields.get "referenceInstantMs" with
      | null => rfl
      | _ => simp [hv, Value.isNull] at hnull
    obtain ⟨j, hrun⟩ := anchor_of_isAnchoredOn ha hstate
    rw [if_pos hnull]
    rw [hvalue, hrun] at hanchor
    rw [← Except.ok.inj hanchor] at hreference
    exact ⟨j, (Except.ok.inj hreference).symm⟩
  · rw [if_neg hnull]
    simp only [anchor, hnull] at hanchor
    rw [← Except.ok.inj hanchor] at hreference
    exact hreference

/-- Records that only differ in run times have jobs that only differ in their references. -/
theorem eq_of_differInRuns (hj : ofFields fields = .ok job) (ho : ofFields others = .ok other)
    (hk : job.schedule = .every period) (hd : DifferInRuns fields others) :
    job = { other with reference := job.reference } := by
  have ⟨_, given, id, _, _, hgiven, hschedule, _, hid, hidentifier, _, henabled⟩ :=
    ofFields_eq_ok_iff.1 hj
  have ⟨_, given', id', _, _, hgiven', hschedule', _, hid', hidentifier', _, henabled'⟩ :=
    ofFields_eq_ok_iff.1 ho
  have hgivens : given = given' := by
    rw [Fields.get, hd "schedule" (by decide), ← Fields.get, hgiven'] at hgiven
    exact (Except.ok.inj hgiven).symm
  have hids : id = id' := by
    rw [hd "id" (by decide), hid'] at hid
    exact (Option.some.inj hid).symm
  rw [hk] at hschedule
  have hread : Schedule.ofFields given = .ok (.every period) := by
    rwa [withInstant_of_every hschedule] at hschedule
  rw [← hgivens, withInstant_of_every hschedule, hread] at hschedule'
  have hsameId : job.id = other.id := by rw [hidentifier, hidentifier', hids]
  have hsameEnabled : job.enabled = other.enabled := by
    rw [henabled, henabled', hd "enabled" (by decide)]
  have hsameSchedule : job.schedule = other.schedule := hk.trans (Except.ok.inj hschedule')
  rw [← hsameId, ← hsameEnabled, ← hsameSchedule]

theorem runsLike_of_records (hj : ofFields fields = .ok job) (ho : ofFields others = .ok other)
    (hk : job.schedule = .every period) (hd : DifferInRuns fields others)
    (ha : IsAnchoredOn fields period last)
    (hb : IsAnchoredOn others period last) : job.RunsLike other := by
  have hjob := eq_of_differInRuns hj ho hk hd
  have hko : other.schedule = .every period := by rwa [hjob] at hk
  have hfirst := reference_of_record hj hk ha
  have hsecond := reference_of_record ho hko hb
  rw [Fields.get, ← hd "referenceInstantMs" (by decide), ← Fields.get] at hsecond
  by_cases hnull : (fields.get "referenceInstantMs").isNull = true
  · rw [if_pos hnull] at hfirst hsecond
    have ⟨i, hi⟩ := hfirst
    have ⟨j, hj⟩ := hsecond
    have hmoved : last + i * period = last + j * period + (i - j) * period := by
      rw [Int.sub_mul]
      omega
    have hr : other.integerReference? = some (last + j * period) := by rw [integerReference?, hj]
    rw [hjob, hi, hmoved]
    exact runsLike_of_reference hko hr (i - j)
  · rw [if_neg hnull] at hfirst hsecond
    rw [hjob, Except.ok.inj (hfirst.symm.trans hsecond)]
    exact ⟨fun _ _ => rfl, fun _ _ _ => rfl, fun _ _ _ => rfl, fun _ _ _ _ _ => rfl⟩

/-- The reference of an interval job may be moved by whole periods, and two records of one job may
be written at different times, as long as they are anchored on runs of the same recurrence: all
estimates and pages are the same. -/
theorem runs_invariant_under_phase :
    (∀ (job : Job) (period reference k : Int), job.schedule = .every period →
      job.integerReference? = some reference →
      ({ job with reference := .int (reference + k * period) } : Job).RunsLike job) ∧
    ∀ (fields others : Fields) (job other : Job) (period last : Int), ofFields fields = .ok job →
      ofFields others = .ok other → job.schedule = .every period → DifferInRuns fields others →
        IsAnchoredOn fields period last → IsAnchoredOn others period last → job.RunsLike other :=
  ⟨fun _ _ _ k hk hr => runsLike_of_reference hk hr k,
    fun _ _ _ _ _ _ hj ho hk hd ha hb => runsLike_of_records hj ho hk hd ha hb⟩

/-- A job twenty periods back, and the records of a job before its fourth run and after its
first. -/
theorem runs_invariant_under_phase_of_record :
    let job : Job := ⟨.text "a", .bool true, .every 7200000, .int 90000000⟩
    let schedule : Value := .record [("kind", .text "every"), ("everyMs", .int 60000)]
    let before : Fields :=
      [("id", .text "b"), ("schedule", schedule), ("state", .record [("nextRunAtMs", .int 180007)])]
    let after : Fields := [("id", .text "b"), ("lastRunAtMs", .int 7), ("schedule", schedule)]
    ({ job with reference := .int (90000000 + -20 * 7200000) } : Job).RunsLike job ∧
      ∃ early late : Job, ofFields before = .ok early ∧ ofFields after = .ok late ∧ early ≠ late ∧
        early.RunsLike late := by
  intro job schedule before after
  have hbefore : ofFields before = .ok ⟨.text "b", .bool true, .every 60000, .int 180007⟩ := rfl
  have hafter : ofFields after = .ok ⟨.text "b", .bool true, .every 60000, .int 60007⟩ := rfl
  have hdiffer : DifferInRuns before after := by
    intro name hname
    simp only [List.mem_cons, not_or] at hname
    simp [before, after, Fields.find?, Ne.symm hname.2.1, Ne.symm hname.2.2.1]
  have hrecords := runs_invariant_under_phase.2 before after _ _ 60000 7 hbefore hafter rfl hdiffer
    ⟨_, rfl, .inl ⟨3, rfl⟩⟩ ⟨_, rfl, .inr ⟨rfl, rfl⟩⟩
  exact ⟨runs_invariant_under_phase.1 job 7200000 90000000 (-20) rfl rfl, _, _, hbefore, hafter,
    by decide, hrecords⟩

end Job

end Almanac

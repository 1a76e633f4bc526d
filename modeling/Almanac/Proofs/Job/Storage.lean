import Almanac.Job
import Almanac.Proofs.Result

/-!
# Jobs survive storage

The record of a job has whatever the job has, and none of the places from which a missing part would
be taken. So reading it gives the job again, with its reference as an integer. A job that was read
from a record, however that was written, is in this form already: nothing is derived a second time,
and storing and reading it again changes nothing.
-/

namespace Almanac

/-! ## Schedules -/

namespace Schedule

variable {schedule : Schedule}

/-- A schedule is read back from its record, which does not want for an instant. -/
theorem ofFields_stored (h : schedule.IsStorable) (nextRun lastRun : Value) :
    ∃ fields, schedule.stored = .ok fields ∧ fields ≠ [] ∧
      Job.withInstant fields nextRun lastRun = fields ∧ ofFields fields = .ok schedule := by
  cases schedule with
  | every period => exact ⟨_, rfl, by simp, rfl, rfl⟩
  | once instant => exact ⟨_, rfl, by simp, rfl, rfl⟩
  | cron expr =>
      have hread : cronText expr = expr := by
        rcases h with rfl | h
        · rfl
        · exact cronText_of_isTrue h
      refine ⟨_, rfl, by simp, rfl, ?_⟩
      show Except.ok (cron (cronText expr)) = _
      rw [hread]
  | unsupported given => exact absurd h id

theorem isStorable_of_ofFields {fields : Fields} (h : ofFields fields = .ok schedule) :
    schedule.IsStorable := by
  obtain ⟨kind, -, h⟩ := bind_eq_ok_iff.1 h
  cases kind with
  | every =>
      obtain ⟨period, -, rfl⟩ := map_eq_ok_iff.1 h
      trivial
  | once =>
      obtain ⟨instant, -, rfl⟩ := map_eq_ok_iff.1 h
      trivial
  | cron =>
      obtain rfl := Except.ok.inj h
      exact cronText_eq _

end Schedule

/-! ## Jobs -/

namespace Job

variable {job : Job} {fields : Fields}

theorem ofFields_eq_ok_iff : ofFields fields = .ok job ↔
    ∃ state given id reference, stateOf fields = .ok state ∧
      Fields.ofValue (fields.get "schedule") = .ok given ∧
      Schedule.ofFields (withInstant given (runTime "nextRunAtMs" fields state)
        (runTime "lastRunAtMs" fields state)) = .ok job.schedule ∧
      anchor job.schedule (fields.get "referenceInstantMs") (runTime "nextRunAtMs" fields state)
        (runTime "lastRunAtMs" fields state) = .ok reference ∧
      fields.find? "id" = some id ∧ job.id = .text id.toText ∧
      referenceOf reference = .ok job.reference ∧
      job.enabled = (fields.find? "enabled").getD (.bool true) := by
  constructor
  · intro h
    obtain ⟨state, hstate, h⟩ := bind_eq_ok_iff.1 h
    obtain ⟨given, hgiven, h⟩ := bind_eq_ok_iff.1 h
    obtain ⟨schedule, hschedule, h⟩ := bind_eq_ok_iff.1 h
    obtain ⟨reference, hanchor, h⟩ := bind_eq_ok_iff.1 h
    dsimp only at h
    split at h
    · rename_i id hid
      obtain ⟨integer, hinteger, h⟩ :=
        bind_eq_ok_iff.1 (show (referenceOf reference >>= _) = .ok job from h)
      obtain rfl := Except.ok.inj h
      exact ⟨state, given, id, reference, hstate, hgiven, hschedule, hanchor, hid, rfl,
        hinteger, rfl⟩
    · contradiction
  · intro h
    rcases h with ⟨state, given, id, reference, hstate, hgiven, hschedule, hanchor, hid,
      hidentifier, hreference, henabled⟩
    refine bind_eq_ok_iff.2 ⟨state, hstate, ?_⟩
    refine bind_eq_ok_iff.2 ⟨given, hgiven, ?_⟩
    refine bind_eq_ok_iff.2 ⟨job.schedule, hschedule, ?_⟩
    refine bind_eq_ok_iff.2 ⟨reference, hanchor, ?_⟩
    rw [hid]
    refine bind_eq_ok_iff.2 ⟨.text id.toText, rfl, ?_⟩
    refine bind_eq_ok_iff.2 ⟨job.reference, hreference, ?_⟩
    rw [← henabled, ← hidentifier]
    rfl

/-! ## Storing and reading -/

/-- The job has a text for its identifier, a schedule that can be stored, and an integer or nothing
for its reference. Truth values are integers too. -/
structure IsStorable (job : Job) : Prop where
  id_text : ∃ text, job.id = .text text
  schedule_storable : job.schedule.IsStorable
  reference_integer :
    job.reference = .null ∨ (∃ n, job.reference = .int n) ∨ ∃ b, job.reference = .bool b

theorem anchor_null (schedule : Schedule) (reference : Value) :
    anchor schedule reference .null .null = .ok reference := by
  cases schedule with
  | every period => cases reference <;> rfl
  | _ => rfl

/-- The job is read back from its record, apart from its reference, which is read as an integer. -/
theorem read_stored (h : job.IsStorable) {reference : Value}
    (hr : referenceOf job.reference = .ok reference) :
    (job.stored >>= ofFields) = .ok { job with reference := reference } := by
  obtain ⟨text, hid⟩ := h.id_text
  obtain ⟨schedule, hstored, hne, hinstant, hread⟩ :=
    Schedule.ofFields_stored h.schedule_storable .null .null
  have hgiven : Fields.ofValue (.record schedule) = .ok schedule := by
    simp [Fields.ofValue, Value.isTrue, hne]
  have hschedule : Schedule.ofFields (withInstant schedule .null .null) = .ok job.schedule := by
    rw [hinstant, hread]
  have htext : job.id = .text job.id.toText := by
    rw [hid]
    rfl
  rw [stored, hstored]
  show ofFields [("id", job.id), ("enabled", job.enabled), ("schedule", .record schedule),
    ("referenceInstantMs", job.reference)] = _
  rw [ofFields_eq_ok_iff]
  exact ⟨[], schedule, job.id, job.reference, rfl, hgiven, hschedule, anchor_null _ _, rfl,
    htext, hr, rfl⟩

theorem read_stored_self (h : job.IsStorable) (hr : referenceOf job.reference = .ok job.reference) :
    (job.stored >>= ofFields) = .ok job :=
  read_stored h hr

theorem survivesStorage_of_read {read : Job} (h : (job.stored >>= ofFields) = .ok read)
    (ha : read.agrees job = true) :
    job.survivesStorage = .ok true := by
  obtain ⟨fields, hstored, hread⟩ := bind_eq_ok_iff.1 h
  refine bind_eq_ok_iff.2 ⟨fields, hstored, ?_⟩
  refine bind_eq_ok_iff.2 ⟨read, hread, ?_⟩
  rw [ha]
  rfl

theorem survivesStorage_of_isStorable (h : job.IsStorable) : job.survivesStorage = .ok true := by
  rcases h.reference_integer with hnull | ⟨n, hint⟩ | ⟨b, hbool⟩
  · exact survivesStorage_of_read (read_stored_self h (by rw [hnull]; rfl)) (agrees_self job)
  · exact survivesStorage_of_read (read_stored_self h (by rw [hint]; rfl)) (agrees_self job)
  · -- The truth value comes back as the integer it is equal to.
    refine survivesStorage_of_read (read_stored h (by rw [hbool]; rfl)) ?_
    cases b <;> simp [agrees, hbool, Value.agrees, Value.quotient?]

/-! ## Jobs of records -/

theorem referenceOf_cases {value reference : Value} (h : referenceOf value = .ok reference) :
    reference = .null ∨ ∃ n, reference = .int n := by
  unfold referenceOf at h
  split at h
  · exact .inl (Except.ok.inj h).symm
  · obtain ⟨n, -, hn⟩ := map_eq_ok_iff.1 h
    exact .inr ⟨n, hn.symm⟩

theorem reference_of_ofValue {given : Value} (h : ofValue given = .ok job) :
    job.reference = .null ∨ ∃ n, job.reference = .int n := by
  cases given with
  | record fields =>
      obtain ⟨_, _, _, _, -, -, -, -, -, -, hreference, -⟩ := ofFields_eq_ok_iff.1 h
      exact referenceOf_cases hreference
  | _ => contradiction

theorem isStorable_of_ofValue {given : Value} (h : ofValue given = .ok job) : job.IsStorable := by
  have hreference := reference_of_ofValue h
  cases given with
  | record fields =>
      obtain ⟨_, _, id, _, -, -, hschedule, -, -, hid, -, -⟩ := ofFields_eq_ok_iff.1 h
      refine ⟨⟨id.toText, hid⟩, Schedule.isStorable_of_ofFields hschedule, ?_⟩
      rcases hreference with hnull | hint
      · exact .inl hnull
      · exact .inr (.inl hint)
  | _ => contradiction

theorem referenceOf_reference {given : Value} (h : ofValue given = .ok job) :
    referenceOf job.reference = .ok job.reference := by
  rcases reference_of_ofValue h with hnull | ⟨n, hint⟩
  · rw [hnull]
    rfl
  · rw [hint]
    rfl

/-- Storing a job and reading it again gives the same job, where a truth value in place of its
reference is read as the equal integer. Whatever a job was read from, storing and reading it again
changes nothing. -/
theorem storage_round_trip :
    (∀ job : Job, job.IsStorable → job.survivesStorage = .ok true ∧
        ((∀ b, job.reference ≠ .bool b) → (job.stored >>= ofFields) = .ok job)) ∧
      ∀ (given : Value) (job : Job), ofValue given = .ok job →
        job.survivesStorage = .ok true ∧ (job.stored >>= ofFields) = .ok job := by
  refine ⟨fun job h => ⟨survivesStorage_of_isStorable h, fun hb => ?_⟩, fun given job h => ?_⟩
  · rcases h.reference_integer with hnull | ⟨n, hint⟩ | ⟨b, hbool⟩
    · exact read_stored_self h (by rw [hnull]; rfl)
    · exact read_stored_self h (by rw [hint]; rfl)
    · exact absurd hbool (hb b)
  · have hs := isStorable_of_ofValue h
    exact ⟨survivesStorage_of_isStorable hs, read_stored_self hs (referenceOf_reference h)⟩

/-- A job whose cron text is a list, switched on by a number and anchored on a truth value, and one
read from a record that gives its schedule as pairs, its period as a text and its last run under the
state. -/
theorem storage_round_trip_pairs :
    (⟨.text "a", .int 2, .cron (.list [.null]), .bool true⟩ : Job).survivesStorage = .ok true ∧
      ∃ job : Job,
        ofValue (.record [("id", .int 7),
          ("schedule",
            .list [.list [.text "kind", .text "every"], .list [.text "everyMs", .text "60"]]),
          ("state", .record [("lastRunAtMs", .bool true)])]) = .ok job ∧
        job = ⟨.text "7", .bool true, .every 60, .int 61⟩ ∧
        (job.stored >>= ofFields) = .ok job := by
  have hstorable : (⟨.text "a", .int 2, .cron (.list [.null]), .bool true⟩ : Job).IsStorable :=
    ⟨⟨"a", rfl⟩, Or.inr rfl, .inr (.inr ⟨true, rfl⟩)⟩
  refine ⟨(storage_round_trip.1 _ hstorable).1, ?_⟩
  have hread : ofValue (.record [("id", .int 7),
      ("schedule",
        .list [.list [.text "kind", .text "every"], .list [.text "everyMs", .text "60"]]),
      ("state", .record [("lastRunAtMs", .bool true)])]) =
        .ok ⟨.text "7", .bool true, .every 60, .int 61⟩ := by decide +kernel
  exact ⟨_, hread, rfl, (storage_round_trip.2 _ _ hread).2⟩

end Job

end Almanac

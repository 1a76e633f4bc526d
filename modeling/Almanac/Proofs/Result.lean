import Mathlib.Data.List.Forall2

/-!
# Computations that may fail

When a composed computation succeeds: each part does, and hands its value on. Over a list, the
values correspond to the items one by one.
-/

namespace Almanac

variable {ε α β : Type}

theorem bind_eq_ok_iff {first : Except ε α} {next : α → Except ε β} {value : β} :
    (first >>= next) = .ok value ↔ ∃ middle, first = .ok middle ∧ next middle = .ok value := by
  cases first with
  | error error => simp [bind, Except.bind]
  | ok middle => simp [bind, Except.bind]

theorem bind_eq_error_iff {first : Except ε α} {next : α → Except ε β} {error : ε} :
    (first >>= next) = .error error ↔
      first = .error error ∨ ∃ middle, first = .ok middle ∧ next middle = .error error := by
  cases first with
  | error other => simp [bind, Except.bind]
  | ok middle => simp [bind, Except.bind]

theorem map_eq_ok_iff {first : Except ε α} {f : α → β} {value : β} :
    first.map f = .ok value ↔ ∃ middle, first = .ok middle ∧ f middle = value := by
  cases first <;> simp [Except.map]

theorem exists_eq_ok_iff {result : Except ε α} : (∃ value, result = .ok value) ↔
    ∀ error, result ≠ .error error := by
  cases result <;> simp

theorem mapM_eq_ok_iff {act : α → Except ε β} {items : List α} {values : List β} :
    items.mapM act = .ok values ↔
      List.Forall₂ (fun item value => act item = .ok value) items values := by
  induction items generalizing values with
  | nil => cases values <;> simp [pure, Except.pure]
  | cons item rest ih =>
      rw [List.mapM_cons, bind_eq_ok_iff]
      constructor
      · intro h
        rcases h with ⟨value, hv, hr⟩
        rcases bind_eq_ok_iff.1 hr with ⟨others, ho, he⟩
        rw [← Except.ok.inj he]
        exact .cons hv (ih.1 ho)
      · intro h
        rcases h with _ | ⟨hv, hr⟩
        exact ⟨_, hv, bind_eq_ok_iff.2 ⟨_, ih.2 hr, rfl⟩⟩

theorem exists_of_mem_mapM {act : α → Except ε β} {items : List α} {values : List β}
    (h : items.mapM act = .ok values) :
    ∀ value ∈ values, ∃ item ∈ items, act item = .ok value := by
  have hall := mapM_eq_ok_iff.1 h
  clear h
  induction hall with
  | nil => simp
  | cons hitem _ ih =>
      refine List.forall_mem_cons.2 ⟨⟨_, List.mem_cons_self, hitem⟩, fun value hv => ?_⟩
      rcases ih value hv with ⟨item, hmem, hact⟩
      exact ⟨item, List.mem_cons_of_mem _ hmem, hact⟩

theorem mapM_eq_error_iff {act : α → Except ε β} {items : List α} {error : ε} :
    items.mapM act = .error error ↔ ∃ before item after, items = before ++ item :: after ∧
      (∀ other ∈ before, ∃ value, act other = .ok value) ∧ act item = .error error := by
  induction items with
  | nil => simp [pure, Except.pure]
  | cons head rest ih =>
      rw [List.mapM_cons, bind_eq_error_iff]
      constructor
      · intro h
        rcases h with hhead | ⟨value, hhead, hrest⟩
        · exact ⟨[], head, rest, rfl, by simp, hhead⟩
        · rcases bind_eq_error_iff.1 hrest with hrest | ⟨values, -, hpure⟩
          · rcases ih.1 hrest with ⟨before, item, after, rfl, hbefore, hitem⟩
            exact ⟨head :: before, item, after, rfl,
              List.forall_mem_cons.2 ⟨⟨value, hhead⟩, hbefore⟩, hitem⟩
          · simp [pure, Except.pure] at hpure
      · intro h
        rcases h with ⟨before, item, after, hitems, hbefore, hitem⟩
        cases before with
        | nil =>
            rcases List.cons.inj hitems with ⟨rfl, -⟩
            exact .inl hitem
        | cons first before =>
            rcases List.cons.inj hitems with ⟨rfl, hrest⟩
            rcases List.forall_mem_cons.1 hbefore with ⟨⟨value, hvalue⟩, hothers⟩
            exact .inr ⟨value, hvalue,
              bind_eq_error_iff.2 (.inl (ih.2 ⟨before, item, after, hrest, hothers, hitem⟩))⟩

theorem exists_of_mapM_eq_error {act : α → Except ε β} {items : List α} {error : ε}
    (h : items.mapM act = .error error) : ∃ item ∈ items, act item = .error error := by
  rcases mapM_eq_error_iff.1 h with ⟨before, item, after, rfl, -, hitem⟩
  exact ⟨item, List.mem_append_right before List.mem_cons_self, hitem⟩

theorem mapM_eq_error {act : α → Except ε β} {items : List α} {error : ε} (hne : items ≠ [])
    (h : ∀ item ∈ items, act item = .error error) : items.mapM act = .error error := by
  cases items with
  | nil => exact absurd rfl hne
  | cons item rest =>
      rw [List.mapM_cons]
      exact bind_eq_error_iff.2 (.inl (h item List.mem_cons_self))

theorem exists_mapM_eq_ok {act : α → Except ε β} {R : α → β → Prop} {items : List α}
    (h : ∀ item ∈ items, ∃ value, act item = .ok value ∧ R item value) :
    ∃ values, items.mapM act = .ok values ∧ List.Forall₂ R items values := by
  induction items with
  | nil => exact ⟨[], rfl, .nil⟩
  | cons item rest ih =>
      obtain ⟨hitem, hrest⟩ := List.forall_mem_cons.1 h
      obtain ⟨value, hv, hr⟩ := hitem
      obtain ⟨values, hvs, hrs⟩ := ih hrest
      refine ⟨value :: values, ?_, .cons hr hrs⟩
      rw [List.mapM_cons, hv, hvs]
      rfl

theorem exists_mapM_eq_ok_iff {act : α → Except ε β} {items : List α} :
    (∃ values, items.mapM act = .ok values) ↔ ∀ item ∈ items, ∃ value, act item = .ok value := by
  constructor
  · intro h
    rcases h with ⟨values, hvalues⟩
    have hall := mapM_eq_ok_iff.1 hvalues
    clear hvalues
    induction hall with
    | nil => simp
    | cons hitem _ ih => exact List.forall_mem_cons.2 ⟨⟨_, hitem⟩, ih⟩
  · intro h
    have htrivial : ∀ item ∈ items, ∃ value, act item = .ok value ∧ True :=
      fun item hi => by simpa using h item hi
    obtain ⟨values, hvalues, -⟩ := exists_mapM_eq_ok htrivial
    exact ⟨values, hvalues⟩

theorem mapM_eq_ok_map {act : α → Except ε β} {f : α → β} {items : List α}
    (h : ∀ item ∈ items, act item = .ok (f item)) : items.mapM act = .ok (items.map f) := by
  rw [mapM_eq_ok_iff, List.forall₂_map_right_iff, List.forall₂_same]
  exact h

end Almanac

import Mathlib.Data.List.Sort
import Almanac.Proofs.Cron.Bounds
import Almanac.Proofs.Cron.Enumeration

/-!
# The day rule as a union

Where neither the days of the month nor the weekdays are left open, a day is allowed if one of the
two fields allows it. Such an expression fires whenever one of two others does: the one that leaves
the weekday open, or the one that leaves the day of the month open. The asterisk alone leaves a
field open. A field that covers all its numbers in another way does not, and its expression then
fires on every day of its months.
-/

namespace Almanac

/-! ## Lists without repetition -/

section Lists

variable {xs ys zs : List Instant}

/-- An ascending list of what two ascending lists hold is their merge, where what both hold is kept
once. -/
theorem eq_dedup_merge (hx : xs.Pairwise (· < ·)) (hy : ys.Pairwise (· < ·))
    (hz : zs.Pairwise (· < ·))
    (hmem : ∀ t, t ∈ zs ↔ t ∈ xs ∨ t ∈ ys) : zs = (xs.merge ys (· ≤ ·)).dedup := by
  have hmerge : (xs.merge ys (· ≤ ·)).Pairwise (· ≤ ·) :=
    (hx.imp Int.le_of_lt).merge (hy.imp Int.le_of_lt)
  -- the merge repeats what both lists hold, so it ascends strictly only after that
  have hle := hmerge.sublist (List.dedup_sublist _)
  have hlt : (xs.merge ys (· ≤ ·)).dedup.Pairwise (· < ·) :=
    hle.imp₂ (fun _ _ hle hne => Int.lt_iff_le_and_ne.2 ⟨hle, hne⟩) (List.nodup_dedup _)
  apply hz.eq_of_mem_iff hlt
  intro t
  rw [hmem, List.mem_dedup, List.mem_merge]

theorem length_add_length_inter (hx : xs.Nodup) (hy : ys.Nodup) (hz : zs.Nodup)
    (hmem : ∀ t, t ∈ zs ↔ t ∈ xs ∨ t ∈ ys) :
      zs.length + (xs ∩ ys).length = xs.length + ys.length := by
  have hunion : zs.toFinset = xs.toFinset ∪ ys.toFinset := by
    ext t
    simp [hmem]
  have hinter := List.toFinset_card_of_nodup (hx.inter ys)
  rw [List.toFinset_inter] at hinter
  rw [← List.toFinset_card_of_nodup hx, ← List.toFinset_card_of_nodup hy,
    ← List.toFinset_card_of_nodup hz, ← hinter, hunion, Finset.card_union_add_card_inter]

end Lists

namespace Cron.Expression

open Almanac.Text

variable {given : String} {expression : Expression} {word : FieldKind → List Char}
  {kind : FieldKind}

/-! ## Leaving a field open -/

def spaced (parts : List (List Char)) : String := String.ofList (join ' ' parts)

def ofFieldOf (text : String) (fieldOf : FieldKind → Field) : Expression :=
  ⟨text, fieldOf .minute, fieldOf .hour, fieldOf .dayOfMonth, fieldOf .month, fieldOf .dayOfWeek⟩

/-- The expression with the asterisk in place of one of the words of its text. -/
def opened (expression : Expression) (word : FieldKind → List Char) (kind : FieldKind) :
    Expression :=
  ofFieldOf (spaced (FieldKind.inOrder.map (Function.update word kind ['*'])))
    (Function.update expression.fieldOf kind (Pattern.any.field kind))

@[simp] theorem fieldOf_ofFieldOf (text : String) (fieldOf : FieldKind → Field) :
    (ofFieldOf text fieldOf).fieldOf = fieldOf := by
  funext kind
  cases kind <;> rfl

theorem ofText_spaced {found : Expression}
    (hword : ∀ kind, word kind ≠ [] ∧ ∀ c ∈ word kind, isBlank c = false)
    (hfield : ∀ kind, field kind (word kind) = .ok (found.fieldOf kind))
    (ht : found.text = spaced (FieldKind.inOrder.map word)) :
    ofText (spaced (FieldKind.inOrder.map word)) = .ok found := by
  have hparts : ∀ part ∈ FieldKind.inOrder.map word, part ≠ [] ∧ ∀ c ∈ part, isBlank c = false := by
    intro part hp
    rcases List.mem_map.1 hp with ⟨kind, -, rfl⟩
    exact hword kind
  have hwords : words (spaced (FieldKind.inOrder.map word)).toList =
      FieldKind.inOrder.map word := by
    rw [spaced, String.toList_ofList]
    exact words_join (fun part hp => (hparts part hp).1) (fun part hp => (hparts part hp).2)
  have htext :
      found.text = String.ofList (normalized (spaced (FieldKind.inOrder.map word)).toList) := by
    rw [ht, normalized, hwords, spaced]
  exact ofText_eq_ok_iff.2 ⟨_, _, _, _, _, hwords, ofWords_eq_ok_iff.2
    ⟨htext, hfield .minute, hfield .hour, hfield .dayOfMonth, hfield .month, hfield .dayOfWeek⟩⟩

theorem ofText_opened (hw : words given.toList = FieldKind.inOrder.map word)
    (hfield : ∀ kind, field kind (word kind) = .ok (expression.fieldOf kind)) (kind : FieldKind) :
    ofText (spaced (FieldKind.inOrder.map (Function.update word kind ['*']))) =
      .ok (expression.opened word kind) := by
  have hmem : ∀ other, word other ∈ words given.toList := by
    intro other
    rw [hw]
    apply List.mem_map_of_mem
    cases other <;> decide
  apply ofText_spaced
  · intro other
    by_cases ho : other = kind
    · subst ho
      have hasterisk : isBlank '*' = false := by decide
      simp [hasterisk]
    · rw [Function.update_of_ne ho]
      exact ⟨ne_nil_of_mem_words (hmem other), not_isBlank_of_mem_words (hmem other)⟩
  · intro other
    rw [opened, fieldOf_ofFieldOf]
    by_cases ho : other = kind
    · subst ho
      rw [Function.update_self, Function.update_self]
      rfl
    · rw [Function.update_of_ne ho, Function.update_of_ne ho, hfield other]
  · rfl

/-! ## Firing with one of two open fields -/

/-- With both fields restricted, the day rule asks for what it would ask for with one of them
open. -/
theorem allows_eq_or (word : FieldKind → List Char) (hd : expression.dayOfMonth.isWildcard = false)
    (hk : expression.dayOfWeek.isWildcard = false) (minute hour dayOfMonth month dayOfWeek : Int) :
    expression.allows minute hour dayOfMonth month dayOfWeek =
      ((expression.opened word .dayOfWeek).allows minute hour dayOfMonth month dayOfWeek ||
        (expression.opened word .dayOfMonth).allows minute hour dayOfMonth month dayOfWeek) := by
  have hday : (expression.opened word .dayOfWeek).allowsDay dayOfMonth dayOfWeek =
      expression.dayOfMonth.allows dayOfMonth := by
    have hrestricted : (expression.opened word .dayOfWeek).dayOfMonth.isWildcard = false := hd
    have hopen : (expression.opened word .dayOfWeek).dayOfWeek.isWildcard = true := rfl
    rw [allowsDay, hrestricted, hopen]
    rfl
  have hweekday : (expression.opened word .dayOfMonth).allowsDay dayOfMonth dayOfWeek =
      expression.dayOfWeek.allows dayOfWeek := by
    have hopen : (expression.opened word .dayOfMonth).dayOfMonth.isWildcard = true := rfl
    have hrestricted : (expression.opened word .dayOfMonth).dayOfWeek.isWildcard = false := hk
    rw [allowsDay, hrestricted, hopen]
    rfl
  have hrule : expression.allowsDay dayOfMonth dayOfWeek =
      (expression.dayOfMonth.allows dayOfMonth || expression.dayOfWeek.allows dayOfWeek) := by
    simp [allowsDay, hd, hk]
  rw [allows, allows, allows, hday, hweekday, hrule, Bool.and_or_distrib_left]
  rfl

theorem mem_firingsOn_iff_or (word : FieldKind → List Char)
    (hd : expression.dayOfMonth.isWildcard = false)
    (hk : expression.dayOfWeek.isWildcard = false) (date : Date) (t : Instant) :
    t ∈ expression.firingsOn date ↔ t ∈ (expression.opened word .dayOfWeek).firingsOn date ∨
      t ∈ (expression.opened word .dayOfMonth).firingsOn date := by
  simp only [firingsOn, List.mem_map, minutesOn, List.mem_filter, allows_eq_or word hd hk,
    Bool.or_eq_true]
  constructor
  · intro h
    rcases h with ⟨k, ⟨hr, hday | hweekday⟩, ht⟩
    · exact .inl ⟨k, ⟨hr, hday⟩, ht⟩
    · exact .inr ⟨k, ⟨hr, hweekday⟩, ht⟩
  · intro h
    rcases h with ⟨k, ⟨hr, hday⟩, ht⟩ | ⟨k, ⟨hr, hweekday⟩, ht⟩
    · exact ⟨k, ⟨hr, .inl hday⟩, ht⟩
    · exact ⟨k, ⟨hr, .inr hweekday⟩, ht⟩

theorem count_of_firings {point : TimePoint} {times : List Instant}
    (h : expression.firings point = .ok times) :
    expression.count point = .ok times.length := by
  rcases map_eq_ok_iff.1 h with ⟨date, hd, rfl⟩
  rw [count, hd, length_firingsOn]
  rfl

/-- An expression that restricts both kinds of days fires when the one without its weekdays or the
one without its days of the month does, and once when both do. -/
theorem firings_eq_merge (h : ofText given = .ok expression)
    {minute hour dayOfMonth month dayOfWeek : List Char}
    (hw : words given.toList = [minute, hour, dayOfMonth, month, dayOfWeek])
    (hd : dayOfMonth ≠ ['*']) (hk : dayOfWeek ≠ ['*']) :
    ∃ byDay byWeekday, ofText (spaced [minute, hour, dayOfMonth, month, ['*']]) = .ok byDay ∧
      ofText (spaced [minute, hour, ['*'], month, dayOfWeek]) = .ok byWeekday ∧
      ∀ (point : TimePoint) (t : Instant), point.instant = .ok t → t.IsDated →
        ∃ all days weekdays : List Instant, expression.firings point = .ok all ∧
          byDay.firings point = .ok days ∧ byWeekday.firings point = .ok weekdays ∧
          all.Pairwise (· < ·) ∧ all = (days.merge weekdays (· ≤ ·)).dedup ∧
          expression.count point = .ok all.length ∧ byDay.count point = .ok days.length ∧
          byWeekday.count point = .ok weekdays.length ∧
          all.length + (days ∩ weekdays).length = days.length + weekdays.length := by
  obtain ⟨word, hwords, hfield⟩ := exists_words h
  have hsame : [minute, hour, dayOfMonth, month, dayOfWeek] = FieldKind.inOrder.map word :=
    hw.symm.trans hwords
  obtain ⟨rfl, rfl, rfl, rfl, rfl⟩ : minute = word .minute ∧ hour = word .hour ∧
      dayOfMonth = word .dayOfMonth ∧
      month = word .month ∧ dayOfWeek = word .dayOfWeek := by simpa [FieldKind.inOrder] using hsame
  have hday : expression.dayOfMonth.isWildcard = false :=
    Bool.eq_false_iff.2 fun hwild => hd ((field_means (hfield .dayOfMonth)).1.1 hwild)
  have hweekday : expression.dayOfWeek.isWildcard = false :=
    Bool.eq_false_iff.2 fun hwild => hk ((field_means (hfield .dayOfWeek)).1.1 hwild)
  refine ⟨expression.opened word .dayOfWeek, expression.opened word .dayOfMonth,
    ofText_opened hwords hfield .dayOfWeek, ofText_opened hwords hfield .dayOfMonth,
    fun point t ht hdated => ?_⟩
  obtain ⟨date, hdate⟩ := Instant.exists_date hdated
  have hall := firings_of_date expression ht hdate
  have hdays := firings_of_date (expression.opened word .dayOfWeek) ht hdate
  have hweekdays := firings_of_date (expression.opened word .dayOfMonth) ht hdate
  have hascending := fun e : Expression => pairwise_firingsOn e date
  have hnodup := fun e : Expression => (hascending e).imp fun hlt => Int.ne_of_lt hlt
  have hmem := mem_firingsOn_iff_or word hday hweekday date
  exact ⟨_, _, _, hall, hdays, hweekdays, hascending _,
    eq_dedup_merge (hascending _) (hascending _) (hascending _) hmem, count_of_firings hall,
    count_of_firings hdays, count_of_firings hweekdays,
    length_add_length_inter (hnodup _) (hnodup _) (hnodup _) hmem⟩

/-- On a Wednesday in December `*/1` allows the day of the month as well, so that both fire at one
time. -/
theorem firings_eq_merge_wednesday :
    ∃ expression byDay byWeekday, ofText " 0 9\t*/1 12 3 " = .ok expression ∧
      ofText "0 9 */1 12 *" = .ok byDay ∧ ofText "0 9 * 12 3" = .ok byWeekday ∧
      ∃ all days weekdays : List Instant, expression.firings (.ofInstant (-1)) = .ok all ∧
        byDay.firings (.ofInstant (-1)) = .ok days ∧
        byWeekday.firings (.ofInstant (-1)) = .ok weekdays ∧
        all = (days.merge weekdays (· ≤ ·)).dedup ∧
        all.length + (days ∩ weekdays).length = days.length + weekdays.length ∧ days = [-54000000] ∧
        weekdays = [-54000000] := by
  have hread : (ofText " 0 9\t*/1 12 3 ").isOk = true := by decide +kernel
  have hday : (ofText "0 9 */1 12 *" >>= (·.firings (.ofInstant (-1)))) = .ok [-54000000] := by
    decide +kernel
  have hweekday : (ofText "0 9 * 12 3" >>= (·.firings (.ofInstant (-1)))) = .ok [-54000000] := by
    decide +kernel
  have hw : words " 0 9\t*/1 12 3 ".toList = ["0", "9", "*/1", "12", "3"].map String.toList := by
    decide +kernel
  cases h : ofText " 0 9\t*/1 12 3 " with
  | error error => simp [h, Except.isOk, Except.toBool] at hread
  | ok expression =>
      obtain ⟨byDay, byWeekday, hd, hk, hpoints⟩ := firings_eq_merge h hw (by decide) (by decide)
      obtain ⟨all, days, weekdays, hall, hdays, hweekdays, -, hmerge, -, -, -, hlength⟩ :=
        hpoints (.ofInstant (-1)) (-1) rfl (by decide)
      have hd : ofText "0 9 */1 12 *" = .ok byDay := hd
      have hk : ofText "0 9 * 12 3" = .ok byWeekday := hk
      rw [hd] at hday
      rw [hk] at hweekday
      exact ⟨expression, byDay, byWeekday, rfl, hd, hk, all, days, weekdays, hall, hdays, hweekdays,
        hmerge, hlength, Except.ok.inj (hdays.symm.trans hday),
        Except.ok.inj (hweekdays.symm.trans hweekday)⟩

end Cron.Expression

end Almanac

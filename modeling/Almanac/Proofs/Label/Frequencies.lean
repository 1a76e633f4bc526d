import Almanac.Proofs.Label.Readings

/-!
# Labels of runs within an hour

The label of a list of minutes counts its parts, and that of a step gives the step. Behind either is
an expression that fires alike in every hour of every day, at the minutes of its field. The label of
a list is right if its parts are different numbers, but a part that repeats a number adds no run,
and a range or a step among the parts may add many. The label of a step is right below an hour. A
longer step is never taken, for it leads past the last minute.
-/

namespace Almanac

open Almanac.Cron Almanac.Text

def hourMillis : Int := 60 * minuteMillis

def Date.inHour (date : Date) (hour : Nat) (times : List Instant) : List Instant :=
  times.filter fun t => date.start + hour * hourMillis ≤ t ∧
    t < date.start + (hour + 1) * hourMillis

namespace Cron

/-! ## Lists of numbers -/

variable {kind : FieldKind} {text : List Char}

theorem Item.HasText.eq_single {item : Item} (h : item.HasText text) (hd : isDigits text = true) :
    item = .single (digitsValue text) := by
  have hnumeral := isNumeral_of_isDigits hd
  cases h with
  | single hn => rw [hn.2.2]
  | span => exact absurd (by simp) hnumeral.not_mem_dash
  | stepped => exact absurd (by simp) hnumeral.not_mem_slash
  | onward => exact absurd (by simp) hnumeral.not_mem_slash
  | spanStepped => exact absurd (by simp) hnumeral.not_mem_dash

theorem items_eq_singles {items : List Item} {parts : List (List Char)}
    (h : List.Forall₂ Item.HasText items parts) (hd : ∀ part ∈ parts, isDigits part = true) :
    items = parts.map fun part => .single (digitsValue part) := by
  induction h with
  | nil => rfl
  | cons hhead _ ih =>
      obtain ⟨hfirst, hrest⟩ := List.forall_mem_cons.1 hd
      rw [List.map_cons, ← hhead.eq_single hfirst, ← ih hrest]

namespace Expression

variable {found : Field}

theorem mem_values_of_digits (hk : kind ≠ .dayOfWeek) (h : field kind text = .ok found)
    (hd : ∀ part ∈ pieces (· == ',') text, isDigits part = true) {n : Nat} :
    n ∈ found.values ↔ n ∈ (pieces (· == ',') text).map digitsValue := by
  obtain ⟨pattern, hp, rfl⟩ := map_eq_ok_iff.1 h
  have hreads := Reader.reads_of_pattern hp
  rw [Pattern.mem_values_iff hreads.2, Pattern.meaning, if_neg hk]
  obtain ⟨htext, hvalid⟩ := hreads
  cases htext with
  | any => exact absurd (hd ['*'] (by decide)) (by decide)
  | list hf =>
      rw [pieces_of_forall₂ hvalid.1 hf] at hd ⊢
      rw [items_eq_singles hf hd]
      simp [Pattern.numbers, Item.meaning, eq_comm]

theorem pairwise_values (h : field kind text = .ok found) : found.values.Pairwise (· < ·) := by
  obtain ⟨pattern, -, rfl⟩ := map_eq_ok_iff.1 h
  exact Pattern.pairwise_values kind pattern

/-- A list of plain numbers allows as many numbers as it has parts if and only if these differ. -/
theorem length_values_of_digits (hk : kind ≠ .dayOfWeek) (h : field kind text = .ok found)
    (hd : ∀ part ∈ pieces (· == ',') text, isDigits part = true) :
    found.values.length = (pieces (· == ',') text).length ↔
      ((pieces (· == ',') text).map digitsValue).Nodup := by
  have hnodup : found.values.Nodup := (pairwise_values h).imp Nat.ne_of_lt
  have hsame : found.values.toFinset = ((pieces (· == ',') text).map digitsValue).toFinset := by
    ext n
    rw [List.mem_toFinset, List.mem_toFinset, mem_values_of_digits hk h hd]
  rw [← List.toFinset_card_of_nodup hnodup, hsame, ← List.length_map (f := digitsValue)]
  exact Multiset.toFinset_card_eq_card_iff_nodup

/-! ## Runs within an hour -/

variable {given : String} {expression : Expression} {minute : List Char}

theorem inHour_of_open (h : ofText given = .ok expression)
    (hw : words given.toList = [minute, ['*'], ['*'], ['*'], ['*']]) (date : Date) {hour : Nat}
    (hlt : hour < 24) :
    date.inHour hour (expression.firingsOn date) =
      expression.minute.values.map fun m : Nat =>
        date.start + (hour * 60 + m : Nat) * minuteMillis := by
  have hfirings : (date.inHour hour (expression.firingsOn date)).Pairwise (· < ·) :=
    (expression.lists_firingsOn date).ascending.filter _
  have hvalues : expression.minute.values.Pairwise (· < ·) :=
    pairwise_values (fields_of_words h hw).1
  have hruns : (expression.minute.values.map fun m : Nat =>
      date.start + (hour * 60 + m : Nat) * minuteMillis).Pairwise (· < ·) := by
    rw [List.pairwise_map]
    exact hvalues.imp fun hab => by
      simp only [minuteMillis, Instant]
      omega
  refine hfirings.eq_of_mem_iff hruns fun t => ?_
  simp only [Date.inHour, firingsOn, List.mem_filter, List.mem_map, decide_eq_true_eq]
  constructor
  · intro ht
    obtain ⟨⟨k, hk, rfl⟩, hlow, hhigh⟩ := ht
    obtain ⟨-, hmem⟩ := (mem_minutesOn_of_open h hw).1 hk
    simp only [hourMillis, minuteMillis, Instant] at hlow hhigh
    have hsplit : hour * 60 + k % 60 = k := by omega
    exact ⟨k % 60, hmem, by rw [hsplit]⟩
  · intro ht
    obtain ⟨m, hm, rfl⟩ := ht
    have hminute := minute_lt_of_ofText h hm
    have hmod : (hour * 60 + m) % 60 = m := by omega
    have hday : hour * 60 + m < minutesPerDay := by
      rw [minutesPerDay]
      omega
    refine ⟨⟨hour * 60 + m, (mem_minutesOn_of_open h hw).2 ⟨hday, hmod.symm ▸ hm⟩, rfl⟩, ?_⟩
    simp only [hourMillis, minuteMillis, Instant]
    omega

theorem length_inHour_of_open (h : ofText given = .ok expression)
    (hw : words given.toList = [minute, ['*'], ['*'], ['*'], ['*']]) (date : Date) {hour : Nat}
    (hlt : hour < 24) :
    (date.inHour hour (expression.firingsOn date)).length = expression.minute.values.length := by
  rw [inHour_of_open h hw date hlt, List.length_map]

theorem values_of_step {step : Nat} (hpos : 1 ≤ step)
    (hp : expression.minute.values.Pairwise (· < ·))
    (h : ∀ m, m ∈ expression.minute.values ↔ m ∈ progression 0 step 59) :
    expression.minute.values = (List.range (59 / step + 1)).map (· * step) := by
  have hmultiples : ((List.range (59 / step + 1)).map (· * step)).Pairwise (· < ·) := by
    rw [List.pairwise_map]
    exact List.pairwise_lt_range.imp fun hab => Nat.mul_lt_mul_of_pos_right hab hpos
  refine hp.eq_of_mem_iff hmultiples fun m => ?_
  rw [h, List.mem_map]
  constructor
  · intro hm
    obtain ⟨hle, k, rfl⟩ := hm
    rw [Nat.zero_add] at hle ⊢
    exact ⟨k, List.mem_range.2 (Nat.lt_succ_of_le ((Nat.le_div_iff_mul_le hpos).2 hle)), rfl⟩
  · intro hm
    obtain ⟨k, hk, rfl⟩ := hm
    have hle := Nat.le_of_lt_succ (List.mem_range.1 hk)
    exact ⟨(Nat.le_div_iff_mul_le hpos).1 hle, k, (Nat.zero_add _).symm⟩

end Expression

end Cron

namespace Label

variable {given : String} {expression : Expression}

/-- A step is taken from the start of every hour to the last multiple that the hour holds. -/
theorem inHour_of_everyMinutes (h : Expression.ofText given = .ok expression) {step : Nat}
    (hl : cronText given = .ok s!"Every {step} min") (date : Date) {hour : Nat} (hlt : hour < 24) :
    1 ≤ step ∧ date.inHour hour (expression.firingsOn date) =
      (List.range (59 / step + 1)).map fun k : Nat =>
        date.start + (hour * 60 + k * step : Nat) * minuteMillis := by
  obtain ⟨last, hw, hn⟩ :=
    hasShape_everyMinutes (hasShape_of_ofText h hl (isCaption_everyMinutes _))
  have hminute := (Expression.fields_of_words h hw).1
  obtain ⟨hpos, hmem⟩ := Expression.mem_values_of_writes_step hminute hn
  refine ⟨hpos, ?_⟩
  rw [Expression.inHour_of_open h hw date hlt,
    Expression.values_of_step hpos (Expression.pairwise_values hminute) hmem, List.map_map]
  rfl

/-- In every hour of a day of the calendar, an accepted text with a count for a label has a run for
each minute that its field allows. If all parts of the list are numbers, these are as many as the
label says just if no number is repeated. One with a step for a label runs at the start of the hour
and then at this distance, if the step is less than an hour, and does not run again if not. -/
theorem frequency_labels_tell_runs (h : Expression.ofText given = .ok expression)
    {point : TimePoint} {t : Instant} (ht : point.instant = .ok t) (hd : t.IsDated) :
    ∃ date times, Instant.date t = .ok date ∧ expression.firings point = .ok times ∧
      (∀ count : Nat, cronText given = .ok s!"{count}× per hour" →
        ∃ minute, words given.toList = [minute, ['*'], ['*'], ['*'], ['*']] ∧
          (pieces (· == ',') minute).length = count ∧
          ∀ hour < 24, (date.inHour hour times).length = expression.minute.values.length ∧
            ((∀ part ∈ pieces (· == ',') minute, isDigits part = true) →
              ((date.inHour hour times).length = count ↔
                ((pieces (· == ',') minute).map digitsValue).Nodup))) ∧
      ∀ step : Nat, cronText given = .ok s!"Every {step} min" → 1 ≤ step ∧
        ∀ hour < 24, (date.inHour hour times).head? = some (date.start + hour * hourMillis) ∧
          (date.inHour hour times).IsChain (fun a b => b - a = step * minuteMillis) ∧
          (1 < (date.inHour hour times).length ↔ step < 60) := by
  obtain ⟨date, hdate⟩ := Instant.exists_date hd
  refine ⟨date, _, hdate, Expression.firings_of_date expression ht hdate, fun count hl => ?_,
    fun step hl => ?_⟩
  · obtain ⟨minute, hw, hcount⟩ :=
      hasShape_timesPerHour (hasShape_of_ofText h hl (isCaption_timesPerHour _))
    have hminute := (Expression.fields_of_words h hw).1
    refine ⟨minute, hw, hcount, fun hour hlt => ?_⟩
    have hlength := Expression.length_inHour_of_open h hw date hlt
    refine ⟨hlength, fun hplain => ?_⟩
    rw [hlength, ← hcount]
    exact Expression.length_values_of_digits (by decide) hminute hplain
  · have hruns := fun hour hlt => @inHour_of_everyMinutes _ _ h step hl date hour hlt
    have hpos : 1 ≤ step := (hruns 0 (by decide)).1
    refine ⟨hpos, fun hour hlt => ?_⟩
    rw [(hruns hour hlt).2]
    refine ⟨?_, ?_, ?_⟩
    · rw [List.range_succ_eq_map, List.map_cons, List.head?_cons]
      simp only [hourMillis, minuteMillis, Instant, Option.some.injEq]
      omega
    · rw [List.isChain_map, List.isChain_range_succ]
      intro k _
      rw [Nat.succ_mul, ← Nat.add_assoc]
      simp only [minuteMillis, Instant]
      omega
    · rw [List.length_map, List.length_range, Nat.lt_add_left_iff_pos, Nat.div_pos_iff]
      omega

/-- A list of two different numbers, one of them with a leading zero. -/
theorem frequency_labels_tell_runs_at_epoch :
    ∃ expression date times, Expression.ofText "13,043 * * * *" = .ok expression ∧
      cronText "13,043 * * * *" = .ok "2× per hour" ∧ Instant.date 0 = .ok date ∧
        expression.firings (.ofInstant 0) = .ok times ∧ ∀ hour < 24,
          (date.inHour hour times).length = 2 := by
  obtain ⟨expression, h⟩ : ∃ expression, Expression.ofText "13,043 * * * *" = .ok expression :=
    ⟨_, rfl⟩
  have hlabel : cronText "13,043 * * * *" = .ok "2× per hour" := by decide +kernel
  have hwords : words "13,043 * * * *".toList =
      ["13,043", "*", "*", "*", "*"].map String.toList := by decide +kernel
  obtain ⟨date, times, hdate, htimes, hcount, -⟩ :=
    @frequency_labels_tell_runs _ _ h (.ofInstant 0) _ rfl (by decide)
  obtain ⟨minute, hw, -, hruns⟩ := hcount 2 (hlabel.trans (by decide +kernel))
  obtain rfl : minute = "13,043".toList := (List.cons.inj (hw.symm.trans hwords)).1
  have htwo : ∀ hour < 24, (date.inHour hour times).length = 2 :=
    fun hour hlt => ((hruns hour hlt).2 (by decide)).2 (by decide)
  exact ⟨expression, date, times, h, hlabel, hdate, htimes, htwo⟩

def runsInHour (given : String) (point : TimePoint) (hour : Nat) : Except Error (List Instant) := do
  let expression ← Expression.ofText given
  let date ← point.date
  return date.inHour hour (← expression.firings point)

/-- A number twice, a range among the parts, and a step beyond the hour: the labels promise two
runs, two runs, and one in ninety minutes. -/
theorem frequency_labels_mislead :
    cronText "1,1 * * * *" = .ok "2× per hour" ∧
    runsInHour "1,1 * * * *" (.ofInstant 0) 0 = .ok [60000] ∧
    cronText "0-5,30 * * * *" = .ok "2× per hour" ∧
      (runsInHour "0-5,30 * * * *" (.ofInstant 0) 0).map List.length = .ok 7 ∧
    cronText "*/90 * * * *" = .ok "Every 90 min" ∧
    runsInHour "*/90 * * * *" (.ofInstant 0) 1 = .ok [3600000] := by
  decide +kernel

end Label

end Almanac

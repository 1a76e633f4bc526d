import Mathlib.Data.Finset.Prod
import Almanac.Proofs.Calendar.Days
import Almanac.Proofs.Cron.Bounds

/-!
# How often an expression fires on a day

All the firings of a day share its date, so the date is looked at once: either it is not allowed and
nothing fires, or each allowed hour goes with each allowed minute. The number of firings is then a
product. Which dates are allowed depends on the month and on the day rule, which is stated on the
words of the text.
-/

namespace Almanac.Cron

open Almanac.Text

/-! ## Hours and minutes -/

def minutesAt (hours minutes : Finset Nat) : Finset Nat :=
  (hours ×ˢ minutes).image fun time => time.1 * 60 + time.2

section Times

variable {hours minutes : Finset Nat}

theorem mem_minutesAt_iff (h : ∀ m ∈ minutes, m < 60) {k : Nat} :
    k ∈ minutesAt hours minutes ↔ k % 60 ∈ minutes ∧ k / 60 ∈ hours := by
  simp only [minutesAt, Finset.mem_image, Finset.mem_product]
  constructor
  · intro hk
    rcases hk with ⟨⟨o, m⟩, ⟨ho, hm⟩, rfl⟩
    have hlt := h m hm
    have hminute : (o * 60 + m) % 60 = m := by omega
    have hhour : (o * 60 + m) / 60 = o := by omega
    rw [hminute, hhour]
    exact ⟨hm, ho⟩
  · intro hk
    rcases hk with ⟨hm, ho⟩
    exact ⟨(k / 60, k % 60), ⟨ho, hm⟩, Nat.div_add_mod' k 60⟩

theorem card_minutesAt (h : ∀ m ∈ minutes, m < 60) :
    (minutesAt hours minutes).card = minutes.card * hours.card := by
  have hinj : Set.InjOn (fun time : Nat × Nat => time.1 * 60 + time.2)
      (hours ×ˢ minutes : Finset (Nat × Nat)) := by
    intro a ha b hb hab
    have halt := h a.2 (Finset.mem_product.1 ha).2
    have hblt := h b.2 (Finset.mem_product.1 hb).2
    dsimp only at hab
    exact Prod.ext (by omega) (by omega)
  rw [minutesAt, Finset.card_image_of_injOn hinj, Finset.card_product, Nat.mul_comm]

end Times

namespace Expression

variable {given : String} {expression : Expression} {date : Date}

def AllowsDate (expression : Expression) (date : Date) : Prop :=
  expression.month.allows date.month = true ∧ expression.allowsDay date.day date.weekday = true

theorem minute_lt_of_ofText (h : ofText given = .ok expression) {m : Nat}
    (hm : m ∈ expression.minute.values) :
    m < 60 :=
  Nat.lt_succ_of_le (@bounds_of_ofText .minute _ _ h _ hm).2

theorem hour_lt_of_ofText (h : ofText given = .ok expression) {o : Nat}
    (ho : o ∈ expression.hour.values) : o < 24 :=
  Nat.lt_succ_of_le (@bounds_of_ofText .hour _ _ h _ ho).2

theorem mem_minutesOn_iff_mem_values (h : ofText given = .ok expression) {k : Nat} :
    k ∈ expression.minutesOn date ↔
      expression.AllowsDate date ∧ k % 60 ∈ expression.minute.values ∧
      k / 60 ∈ expression.hour.values := by
  simp only [minutesOn, minutesPerDay, List.mem_filter, List.mem_range, allows, Bool.and_eq_true,
    Field.allows_iff, AllowsDate]
  constructor
  · intro hk
    obtain ⟨-, ⟨⟨hm, ho⟩, hmonth⟩, hday⟩ := hk
    exact ⟨⟨hmonth, hday⟩, hm, ho⟩
  · intro hk
    obtain ⟨⟨hmonth, hday⟩, hm, ho⟩ := hk
    have hhour := hour_lt_of_ofText h ho
    exact ⟨by omega, ⟨⟨hm, ho⟩, hmonth⟩, hday⟩

theorem nodup_minutesOn (expression : Expression) (date : Date) :
    (expression.minutesOn date).Nodup :=
  List.nodup_range.filter _

/-- On a date that is allowed, each allowed hour goes with each allowed minute. -/
theorem countOn_of_allowsDate (h : ofText given = .ok expression)
    (ha : expression.AllowsDate date) :
    expression.countOn date = expression.minute.values.toFinset.card *
      expression.hour.values.toFinset.card := by
  have hlt : ∀ m ∈ expression.minute.values.toFinset, m < 60 :=
    fun m hm => minute_lt_of_ofText h (List.mem_toFinset.1 hm)
  have hminutes : (expression.minutesOn date).toFinset =
      minutesAt expression.hour.values.toFinset expression.minute.values.toFinset := by
    ext k
    rw [mem_minutesAt_iff hlt, List.mem_toFinset, List.mem_toFinset, List.mem_toFinset,
      mem_minutesOn_iff_mem_values h, and_iff_right ha]
  rw [countOn, ← List.toFinset_card_of_nodup (nodup_minutesOn expression date), hminutes,
    card_minutesAt hlt]

theorem countOn_of_not_allowsDate (h : ofText given = .ok expression)
    (ha : ¬ expression.AllowsDate date) :
    expression.countOn date = 0 := by
  rw [countOn, List.length_eq_zero_iff, List.eq_nil_iff_forall_not_mem]
  intro k hk
  exact ha ((mem_minutesOn_iff_mem_values h).1 hk).1

/-! ## The day rule -/

/-- Both days must be allowed if one of the two words is the asterisk, else one of the days is
enough. -/
def DayRule (word : FieldKind → List Char) (expression : Expression) (date : Date) : Prop :=
  if word .dayOfMonth = ['*'] ∨ word .dayOfWeek = ['*'] then
    date.day ∈ expression.dayOfMonth.values ∧ date.weekday ∈ expression.dayOfWeek.values
  else date.day ∈ expression.dayOfMonth.values ∨ date.weekday ∈ expression.dayOfWeek.values

instance (word : FieldKind → List Char) (expression : Expression) (date : Date) :
    Decidable (expression.DayRule word date) := by
  unfold DayRule
  infer_instance

theorem allowsDay_iff {dayOfMonth dayOfWeek : Int} :
    expression.allowsDay dayOfMonth dayOfWeek = true ↔
      if expression.dayOfMonth.isWildcard = true ∨ expression.dayOfWeek.isWildcard = true then
        (expression.dayOfMonth.isWildcard = true ∨ expression.dayOfMonth.allows dayOfMonth = true) ∧
          (expression.dayOfWeek.isWildcard = true ∨ expression.dayOfWeek.allows dayOfWeek = true)
      else
        expression.dayOfMonth.allows dayOfMonth = true ∨
          expression.dayOfWeek.allows dayOfWeek = true := by
  cases hd : expression.dayOfMonth.isWildcard <;> cases hw : expression.dayOfWeek.isWildcard <;>
    simp [allowsDay, hd, hw]

theorem day_mem_of_asterisk {found : Field} (h : field .dayOfMonth ['*'] = .ok found)
    (date : Date) :
    date.day ∈ found.values := by
  apply mem_values_of_asterisk h
  have hlast := (monthLength_bounds date.month_bounds date.year).2
  exact ⟨date.day_bounds.1, Nat.le_trans date.day_bounds.2 hlast⟩

theorem weekday_mem_of_asterisk {found : Field} (h : field .dayOfWeek ['*'] = .ok found)
    (date : Date) :
    date.weekday ∈ found.values := by
  apply mem_values_of_asterisk h
  exact ⟨Nat.zero_le _, Nat.le_of_lt_succ date.weekday_lt⟩

/-- The asterisk allows every day, so that next to it the other field alone decides. -/
theorem allowsDay_iff_dayRule {word : FieldKind → List Char}
    (h : ∀ kind, field kind (word kind) = .ok (expression.fieldOf kind)) (date : Date) :
    expression.allowsDay date.day date.weekday = true ↔ expression.DayRule word date := by
  have hday : expression.dayOfMonth.isWildcard = true ↔ word .dayOfMonth = ['*'] :=
    (field_means (h .dayOfMonth)).1
  have hweekday : expression.dayOfWeek.isWildcard = true ↔ word .dayOfWeek = ['*'] :=
    (field_means (h .dayOfWeek)).1
  have hanyDay : word .dayOfMonth = ['*'] → date.day ∈ expression.dayOfMonth.values :=
    fun ha => day_mem_of_asterisk (ha ▸ h .dayOfMonth) date
  have hanyWeekday : word .dayOfWeek = ['*'] → date.weekday ∈ expression.dayOfWeek.values :=
    fun ha => weekday_mem_of_asterisk (ha ▸ h .dayOfWeek) date
  simp only [allowsDay_iff, hday, hweekday, Field.allows_iff, or_iff_right_of_imp hanyDay,
    or_iff_right_of_imp hanyWeekday, DayRule]

theorem month_mem_of_asterisk {found : Field} (h : field .month ['*'] = .ok found) (date : Date) :
    date.month ∈ found.values :=
  mem_values_of_asterisk h date.month_bounds

theorem allowsDate_iff_of_any_day (h : ofText given = .ok expression)
    (hday : field .dayOfMonth ['*'] = .ok expression.dayOfMonth) :
    expression.AllowsDate date ↔
      date.month ∈ expression.month.values ∧ date.weekday ∈ expression.dayOfWeek.values := by
  obtain ⟨word, -, hfield⟩ := exists_words h
  have hasterisk : word .dayOfMonth = ['*'] :=
    (field_means (hfield .dayOfMonth)).1.1 ((field_means hday).1.2 rfl)
  have hdays := day_mem_of_asterisk hday date
  rw [AllowsDate, allowsDay_iff_dayRule hfield, Field.allows_iff, DayRule, if_pos (.inl hasterisk),
    and_iff_right hdays]

theorem allowsDate_iff_weekday (h : ofText given = .ok expression)
    (hday : field .dayOfMonth ['*'] = .ok expression.dayOfMonth)
    (hmonth : field .month ['*'] = .ok expression.month) :
    expression.AllowsDate date ↔ date.weekday ∈ expression.dayOfWeek.values := by
  rw [allowsDate_iff_of_any_day h hday, and_iff_right (month_mem_of_asterisk hmonth date)]

/-- On a day, an accepted expression fires once for each pair of an allowed minute and an allowed
hour if it allows the month and the day rule holds, and not at all if not. -/
theorem count_eq_card_mul_card (h : ofText given = .ok expression) :
    ∃ word : FieldKind → List Char, words given.toList = FieldKind.inOrder.map word ∧
      ∀ (point : TimePoint) (t : Instant), point.instant = .ok t → t.IsDated →
        ∃ date, Instant.date t = .ok date ∧
          expression.count point = .ok (
            if date.month ∈ expression.month.values ∧ expression.DayRule word date then
              expression.minute.values.toFinset.card * expression.hour.values.toFinset.card
            else 0) := by
  obtain ⟨word, hw, hfield⟩ := exists_words h
  refine ⟨word, hw, ?_⟩
  intro point t ht hdated
  obtain ⟨date, hd⟩ := Instant.exists_date hdated
  have hpoint : point.date = .ok date := bind_eq_ok_iff.2 ⟨t, ht, hd⟩
  have hallows : expression.AllowsDate date ↔
      date.month ∈ expression.month.values ∧ expression.DayRule word date :=
    and_congr Field.allows_iff (allowsDay_iff_dayRule hfield date)
  refine ⟨date, hd, ?_⟩
  rw [count, hpoint]
  by_cases ha : expression.AllowsDate date
  · rw [if_pos (hallows.1 ha), ← countOn_of_allowsDate h ha]
    rfl
  · rw [if_neg (mt hallows.2 ha), ← countOn_of_not_allowsDate h ha]
    rfl

/-- A Friday before the epoch that is not the thirteenth, with a minute that is written twice. -/
theorem count_eq_card_mul_card_friday :
    ∃ expression, ofText "*/20,05,5 9-12/3 13 2-12/5,12 5" = .ok expression ∧
      expression.minute.values = [0, 5, 20, 40] ∧ expression.hour.values = [9, 12] ∧
        expression.count (.ofInstant (-518399999)) = .ok 8 := by
  have hread : (ofText "*/20,05,5 9-12/3 13 2-12/5,12 5").map
      (fun e => (e.minute.values, e.hour.values, e.month.values, e.dayOfWeek.values)) =
      .ok ([0, 5, 20, 40], [9, 12], [2, 7, 12], [5]) := by decide +kernel
  have hwords : words "*/20,05,5 9-12/3 13 2-12/5,12 5".toList =
      ["*/20,05,5", "9-12/3", "13", "2-12/5,12", "5"].map String.toList := by decide +kernel
  have hfriday : (Instant.date (-518399999)).map (fun date => (date.month, date.weekday)) =
      .ok (12, 5) := by
    decide +kernel
  obtain ⟨expression, h, hvalues⟩ := map_eq_ok_iff.1 hread
  obtain ⟨hminute, hhour, hmonth, hweekday⟩ : _ ∧ _ ∧ _ ∧ _ := by
    simpa only [Prod.mk.injEq] using hvalues
  obtain ⟨word, hw, hcount⟩ := count_eq_card_mul_card h
  obtain ⟨date, hdate, hcard⟩ := hcount (.ofInstant (-518399999)) (-518399999) rfl (by decide)
  rw [hdate] at hfriday
  obtain ⟨hdecember, hfive⟩ := Prod.mk.inj (Except.ok.inj hfriday)
  rw [hwords] at hw
  have hthirteen : "13".toList = word .dayOfMonth := Option.some.inj (congrArg (·[2]?) hw)
  have hfifth : "5".toList = word .dayOfWeek := Option.some.inj (congrArg (·[4]?) hw)
  have hrule : expression.DayRule word date := by
    simp [DayRule, ← hthirteen, ← hfifth, hfive, hweekday]
  rw [if_pos ⟨by simp [hdecember, hmonth], hrule⟩, hminute, hhour] at hcard
  exact ⟨expression, h, hminute, hhour, hcard⟩

end Expression

end Almanac.Cron

import Almanac.Error

/-!
# Dates

A date is a valid year, month and day of the Gregorian calendar in the years 1 to 9999. Its day
number counts days from 1970-01-01. `ofDayNumber?` finds the date of a day number by splitting the
day count into a year, a month and a rest.
-/

namespace Almanac

/-- Every fourth year is a leap year; of the centuries only those that 400 divides. -/
def isLeap (year : Nat) : Bool := year % 4 == 0 && (year % 100 != 0 || year % 400 == 0)

def monthLengths (leap : Bool) : List Nat :=
  [31, if leap then 29 else 28, 31, 30, 31, 30, 31, 31, 30, 31, 30, 31]

def monthLength (year month : Nat) : Nat := (monthLengths (isLeap year)).getD (month - 1) 0

theorem monthLength_bounds {month : Nat} (h : 1 ≤ month ∧ month ≤ 12) (year : Nat) :
    28 ≤ monthLength year month ∧ monthLength year month ≤ 31 := by
  obtain ⟨low, high⟩ := h
  have hm : month ∈ [1, 2, 3, 4, 5, 6, 7, 8, 9, 10, 11, 12] := by
    simp only [List.mem_cons, List.not_mem_nil, or_false]
    omega
  cases hl : isLeap year <;>
    · simp only [List.mem_cons, List.not_mem_nil, or_false] at hm
      rcases hm with h | h | h | h | h | h | h | h | h | h | h | h <;> subst h <;>
        simp [monthLength, monthLengths, hl]

structure Date where
  year : Nat
  month : Nat
  day : Nat
  year_bounds : 1 ≤ year ∧ year ≤ 9999
  month_bounds : 1 ≤ month ∧ month ≤ 12
  day_bounds : 1 ≤ day ∧ day ≤ monthLength year month
deriving DecidableEq, Repr

namespace Date

def ofFields? (year month day : Int) : Option Date :=
  let y := year.toNat
  let m := month.toNat
  let d := day.toNat
  if h : (1 ≤ y ∧ y ≤ 9999) ∧ (1 ≤ m ∧ m ≤ 12) ∧ 1 ≤ d ∧ d ≤ monthLength y m then
    some ⟨y, m, d, h.1, h.2.1, h.2.2⟩
  else none

/-- Days from 0001-01-01 to the first of January of a year. -/
def daysBeforeYear (year : Nat) : Nat :=
  (year - 1) * 365 + (year - 1) / 4 - (year - 1) / 100 + (year - 1) / 400

def daysOf (lengths : List Nat) : Nat := lengths.foldr (· + ·) 0

@[simp] theorem daysOf_nil : daysOf [] = 0 := rfl

@[simp] theorem daysOf_cons (length : Nat) (lengths : List Nat) :
    daysOf (length :: lengths) = length + daysOf lengths := rfl

def daysBeforeMonth (year month : Nat) : Nat :=
  daysOf ((monthLengths (isLeap year)).take (month - 1))

/-- Days from 0001-01-01 to 1970-01-01. -/
def epochOrdinal : Nat := 719162

def lastOrdinal : Nat := 3652058

/-- Days from 0001-01-01. -/
def ordinal (date : Date) : Nat :=
  daysBeforeYear date.year + daysBeforeMonth date.year date.month + (date.day - 1)

/-- Days from 1970-01-01, negative before it. -/
def dayNumber (date : Date) : Int := date.ordinal - epochOrdinal

/-- The year in which a day lies that is `ordinal` days after 0001-01-01: the mean length of a year
gives it up to one. -/
def yearOfOrdinal (ordinal : Nat) : Nat :=
  let year := ordinal * 400 / 146097 + 1
  if ordinal < daysBeforeYear year then year - 1
  else if daysBeforeYear (year + 1) ≤ ordinal then year + 1
  else year

/-- The block in which a position lies when blocks of the given lengths follow one another, and the
position within it. -/
def locate : List Nat → Nat → Option (Nat × Nat)
  | [], _ => none
  | length :: rest, position =>
      if position < length then some (0, position)
      else (locate rest (position - length)).map fun found => (found.1 + 1, found.2)

def ofOrdinal? (ordinal : Nat) : Option Date :=
  let year := yearOfOrdinal ordinal
  match locate (monthLengths (isLeap year)) (ordinal - daysBeforeYear year) with
  | some (month, day) => ofFields? year (month + 1) (day + 1)
  | none => none

def ofDayNumber? (number : Int) : Option Date :=
  let ordinal := number + epochOrdinal
  if 0 ≤ ordinal ∧ ordinal ≤ lastOrdinal then ofOrdinal? ordinal.toNat else none

/-- Days since the last Sunday: zero on Sunday, six on Saturday. -/
def weekday (date : Date) : Nat := ((date.dayNumber + 4) % 7).toNat

def addDays (date : Date) (n : Int) : Except Error Date :=
  match ofDayNumber? (date.dayNumber + n) with
  | some later => .ok later
  | none => .error .outsideCalendar

def firstOfMonth (date : Date) : Date :=
  { date with
    day := 1
    day_bounds :=
      ⟨Nat.le_refl 1, Nat.le_trans (by decide) (monthLength_bounds date.month_bounds date.year).1⟩ }

def firstOfYear (date : Date) : Date :=
  ⟨date.year, 1, 1, date.year_bounds, by decide,
    Nat.le_refl 1, Nat.le_trans (by decide) (monthLength_bounds (by decide) date.year).1⟩

def lastOfYear (date : Date) : Date :=
  ⟨date.year, 12, 31, date.year_bounds, by decide, by decide, Nat.le_refl 31⟩

/-- The first day of a month, where months beyond a year's twelve carry into the year. -/
def monthStart (year month : Int) : Except Error Date :=
  let carried := year + (month - 1) / 12
  if carried < -0x80000000 ∨ 0x80000000 ≤ carried then .error .yearTooWide
  else
    match ofFields? carried ((month - 1) % 12 + 1) 1 with
    | some date => .ok date
    | none => .error .noSuchYear

def addMonths (date : Date) (n : Int) : Except Error Date := monthStart date.year (date.month + n)

def addYears (date : Date) (n : Int) : Except Error Date := monthStart (date.year + n) date.month

/-- A month ends on the day before the next one starts, and December with its year. -/
def endOfMonth (date : Date) : Except Error Date :=
  if date.month = 12 then .ok date.lastOfYear
  else do
    let next ← date.addMonths 1
    next.addDays (-1)

def startOfWeek (date : Date) : Except Error Date := date.addDays (-date.weekday)

end Date

end Almanac

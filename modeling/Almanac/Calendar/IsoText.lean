import Almanac.Calendar.DateTime

/-!
# Dates and times as text

Dates are written as year, month and day with four, two and two digits. A universal date and time is
followed by the offset `+00:00`, and shows six digits of a second's fraction unless it is zero.
`ofText?` and `Date.ofText?` read what is written.
-/

namespace Almanac

open Almanac.Text

namespace Date

def text (date : Date) : List Char :=
  fixed 4 date.year ++ '-' :: fixed 2 date.month ++ '-' :: fixed 2 date.day

def digits? (text : List Char) : Option Nat :=
  if isDigits text then some (digitsValue text) else none

def ofText? : List Char → Option Date
  | [a, b, c, d, '-', e, f, '-', g, h] => do
      let year ← digits? [a, b, c, d]
      let month ← digits? [e, f]
      let day ← digits? [g, h]
      ofFields? year month day
  | _ => none

end Date

namespace TimeOfDay

def fractionText (time : TimeOfDay) : List Char :=
  if time.microsecond = 0 then [] else '.' :: fixed 6 time.microsecond

def text (time : TimeOfDay) : List Char :=
  fixed 2 time.hour ++ ':' :: fixed 2 time.minute ++ ':' :: fixed 2 time.second ++ time.fractionText

end TimeOfDay

namespace DateTime

def utcMark : List Char := ['+', '0', '0', ':', '0', '0']

def text (dateTime : DateTime) : List Char :=
  dateTime.date.text ++ 'T' :: dateTime.time.text ++ utcMark

def fraction? : List Char → Option (Nat × List Char)
  | '.' :: a :: b :: c :: d :: e :: f :: rest =>
      (Date.digits? [a, b, c, d, e, f]).map fun micros => (micros, rest)
  | rest => some (0, rest)

/-- The microseconds since 1970-01-01T00:00 that a written date and time stands for. -/
def ofText? (text : List Char) : Option Int :=
  match text.drop 10 with
  | 'T' :: a :: b :: ':' :: c :: d :: ':' :: e :: f :: rest => do
      let date ← Date.ofText? (text.take 10)
      let hour ← Date.digits? [a, b]
      let minute ← Date.digits? [c, d]
      let second ← Date.digits? [e, f]
      let (micros, rest) ← fraction? rest
      if rest = utcMark then
        some (date.dayNumber * TimeOfDay.microsPerDay +
          (((hour * 60 + minute) * 60 + second) * 1000000 + micros : Nat))
      else none
  | _ => none

end DateTime

end Almanac

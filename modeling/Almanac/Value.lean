import Almanac.Number.Arithmetic
import Almanac.Number.Decimal
import Almanac.Text.Quoted

/-!
# Stored values

What a job store holds: nothing, truth values, integers, floating-point numbers, texts, lists and
records. A record keeps its fields in the order they were written, and no two have one name. Every
value counts as true or as empty, and has a text.

An integer is written with all of its digits. Left out is the limit on how many digits of an integer
may be written, which no integer read from a text exceeds: numerals of more than `digitLimit` digits
are refused when they are read.
-/

namespace Almanac

inductive Value where
  | null
  | bool (b : Bool)
  | int (n : Int)
  | real (x : Binary64)
  | text (s : String)
  | list (items : List Value)
  | record (fields : List (String × Value))

namespace Value

open Almanac.Text

/-- Nothing, false, zero, and empty texts, lists and records do not count as true. -/
def isTrue : Value → Bool
  | .null => false
  | .bool b => b
  | .int n => n ≠ 0
  | .real x => !x.isZero
  | .text s => s ≠ ""
  | .list items => !items.isEmpty
  | .record fields => !fields.isEmpty

def isNull : Value → Bool
  | .null => true
  | _ => false

/-- Floating-point numbers are written positionally below `10 ^ 16`, and whole ones end in `.0`. -/
def realLayout : Decimal.Layout := ⟨16, true⟩

def realText : Binary64 → List Char
  | .finite negative mantissa exponent =>
      let magnitude :=
        if mantissa = 0 then realLayout.zero
        else realLayout.write (Decimal.shortest mantissa exponent)
      if negative then '-' :: magnitude else magnitude
  | .infinite negative => if negative then "-inf".toList else "inf".toList
  | .undefined => "nan".toList

mutual

/-- The text of a value inside another one, where texts are quoted. -/
def inner : Value → List Char
  | .null => "None".toList
  | .bool b => if b then "True".toList else "False".toList
  | .int n => (toString n).toList
  | .real x => realText x
  | .text s => quoted s.toList
  | .list items => '[' :: innerItems items ++ [']']
  | .record fields => '\x7b' :: innerFields fields ++ ['\x7d']

def innerItems : List Value → List Char
  | [] => []
  | [item] => inner item
  | item :: next :: rest => inner item ++ ',' :: ' ' :: innerItems (next :: rest)

def innerFields : List (String × Value) → List Char
  | [] => []
  | [(name, value)] => quoted name.toList ++ ':' :: ' ' :: inner value
  | (name, value) :: next :: rest =>
      quoted name.toList ++ ':' :: ' ' :: inner value ++ ',' :: ' ' :: innerFields (next :: rest)

end

def toText : Value → String
  | .text s => s
  | value => String.ofList value.inner

def toQuoted (value : Value) : String := String.ofList value.inner

def kindName : Value → String
  | .null => "NoneType"
  | .bool _ => "bool"
  | .int _ => "int"
  | .real _ => "float"
  | .text _ => "str"
  | .list _ => "list"
  | .record _ => "dict"

end Value

abbrev Fields := List (String × Value)

namespace Fields

def find? (name : String) : Fields → Option Value
  | [] => none
  | field :: rest => if field.1 = name then some field.2 else find? name rest

/-- The value of a field; a missing one counts as null. -/
def get (name : String) (fields : Fields) : Value := (find? name fields).getD .null

/-- A field is replaced in its place, or else added at the end. -/
def set (name : String) (value : Value) : Fields → Fields
  | [] => [(name, value)]
  | field :: rest => if field.1 = name then (name, value) :: rest else field :: set name value rest

@[simp] theorem find?_set (name : String) (value : Value) (fields : Fields) :
    find? name (set name value fields) = some value := by
  induction fields with
  | nil => simp [set, find?]
  | cons field rest ih =>
      by_cases h : field.1 = name
      · simp [set, find?, h]
      · simp [set, find?, h, ih]

theorem find?_set_of_ne {name other : String} (h : other ≠ name) (value : Value) (fields : Fields) :
    find? other (set name value fields) = find? other fields := by
  induction fields with
  | nil => simp [set, find?, h.symm]
  | cons field rest ih =>
      by_cases hn : field.1 = name
      · simp [set, find?, hn, h.symm]
      · by_cases ho : field.1 = other
        · simp [set, find?, ho, h]
        · simp [set, find?, hn, ho, ih]

end Fields

end Almanac

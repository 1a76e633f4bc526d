import Almanac.Cron.Pattern
import Almanac.Value.Integer

/-!
# Reading cron fields

A field is read item by item from the left, and the first fault decides. The step of an item is
looked at before its numbers, and both ends of a range before their order. Numbers are ASCII digits;
a number of more than `digitLimit` digits is refused without being a fault of the text.
-/

namespace Almanac.Cron

open Almanac.Text

inductive Refusal where
  | fault (cause : Fault)
  | numeralTooLong
deriving DecidableEq, Repr

def Refusal.error (expression : String) : Refusal → Error
  | .fault cause => .cron ⟨expression, cause⟩
  | .numeralTooLong => .numeralTooLong

namespace Reader

def number (kind : FieldKind) (text : List Char) : Except Refusal Nat :=
  if isDigits text then
    if text.length ≤ digitLimit then .ok (digitsValue text) else .error .numeralTooLong
  else .error (.fault (.notANumber kind (String.ofList text)))

def bounded (kind : FieldKind) (text : List Char) : Except Refusal Nat := do
  let n ← number kind text
  if kind.low ≤ n ∧ n ≤ kind.high then return n else throw (.fault (.outOfRange kind n))

/-- The ends of `a-b`, read from the parts before and after the first dash of `text`. -/
def range (kind : FieldKind) (text before after : List Char) : Except Refusal (Nat × Nat) := do
  let a ← bounded kind before
  let b ← bounded kind after
  if a ≤ b then return (a, b) else throw (.fault (.reversed kind (String.ofList text)))

def positive (kind : FieldKind) (text : List Char) : Except Refusal Nat := do
  let step ← number kind text
  if step = 0 then throw (.fault (.zeroStep kind)) else return step

def steppedItem (kind : FieldKind) (text stepText : List Char) : Except Refusal Item := do
  let step ← positive kind stepText
  if text = ['*'] then return .stepped step
  else
    match cut '-' text with
    | some (before, after) => do
        let (a, b) ← range kind text before after
        return .spanStepped a b step
    | none => do
        let n ← bounded kind text
        return .onward n step

def plainItem (kind : FieldKind) (text : List Char) : Except Refusal Item :=
  match cut '-' text with
  | some (before, after) => do
      let (a, b) ← range kind text before after
      return .span a b
  | none => do
      let n ← bounded kind text
      return .single n

def item (kind : FieldKind) (field text : List Char) : Except Refusal Item :=
  if text = [] then .error (.fault (.emptyItem kind (String.ofList field)))
  else
    match cut '/' text with
    | some (before, after) => steppedItem kind before after
    | none => plainItem kind text

def items (kind : FieldKind) (field : List Char) : List (List Char) → Except Refusal (List Item)
  | [] => .ok []
  | text :: rest => do
      let head ← item kind field text
      let tail ← items kind field rest
      return head :: tail

def pattern (kind : FieldKind) (text : List Char) : Except Refusal Pattern :=
  if text = ['*'] then .ok .any
  else (items kind text (pieces (· == ',') text)).map .list

end Reader

end Almanac.Cron

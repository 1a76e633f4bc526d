import Almanac.Text.Blank
import Almanac.Text.Digit

/-!
# Numerals

Reading and writing integers. A written integer may have blanks around it, one sign, and single
underscores between its decimal digits, which may be of any script. A numeral of more than
`digitLimit` digits is not read, whatever its value.
-/

namespace Almanac.Text

/-- The longest run of digits that is read as a number. Leading zeros count. -/
def digitLimit : Nat := 4300

def positional (digits : List Nat) : Nat := digits.foldl (fun value digit => 10 * value + digit) 0

def isDigits (text : List Char) : Bool := !text.isEmpty && text.all Char.isDigit

def digitsValue (text : List Char) : Nat := positional (text.map fun c => c.toNat - 48)

/-- Blanks that may surround a numeral: all of them but the ASCII separators U+001C to U+001F. -/
def isMargin (c : Char) : Bool := isBlank c && !(0x1C ≤ c.toNat && c.toNat ≤ 0x1F)

def trimmed (text : List Char) : List Char :=
  ((text.dropWhile isMargin).reverse.dropWhile isMargin).reverse

/-- The digits of a text made of decimal digits, with at most one underscore between two of them. -/
def digitRun? : List Char → Option (List Nat)
  | [] => none
  | [c] => (decimalValue? c).map fun digit => [digit]
  | c :: '_' :: rest => do
      let digit ← decimalValue? c
      let digits ← digitRun? rest
      return digit :: digits
  | c :: rest => do
      let digit ← decimalValue? c
      let digits ← digitRun? rest
      return digit :: digits

def natural? (text : List Char) : Option Nat := do
  let digits ← digitRun? text
  if digits.length ≤ digitLimit then some (positional digits) else none

/-- A numeral with blanks around it and at most one sign. -/
def integer? (text : List Char) : Option Int :=
  match trimmed text with
  | '-' :: rest => (natural? rest).map fun n => -(n : Int)
  | '+' :: rest => (natural? rest).map fun n => (n : Int)
  | rest => (natural? rest).map fun n => (n : Int)

def digitChar (digit : Nat) : Char := Char.ofNat (48 + digit)

/-- The last `width` decimal digits of a number, with leading zeros. -/
def fixed : Nat → Nat → List Char
  | 0, _ => []
  | width + 1, n => digitChar (n / Nat.pow 10 width % 10) :: fixed width n

def decimal (n : Nat) : List Char := Nat.toDigits 10 n

def padded (width n : Nat) : List Char := (decimal n).leftpad width '0'

@[simp] theorem fixed_length (width n : Nat) : (fixed width n).length = width := by
  induction width with
  | zero => rfl
  | succ width ih => simp [fixed, ih]

end Almanac.Text

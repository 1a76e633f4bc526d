import Almanac.Text.Pieces
import Almanac.Text.Ranges

/-!
# Blanks and words

Blank characters separate the words of a text. Besides the white space of Unicode 14 they include
the four ASCII separators U+001C to U+001F. `words` keeps the non-empty pieces between blanks, and
`normalized` writes them with one space between neighbours.
-/

namespace Almanac.Text

def blankRanges : Ranges :=
  [(0x09, 0x0D), (0x1C, 0x20), (0x85, 0x85), (0xA0, 0xA0), (0x1680, 0x1680), (0x2000, 0x200A),
   (0x2028, 0x2029), (0x202F, 0x202F), (0x205F, 0x205F), (0x3000, 0x3000)]

def isBlank (c : Char) : Bool := blankRanges.holds c

def words (text : List Char) : List (List Char) :=
  (pieces isBlank text).filter fun part => !part.isEmpty

def normalized (text : List Char) : List Char := join ' ' (words text)

theorem isBlank_space : isBlank ' ' = true := by decide

theorem ne_nil_of_mem_words {text part : List Char} (h : part ∈ words text) : part ≠ [] := by
  have := (List.mem_filter.1 h).2
  simpa using this

theorem not_isBlank_of_mem_words {text part : List Char} (h : part ∈ words text) :
    ∀ c ∈ part, isBlank c = false :=
  not_breaks_of_mem_pieces isBlank text part (List.mem_filter.1 h).1

theorem words_join {parts : List (List Char)} (hn : ∀ part ∈ parts, part ≠ [])
    (hb : ∀ part ∈ parts, ∀ c ∈ part, isBlank c = false) : words (join ' ' parts) = parts := by
  cases parts with
  | nil => rfl
  | cons part rest =>
      unfold words
      rw [pieces_join isBlank_space _ (by simp) hb, List.filter_eq_self]
      intro q hq
      simpa using hn q hq

/-- Writing the words of a text with single spaces loses no word and makes none. -/
@[simp] theorem words_normalized (text : List Char) : words (normalized text) = words text :=
  words_join (fun _ => ne_nil_of_mem_words) (fun _ => not_isBlank_of_mem_words)

end Almanac.Text

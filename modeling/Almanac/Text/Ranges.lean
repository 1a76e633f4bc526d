/-!
# Sets of characters as ranges

A class of characters is a list of closed ranges of code points, ascending and apart.
-/

namespace Almanac.Text

abbrev Ranges := List (Nat × Nat)

namespace Ranges

def holds (ranges : Ranges) (c : Char) : Bool :=
  ranges.any fun range => range.1 ≤ c.toNat && c.toNat ≤ range.2

end Ranges

end Almanac.Text

/-!
# Classes of characters as ranges

The character classes of this library are tables of inclusive code point ranges. A class is asked
one question only, whether a character belongs to it.
-/

namespace TypedClient

/-- A class of characters: inclusive ranges of code points, in ascending order. -/
abbrev CharRanges := List (Nat × Nat)

namespace CharRanges

/-- Whether a character lies in one of the ranges. -/
def holds (ranges : CharRanges) (c : Char) : Bool :=
  ranges.any fun (low, high) => low ≤ c.toNat && c.toNat ≤ high

end CharRanges

end TypedClient

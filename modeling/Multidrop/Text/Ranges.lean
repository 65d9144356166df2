/-!
# Ranges of Characters

A property of characters that no rule describes is a table: the ranges of code
points that have it, in ascending order.

## Main definitions

* `inRanges`: Whether a code point lies in one of some ranges.
-/

namespace Multidrop

namespace Text

/-- Whether a code point lies in one of some ranges, both ends included. -/
def inRanges (ranges : List (Nat × Nat)) (code : Nat) : Bool :=
  ranges.any fun r => r.1 ≤ code && code ≤ r.2

end Text

end Multidrop

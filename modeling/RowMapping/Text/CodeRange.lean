/-!
# Ranges of code points

A property of characters is given by the closed ranges of code points that have it.

* `CodeRanges`: a list of closed ranges;
* `CodeRanges.has`: membership of a code point.
-/

namespace RowMapping.Text

/-- Closed ranges of code points, first and last. -/
abbrev CodeRanges := List (Nat × Nat)

/-- A code point lies in one of the ranges. -/
def CodeRanges.has (ranges : CodeRanges) (n : Nat) : Bool :=
  ranges.any fun r => r.1 ≤ n && n ≤ r.2

end RowMapping.Text

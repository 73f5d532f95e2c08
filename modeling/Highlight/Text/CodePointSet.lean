/-!
# Sets of code points

A set of code points that falls into few ranges is kept as the sorted array of its bounds: each
bound is the first code point of a range in the set or of a gap between two ranges, in turn. A code
point is in the set if the number of bounds at or below it is odd.
-/

namespace Highlight.Text

/-- A set of code points by the sorted bounds of its ranges. -/
structure CodePointSet where
  bounds : Array Nat

namespace CodePointSet

/-- Halve the bounds from `low` to `high` until the place is found where those at or below `point`
end. All bounds before `low` are at or below it, and all from `high` on are above it. -/
def search (bounds : Array Nat) (point low high : Nat) : Nat :=
  if low < high then
    let middle := (low + high) / 2
    if bounds.getD middle 0 ≤ point then search bounds point (middle + 1) high
    else search bounds point low middle
  else low
termination_by high - low

/-- The number of bounds at or below a code point. -/
def countUpTo (set : CodePointSet) (point : Nat) : Nat :=
  search set.bounds point 0 set.bounds.size

/-- Membership of a character. -/
def contains (set : CodePointSet) (c : Char) : Bool :=
  set.countUpTo c.toNat % 2 == 1

end CodePointSet

end Highlight.Text

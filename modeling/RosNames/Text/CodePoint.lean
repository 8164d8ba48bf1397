/-!
# Sets of code points

A property of characters is given by the ranges of the code points that have it.
-/

namespace RosNames

/-- Ranges of code points, ends included, in rising order. -/
abbrev CodePoints := List (Nat × Nat)

def CodePoints.contains (ranges : CodePoints) (c : Char) : Bool :=
  ranges.any fun r => r.1 ≤ c.toNat && c.toNat ≤ r.2

end RosNames

/-!
# Sets of characters given by ranges of code points

A character property is a list of closed ranges of code points, in ascending order.
-/

namespace VersionedObjects.Text

/-- A list of closed ranges of code points. -/
abbrev Ranges := List (Nat × Nat)

/-- The code point lies in one of the ranges. -/
def Ranges.contains (ranges : Ranges) (c : Char) : Bool :=
  ranges.any fun (low, high) => low ≤ c.toNat && c.toNat ≤ high

end VersionedObjects.Text

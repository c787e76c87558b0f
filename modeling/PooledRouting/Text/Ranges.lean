/-!
# Character ranges

A set of characters is given by ranges of code points, both ends
included.
-/

namespace PooledRouting.Text

/-- Whether the character lies in one of the ranges. -/
def inRanges (ranges : List (Nat × Nat)) (c : Char) : Bool :=
  ranges.any fun (low, high) => low ≤ c.toNat && c.toNat ≤ high

end PooledRouting.Text

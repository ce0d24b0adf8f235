/-!
# Ranges of code points

A property of characters is given by the closed ranges of code points that have it.
-/

namespace Acceptors.Text

/-- Closed ranges of code points: the first and the last of each. -/
abbrev CodePoints := List (Nat × Nat)

def CodePoints.contains (ranges : CodePoints) (c : Char) : Bool :=
  ranges.any fun (first, last) => first ≤ c.toNat && c.toNat ≤ last

end Acceptors.Text

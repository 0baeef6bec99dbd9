/-!
# Ranges of code points

A property of characters is given by the inclusive ranges of the code points that have it, in
ascending order.
-/

namespace ResourceLiterals.Text

/-- Inclusive ranges of code points, in ascending order. -/
abbrev Ranges := List (Nat × Nat)

/-- Whether one of the ranges holds the character. -/
def Ranges.holds (ranges : Ranges) (c : Char) : Bool :=
  ranges.any fun (low, high) => low ≤ c.toNat && c.toNat ≤ high

end ResourceLiterals.Text

/-! # Sets of characters

A set of characters is a list of inclusive ranges of code points, as the standard's tables give
them.
-/

namespace MediaWatch

/-- Inclusive ranges of code points. -/
abbrev CharRanges := List (Nat × Nat)

def CharRanges.contains (ranges : CharRanges) (c : Char) : Bool :=
  ranges.any fun range => range.1 ≤ c.toNat && c.toNat ≤ range.2

end MediaWatch

/-!
# Sets of characters given by ranges of code points

`inRanges` tests membership in a list of closed ranges; the property tables of the Unicode
standard used by this library (version 14.0) are such lists.
-/

namespace RepoGraph.Text

/-- A closed range of code points, first and last. -/
abbrev CodeRange := Nat × Nat

/-- The character lies in one of the ranges. -/
def inRanges (ranges : List CodeRange) (c : Char) : Bool :=
  ranges.any fun r => r.1 ≤ c.toNat && c.toNat ≤ r.2

end RepoGraph.Text

/-!
# Sets of code points

A property of characters is kept as the ranges of code points that have it.  The ranges of a
table ascend and stay apart, so that no two of them could be written as one.  A `CodePoints`
carries the proof.
-/

namespace TokenStream

namespace CodePoints

/-- Whether no range is empty and each lies above the one before it with a gap between them. -/
def ascends : List (Nat × Nat) → Bool
  | [] => true
  | [r] => r.1 ≤ r.2
  | r :: s :: rest => r.1 ≤ r.2 && r.2 + 1 < s.1 && ascends (s :: rest)

end CodePoints

/-- A set of code points, as closed ranges that ascend and stay apart. -/
structure CodePoints where
  ranges : List (Nat × Nat)
  ascends_ranges : CodePoints.ascends ranges = true
  deriving DecidableEq, Repr

/-- Whether a character belongs to the set. -/
def CodePoints.contains (s : CodePoints) (c : Char) : Bool :=
  s.ranges.any fun r => r.1 ≤ c.toNat && c.toNat ≤ r.2

end TokenStream

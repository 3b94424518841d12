/-!
# Ranges of characters

A set of characters as the ranges of its code points, in increasing order.
-/

namespace LinkedQuery

/-- Ranges of code points, each by its first and its last. -/
abbrev CharRanges := List (Nat × Nat)

/-- Whether a character lies in one of the ranges, which must be in order. -/
def CharRanges.contains (ranges : CharRanges) (c : Char) : Bool :=
  match ranges.find? fun range => c.toNat ≤ range.2 with
  | some range => range.1 ≤ c.toNat
  | none => false

end LinkedQuery

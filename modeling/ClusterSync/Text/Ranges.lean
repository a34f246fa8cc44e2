/-!
# Sets of characters

Sets of code points as lists of ranges, in which the Unicode standard gives its properties.
-/

namespace ClusterSync.Text

/-- Whether a code point lies in one of several ranges, given by their first and last members. -/
def inRanges (ranges : List (Nat × Nat)) (n : Nat) : Bool :=
  ranges.any fun r => r.1 ≤ n && n ≤ r.2

end ClusterSync.Text

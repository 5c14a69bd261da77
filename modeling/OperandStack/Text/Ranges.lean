/-!
# Ranges of characters

Classes of characters are given by ranges of code points, closed at both ends.
-/

namespace OperandStack.Text

/-- Whether a code point lies in one of the ranges. -/
def inRanges (ranges : List (Nat × Nat)) (n : Nat) : Bool :=
  ranges.any fun (low, high) => low ≤ n && n ≤ high

end OperandStack.Text

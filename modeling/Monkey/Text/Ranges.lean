/-!
# Ranges of code points

A class of characters that no formula describes is a list of ranges of code points, in ascending
order.
-/

namespace Monkey.Text

/-- Whether `n` lies in one of the ranges, which are in ascending order and include both ends. The
search ends at the first range that begins above `n`. -/
def inRanges (n : Nat) : List (Nat × Nat) → Bool
  | [] => false
  | (low, high) :: rest => low ≤ n && (n ≤ high || inRanges n rest)

end Monkey.Text

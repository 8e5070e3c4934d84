/-! Membership of a code point in a table of closed ranges. A table is kept in ascending order, so
the search stops at the first range that begins above the code point. -/

namespace LexicalReport.Text

def inRanges : List (Nat × Nat) → Nat → Bool
  | [], _ => false
  | (low, high) :: rest, n =>
    if n < low then false else if n ≤ high then true else inRanges rest n

end LexicalReport.Text

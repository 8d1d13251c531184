import TableAlgebra.Text

/-!
# Classes of code points

A class is a list of closed ranges of numbers, in ascending order.
-/

namespace TableAlgebra.Text

def inRanges (ranges : List (Nat × Nat)) (p : Point) : Bool :=
  ranges.any fun r => r.1 ≤ p.number && p.number ≤ r.2

theorem inRanges_iff {ranges : List (Nat × Nat)} {p : Point} :
    inRanges ranges p = true ↔ ∃ r ∈ ranges, r.1 ≤ p.number ∧ p.number ≤ r.2 := by
  simp [inRanges]

end TableAlgebra.Text

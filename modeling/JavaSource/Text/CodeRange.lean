/-!
# Ranges of code points

A set of characters given by the first and the last code point of each of its ranges.
-/

namespace JavaSource.Text

abbrev CodeRange := Nat × Nat

def inRanges : List CodeRange → Nat → Bool
  | [], _ => false
  | (first, last) :: rest, n => (first ≤ n && n ≤ last) || inRanges rest n

theorem inRanges_iff {ranges : List CodeRange} {n : Nat} :
    inRanges ranges n = true ↔ ∃ r ∈ ranges, r.1 ≤ n ∧ n ≤ r.2 := by
  induction ranges with
  | nil => simp [inRanges]
  | cons r rest ih => simp [inRanges, ih]

end JavaSource.Text

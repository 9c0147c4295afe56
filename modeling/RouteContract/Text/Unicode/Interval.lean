/-!
# Intervals of code points

A character class of Unicode is a list of intervals of code points, both ends included.
-/

namespace RouteContract.Text.Unicode

set_option autoImplicit false

/-- Whether a code point lies in one of the intervals. -/
def inIntervals (intervals : List (Nat × Nat)) (c : Nat) : Bool :=
  intervals.any fun interval => interval.1 ≤ c && c ≤ interval.2

/-- A code point lies in a class exactly when some interval of the class holds it. -/
theorem inIntervals_eq_true_iff {intervals : List (Nat × Nat)} {c : Nat} :
    inIntervals intervals c = true ↔ ∃ i ∈ intervals, i.1 ≤ c ∧ c ≤ i.2 := by
  simp [inIntervals]

end RouteContract.Text.Unicode

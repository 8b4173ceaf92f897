/-!
# Sets of code points

A property of characters is a list of ranges of code points. The tables of such ranges are long,
and most text lies at their beginning.

## Main definitions

* `CodeRanges` — ranges in increasing order.
* `CodeRanges.has` — whether a code point lies in one of them.
-/

namespace FlowCanvas

/-- A set of code points, as ranges with both ends in the set, in increasing order. -/
abbrev CodeRanges := List (Nat × Nat)

/-- The number `n` lies in one of the ranges; the search ends at the first range beyond `n`. -/
def CodeRanges.has : CodeRanges → Nat → Bool
  | [], _ => false
  | (lo, hi) :: rest, n => decide (lo ≤ n) && (decide (n ≤ hi) || CodeRanges.has rest n)

@[simp] theorem CodeRanges.has_nil (n : Nat) : CodeRanges.has [] n = false := rfl

@[simp] theorem CodeRanges.has_cons (lo hi : Nat) (rest : CodeRanges) (n : Nat) :
    CodeRanges.has ((lo, hi) :: rest) n
      = (decide (lo ≤ n) && (decide (n ≤ hi) || CodeRanges.has rest n)) := rfl

/-- A code point below the first range is in none. -/
theorem CodeRanges.has_of_lt {lo hi n : Nat} (rest : CodeRanges) (h : n < lo) :
    CodeRanges.has ((lo, hi) :: rest) n = false := by
  simp [Nat.not_le.mpr h]

end FlowCanvas

/-!
# Sets of characters as alternating runs

A set of code points is given by the ascending list of points where membership changes. A code point
belongs to the set when an odd number of those points are at or below it.
-/

namespace Stencil.Text

/-- How many of the ascending bounds are at most `n`, by bisection. -/
def rank (bounds : Array Nat) (n : Nat) : Nat :=
  go 0 bounds.size
where
  /-- Bisects between `lo`, below which all bounds are at most `n`, and `hi`, from which none is. -/
  go (lo hi : Nat) : Nat :=
    if lo < hi then
      let mid := (lo + hi) / 2
      if bounds.getD mid 0 ≤ n then go (mid + 1) hi else go lo mid
    else lo
  termination_by hi - lo

/-- Whether `n` lies in one of the runs that the bounds delimit. -/
def inRuns (bounds : Array Nat) (n : Nat) : Bool :=
  rank bounds n % 2 == 1

end Stencil.Text

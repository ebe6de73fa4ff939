/-!
# Sets of characters by boundaries

A set of code points is given by the sorted list of the code points at which membership changes: the
first is the first member, the second the first after it that is no member, and so on.
-/

set_option autoImplicit false

namespace QueryShape.Text

/-- How many boundaries from `lo` up to below `hi` come before or at `n`, added to `lo`. -/
def bisect (boundaries : Array Nat) (n lo hi : Nat) : Nat :=
  if lo < hi then
    let mid := (lo + hi) / 2
    if boundaries.getD mid 0 ≤ n then bisect boundaries n (mid + 1) hi
    else bisect boundaries n lo mid
  else lo
termination_by hi - lo

/-- Membership: an odd number of boundaries lies at or before the character. -/
def within (boundaries : Array Nat) (c : Char) : Bool :=
  bisect boundaries c.toNat 0 boundaries.size % 2 == 1

end QueryShape.Text

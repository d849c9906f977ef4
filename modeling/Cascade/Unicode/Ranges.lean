/-!
# Sets of characters as sorted ranges

A property of Unicode is held as a table of closed ranges of code points, sorted and apart from one
another, and looked up by bisection.
-/

namespace Cascade.Unicode

/-- Looks a code point up among the ranges from index `low` to before index `high`. -/
def searchRanges (table : Array (Nat × Nat)) (code : Nat) : (fuel low high : Nat) → Bool
  | 0, _, _ => false
  | fuel + 1, low, high =>
    if low < high then
      let middle := (low + high) / 2
      match table[middle]? with
      | none => false
      | some (first, last) =>
        if code < first then searchRanges table code fuel low middle
        else if last < code then searchRanges table code fuel (middle + 1) high
        else true
    else false

/-- Whether a character lies in one of the ranges of a sorted table. -/
def inRanges (table : Array (Nat × Nat)) (c : Char) : Bool :=
  searchRanges table c.toNat (table.size + 1) 0 table.size

end Cascade.Unicode

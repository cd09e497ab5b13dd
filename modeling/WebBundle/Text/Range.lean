/-!
# Membership in sorted intervals

Character classes are tables of closed intervals in increasing order.  The
search halves the part of the table that can still hold the code point.
-/

namespace WebBundle

/-- Searches the table entries from `low` up to but excluding `high`. -/
def searchRanges (ranges : Array (Nat × Nat)) (code low high : Nat) : Bool :=
  if low < high then
    let middle := low + (high - low) / 2
    match ranges[middle]? with
    | none => false
    | some (first, last) =>
      if code < first then searchRanges ranges code low middle
      else if last < code then searchRanges ranges code (middle + 1) high
      else true
  else false
termination_by high - low

/-- Whether a code point lies in one of the intervals of a sorted table. -/
def inRanges (ranges : Array (Nat × Nat)) (code : Nat) : Bool :=
  searchRanges ranges code 0 ranges.size

end WebBundle

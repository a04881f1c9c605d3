/-! Sets of code points given as ascending lists of ranges, both ends included. -/

namespace Wiring.Unicode

/-- Whether one of the ranges holds the code point. -/
def inRanges (ranges : List (Nat × Nat)) (code : Nat) : Bool :=
  ranges.any fun (first, last) => first ≤ code && code ≤ last

/-- Ranges that step by one or two: first member, last member, step. -/
def inStrides (strides : List (Nat × Nat × Nat)) (code : Nat) : Bool :=
  strides.any fun (first, last, step) =>
    first ≤ code && code ≤ last && (code - first) % step = 0

end Wiring.Unicode

/-!
# Search over boundaries

The boundaries of ascending ranges, `start₀, stop₀, start₁, stop₁, …`, form one ascending sequence. A
binary search for a key either hits a boundary or names the gap between two of them; a hit, and a gap
behind an odd number of boundaries, lie inside a range.
-/

namespace AddressAtlas

/-- Where a key lies in an ascending sequence. -/
inductive Position where
  /-- On the boundary of this index. -/
  | hit (index : Nat)
  /-- Between boundaries: this many of them lie before the key. -/
  | gap (before : Nat)
  deriving DecidableEq, Repr

namespace Search

/-- Halves the interval `low ≤ i < high`; `compare i` is the order of boundary `i` relative to the key. -/
def within (compare : Nat → Ordering) (low high : Nat) : Position :=
  if low < high then
    let middle := low + (high - low) / 2
    match compare middle with
    | .lt => within compare (middle + 1) high
    | .gt => within compare low middle
    | .eq => .hit middle
  else
    .gap low
  termination_by high - low

/-- Searches the boundaries `0 ≤ i < count`. -/
def position (count : Nat) (compare : Nat → Ordering) : Position :=
  within compare 0 count

/-- The range that contains the key, by the parity of its position. -/
def enclosing? (count : Nat) (compare : Nat → Ordering) : Option Nat :=
  match position count compare with
  | .hit index => some (index / 2)
  | .gap before => if before % 2 = 1 then some (before / 2) else none

end Search

end AddressAtlas

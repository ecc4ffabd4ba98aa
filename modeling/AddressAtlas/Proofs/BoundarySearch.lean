import AddressAtlas.Search
import Mathlib.Tactic.Common

/-!
# Binary search over boundaries

`Brackets` is the invariant of the search: everything before the interval is below the key, everything
behind it is above. A search that stays within it ends on the key or between the boundaries around it.
-/

namespace AddressAtlas.Search

variable {compare : Nat → Ordering} {count low high : Nat}

/-- Boundaries in ascending order as a key sees them: those below it, those on it, those above it. -/
structure Ascending (compare : Nat → Ordering) (count : Nat) : Prop where
  lt_before : ∀ i j, i ≤ j → j < count → compare j = .lt → compare i = .lt
  gt_behind : ∀ i j, i ≤ j → j < count → compare i = .gt → compare j = .gt

/-- The interval that is still searched parts the boundaries below the key from those above it. -/
structure Brackets (compare : Nat → Ordering) (count low high : Nat) : Prop where
  low_le_high : low ≤ high
  high_le_count : high ≤ count
  lt_before : ∀ i, i < low → compare i = .lt
  gt_behind : ∀ i, high ≤ i → i < count → compare i = .gt

lemma Brackets.all (compare : Nat → Ordering) (count : Nat) : Brackets compare count 0 count where
  low_le_high := Nat.zero_le count
  high_le_count := Nat.le_refl count
  lt_before i hi := absurd hi (Nat.not_lt_zero i)
  gt_behind _ hi hlt := absurd hi (Nat.not_le.mpr hlt)

lemma Brackets.above {middle : Nat} (hb : Brackets compare count low high)
    (ha : Ascending compare count) (hm : middle < high) (hlt : compare middle = .lt) :
    Brackets compare count (middle + 1) high where
  low_le_high := hm
  high_le_count := hb.high_le_count
  lt_before i hi := by
    have hcount := hb.high_le_count
    exact ha.lt_before i middle (by omega) (by omega) hlt
  gt_behind := hb.gt_behind

lemma Brackets.below {middle : Nat} (hb : Brackets compare count low high)
    (ha : Ascending compare count) (hlow : low ≤ middle) (hm : middle < high)
    (hgt : compare middle = .gt) : Brackets compare count low middle where
  low_le_high := hlow
  high_le_count := by
    have hcount := hb.high_le_count
    omega
  lt_before := hb.lt_before
  gt_behind i hi hcount := ha.gt_behind middle i hi hcount hgt

theorem within_hit {i : Nat} (h : within compare low high = .hit i) :
    low ≤ i ∧ i < high ∧ compare i = .eq := by
  fun_induction within compare low high with
  | case1 low high hlt middle hc ih =>
    have hi := ih h
    have hmiddle : low ≤ middle := Nat.le_add_right low _
    exact ⟨by omega, hi.2⟩
  | case2 low high hlt middle hc ih =>
    have hi := ih h
    have hmiddle : middle < high := by omega
    exact ⟨hi.1, by omega, hi.2.2⟩
  | case3 low high hlt middle hc =>
    obtain rfl : middle = i := by simpa using h
    exact ⟨Nat.le_add_right low _, by omega, hc⟩
  | case4 => cases h

/-- A gap lies within the interval, whatever the order of the boundaries. -/
theorem within_gap_bounds {n : Nat} (hle : low ≤ high) (h : within compare low high = .gap n) :
    low ≤ n ∧ n ≤ high := by
  fun_induction within compare low high with
  | case1 low high hlt middle hc ih =>
    have hn := ih (by omega) h
    have hmiddle : low ≤ middle := Nat.le_add_right low _
    exact ⟨by omega, hn.2⟩
  | case2 low high hlt middle hc ih =>
    have hn := ih (Nat.le_add_right low _) h
    have hmiddle : middle < high := by omega
    exact ⟨hn.1, by omega⟩
  | case3 => cases h
  | case4 low high hlt =>
    obtain rfl : low = n := by simpa using h
    exact ⟨Nat.le_refl low, hle⟩

/-- A gap is found where the boundaries below the key end and those above it begin. -/
theorem within_gap {n : Nat} (ha : Ascending compare count) (hb : Brackets compare count low high)
    (h : within compare low high = .gap n) : Brackets compare count n n := by
  fun_induction within compare low high with
  | case1 low high hlt middle hc ih =>
    have hmiddle : middle < high := by omega
    exact ih (hb.above ha hmiddle hc) h
  | case2 low high hlt middle hc ih =>
    have hlow : low ≤ middle := Nat.le_add_right low _
    have hmiddle : middle < high := by omega
    exact ih (hb.below ha hlow hmiddle hc) h
  | case3 => cases h
  | case4 low high hlt =>
    obtain rfl : low = n := by simpa using h
    obtain rfl : low = high := Nat.le_antisymm hb.low_le_high (Nat.not_lt.mp hlt)
    exact hb

lemma position_hit {i : Nat} (h : position count compare = .hit i) : i < count ∧ compare i = .eq :=
  (within_hit h).2

lemma position_gap {n : Nat} (ha : Ascending compare count) (h : position count compare = .gap n) :
    Brackets compare count n n :=
  within_gap ha (Brackets.all compare count) h

/-- An enclosing range is one of those that are searched, whatever the order of their boundaries. -/
theorem enclosing?_lt {n i : Nat} (h : enclosing? (2 * n) compare = some i) : i < n := by
  unfold enclosing? at h
  split at h
  · rename_i index hposition
    have hindex := (position_hit hposition).1
    obtain rfl : index / 2 = i := Option.some.inj h
    omega
  · rename_i before hposition
    have hbefore := within_gap_bounds (Nat.zero_le _) hposition
    split at h
    · obtain rfl : before / 2 = i := Option.some.inj h
      omega
    · cases h

end AddressAtlas.Search

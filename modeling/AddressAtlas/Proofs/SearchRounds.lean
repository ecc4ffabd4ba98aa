import AddressAtlas.Proofs.BoundarySearch
import AddressAtlas.Proofs.TableLookup
import Mathlib.Algebra.Group.Nat.Defs

/-!
# The rounds of a search

A search goes through rounds, in each of which it looks at one boundary. Whatever the boundaries are and in
whatever order they stand, it looks at none but those it is given, it computes no number beyond their count,
and it ends after no more rounds than the count has binary digits; where they are in order, it ends where the
key is or would have to be.
-/

namespace AddressAtlas.Search

/-- The interval in which a search goes on. -/
structure Round where
  low : Nat
  high : Nat
  deriving DecidableEq, Repr

namespace Round

/-- The boundary that is looked at. -/
def middle (r : Round) : Nat :=
  r.low + (r.high - r.low) / 2

/-- All that a round computes, in whole numbers: the interval, its length and half of it, the middle, and the
place behind the middle. -/
def values (r : Round) : List Int :=
  let length : Int := r.high - r.low
  [r.low, r.high, length, length / 2, r.low + length / 2, r.low + length / 2 + 1]

/-- Where a search ends that has no further round. -/
def ending (compare : Nat → Ordering) (r : Round) : Position :=
  match compare r.middle with
  | .lt => .gap (r.middle + 1)
  | .gt => .gap r.low
  | .eq => .hit r.middle

end Round

/-- The rounds of a search, the first in front. -/
def rounds (compare : Nat → Ordering) (low high : Nat) : List Round :=
  if low < high then
    let middle := low + (high - low) / 2
    match compare middle with
    | .lt => ⟨low, high⟩ :: rounds compare (middle + 1) high
    | .gt => ⟨low, high⟩ :: rounds compare low middle
    | .eq => [⟨low, high⟩]
  else
    []
  termination_by high - low

variable {compare other : Nat → Ordering} {count low high : Nat}

lemma elim_getLast?_cons (r : Round) (rs : List Round) (p : Position) :
    (r :: rs).getLast?.elim p (Round.ending compare) =
      rs.getLast?.elim (r.ending compare) (Round.ending compare) := by
  rw [List.getLast?_cons]
  cases rs.getLast? with
  | none => rfl
  | some last => rfl

/-- A search ends where its last round leads. -/
theorem within_eq_ending (compare : Nat → Ordering) (low high : Nat) : within compare low high =
    (rounds compare low high).getLast?.elim (.gap low) (Round.ending compare) := by
  fun_induction rounds compare low high with
  | case1 low high hlt middle hc ih =>
    have hstep : within compare low high = within compare (middle + 1) high := by
      rw [within, if_pos hlt]
      simp only [show compare (low + (high - low) / 2) = .lt from hc]
      rfl
    have hending : Round.ending compare ⟨low, high⟩ = .gap (middle + 1) := by
      simp only [Round.ending, Round.middle, show compare (low + (high - low) / 2) = .lt from hc]
      rfl
    rw [hstep, elim_getLast?_cons, hending, ih]
  | case2 low high hlt middle hc ih =>
    have hstep : within compare low high = within compare low middle := by
      rw [within, if_pos hlt]
      simp only [show compare (low + (high - low) / 2) = .gt from hc]
      rfl
    have hending : Round.ending compare ⟨low, high⟩ = .gap low := by
      simp only [Round.ending, Round.middle, show compare (low + (high - low) / 2) = .gt from hc]
    rw [hstep, elim_getLast?_cons, hending, ih]
  | case3 low high hlt middle hc =>
    rw [within, if_pos hlt, elim_getLast?_cons]
    simp only [Round.ending, Round.middle, show compare (low + (high - low) / 2) = .eq from hc]
    rfl
  | case4 low high hlt =>
    rw [within, if_neg hlt]
    rfl

/-- Each round looks at a boundary of its interval. -/
theorem mem_rounds {r : Round} (hle : low ≤ high) (h : r ∈ rounds compare low high) :
    low ≤ r.low ∧ r.low ≤ r.middle ∧ r.middle < r.high ∧ r.high ≤ high := by
  fun_induction rounds compare low high with
  | case1 low high hlt middle hc ih =>
    have hmiddle : low ≤ middle ∧ middle < high := by omega
    rcases List.mem_cons.mp h with rfl | h
    · exact ⟨Nat.le_refl low, hmiddle.1, hmiddle.2, Nat.le_refl high⟩
    · have hr := ih hmiddle.2 h
      exact ⟨by omega, hr.2⟩
  | case2 low high hlt middle hc ih =>
    have hmiddle : low ≤ middle ∧ middle < high := by omega
    rcases List.mem_cons.mp h with rfl | h
    · exact ⟨Nat.le_refl low, hmiddle.1, hmiddle.2, Nat.le_refl high⟩
    · have hr := ih hmiddle.1 h
      exact ⟨hr.1, hr.2.1, hr.2.2.1, by omega⟩
  | case3 low high hlt middle hc =>
    have hmiddle : low ≤ middle ∧ middle < high := by omega
    obtain rfl := List.mem_singleton.mp h
    exact ⟨Nat.le_refl low, hmiddle.1, hmiddle.2, Nat.le_refl high⟩
  | case4 low high hlt => cases h

lemma exists_half_lt {low high k : Nat} (hlt : low < high) (h : high - low < 2 ^ k) :
    ∃ n, k = n + 1 ∧ (high - low) / 2 < 2 ^ n := by
  cases k with
  | zero =>
    rw [Nat.pow_zero] at h
    omega
  | succ n =>
    rw [Nat.pow_succ] at h
    exact ⟨n, rfl, by omega⟩

/-- The interval is halved in each round, so there are no more rounds than its length has binary digits. -/
theorem length_rounds_le (compare : Nat → Ordering) (low high : Nat) :
    ∀ k, high - low < 2 ^ k → (rounds compare low high).length ≤ k := by
  fun_induction rounds compare low high with
  | case1 low high hlt middle hc ih =>
    intro k h
    obtain ⟨n, rfl, hhalf⟩ := exists_half_lt hlt h
    exact Nat.succ_le_succ (ih n (by omega))
  | case2 low high hlt middle hc ih =>
    intro k h
    obtain ⟨n, rfl, hhalf⟩ := exists_half_lt hlt h
    exact Nat.succ_le_succ (ih n (by omega))
  | case3 low high hlt middle hc =>
    intro k h
    obtain ⟨n, rfl, -⟩ := exists_half_lt hlt h
    exact Nat.succ_le_succ (Nat.zero_le n)
  | case4 low high hlt => exact fun k _ => Nat.zero_le k

lemma values_of_mem_rounds {r : Round} (h : r ∈ rounds compare 0 count) :
    ∀ v ∈ r.values, 0 ≤ v ∧ v ≤ count := by
  obtain ⟨-, hlow, hmiddle, hhigh⟩ := mem_rounds (Nat.zero_le count) h
  unfold Round.middle at hlow hmiddle
  unfold Round.values
  simp only [List.forall_mem_cons, List.not_mem_nil, false_implies, implies_true, and_true]
  omega

/-- What is said of boundaries that are not looked at makes no difference. -/
theorem rounds_congr (h : ∀ r ∈ rounds compare low high, other r.middle = compare r.middle) :
    rounds other low high = rounds compare low high := by
  fun_induction rounds compare low high with
  | case1 low high hlt middle hc ih =>
    obtain ⟨hfirst, hrest⟩ := List.forall_mem_cons.mp h
    have hother : other (low + (high - low) / 2) = .lt := hfirst.trans hc
    rw [rounds, if_pos hlt]
    simp only [hother]
    exact congrArg _ (ih hrest)
  | case2 low high hlt middle hc ih =>
    obtain ⟨hfirst, hrest⟩ := List.forall_mem_cons.mp h
    have hother : other (low + (high - low) / 2) = .gt := hfirst.trans hc
    rw [rounds, if_pos hlt]
    simp only [hother]
    exact congrArg _ (ih hrest)
  | case3 low high hlt middle hc =>
    have hother : other (low + (high - low) / 2) = .eq := (h _ (List.mem_singleton_self _)).trans hc
    rw [rounds, if_pos hlt]
    simp only [hother]
  | case4 low high hlt => rw [rounds, if_neg hlt]

lemma position_congr (h : ∀ r ∈ rounds compare 0 count, other r.middle = compare r.middle) :
    position count other = position count compare := by
  unfold position
  rw [within_eq_ending, within_eq_ending, rounds_congr h]
  cases hlast : (rounds compare 0 count).getLast? with
  | none => rfl
  | some r =>
    have hr := h r (List.mem_of_getLast? hlast)
    simp only [Option.elim_some, Round.ending, hr]

/-- What a search does whatever it is told of the boundaries, in or out of order: it looks at no others, stays
within their number in all that it computes, comes to an end, and ends on a boundary that it has been told to
be the key or on a place between two. -/
structure Contained (count : Nat) (compare : Nat → Ordering) : Prop where
  /-- The answer is that of the last round, so the rounds are all that the search does. -/
  follows : position count compare = (rounds compare 0 count).getLast?.elim (.gap 0) (Round.ending compare)
  looks : ∀ r ∈ rounds compare 0 count, r.middle < count
  /-- What is said of other boundaries is not asked for. -/
  ignores : ∀ other, (∀ i < count, other i = compare i) →
    rounds other 0 count = rounds compare 0 count ∧ position count other = position count compare
  computes : ∀ r ∈ rounds compare 0 count, ∀ v ∈ r.values, 0 ≤ v ∧ v ≤ count
  ends : ∀ k, count < 2 ^ k → (rounds compare 0 count).length ≤ k
  answers : (∃ i, position count compare = .hit i ∧ i < count ∧ compare i = .eq) ∨
    ∃ i, position count compare = .gap i ∧ i ≤ count
  /-- A gap behind an odd number of boundaries is not the one behind all of them. -/
  inside : count % 2 = 0 → ∀ i, position count compare = .gap i → i % 2 = 1 → i < count
  encloses : count % 2 = 0 → ∀ i, enclosing? count compare = some i → i < count / 2

/-- The boundaries before `first` are below the key, those from there up to `behind` are on it, and the others
are above it. -/
structure Parted (count first behind : Nat) (compare : Nat → Ordering) : Prop where
  first_le : first ≤ behind
  behind_le : behind ≤ count
  below : ∀ i, i < first → compare i = .lt
  on : ∀ i, first ≤ i → i < behind → compare i = .eq
  above : ∀ i, behind ≤ i → i < count → compare i = .gt

/-- A search ends on the key if it can be found, and otherwise where the boundaries above the key begin. -/
structure Finds (count : Nat) (compare : Nat → Ordering) : Prop where
  hit_iff : (∃ i, position count compare = .hit i) ↔ ∃ i < count, compare i = .eq
  gap : ∀ n, position count compare = .gap n →
    (∀ i < n, compare i = .lt) ∧ ∀ i, n ≤ i → i < count → compare i = .gt

lemma position_cases (count : Nat) (compare : Nat → Ordering) :
    (∃ i, position count compare = .hit i ∧ i < count ∧ compare i = .eq) ∨
      ∃ i, position count compare = .gap i ∧ i ≤ count := by
  cases h : position count compare with
  | hit i => exact .inl ⟨i, rfl, position_hit h⟩
  | gap i => exact .inr ⟨i, rfl, (within_gap_bounds (Nat.zero_le count) h).2⟩

lemma contained (count : Nat) (compare : Nat → Ordering) : Contained count compare where
  follows := within_eq_ending compare 0 count
  looks := by
    intro r hr
    have hbounds := mem_rounds (Nat.zero_le count) hr
    omega
  ignores := by
    intro other h
    have hlooked : ∀ r ∈ rounds compare 0 count, other r.middle = compare r.middle := by
      intro r hr
      have hbounds := mem_rounds (Nat.zero_le count) hr
      exact h r.middle (by omega)
    exact ⟨rounds_congr hlooked, position_congr hlooked⟩
  computes := fun r hr => values_of_mem_rounds hr
  ends := fun k hk => length_rounds_le compare 0 count k hk
  answers := position_cases count compare
  inside := by
    intro heven i hi hodd
    have hle := (within_gap_bounds (Nat.zero_le count) hi).2
    omega
  encloses := by
    intro heven i hi
    obtain ⟨n, rfl⟩ : ∃ n, count = 2 * n := ⟨count / 2, by omega⟩
    have hlt := enclosing?_lt hi
    omega

lemma Parted.ascending {first behind : Nat} (h : Parted count first behind compare) : Ascending compare count where
  lt_before := by
    intro i j hij hj hlt
    apply h.below
    by_contra hi
    by_cases hbehind : j < behind
    · have hon := h.on j (by omega) hbehind
      rw [hlt] at hon
      cases hon
    · have habove := h.above j (by omega) hj
      rw [hlt] at habove
      cases habove
  gt_behind := by
    intro i j hij hj hgt
    refine h.above j ?_ hj
    by_contra hbehind
    by_cases hi : i < first
    · have hbelow := h.below i hi
      rw [hgt] at hbelow
      cases hbelow
    · have hon := h.on i (by omega) (by omega)
      rw [hgt] at hon
      cases hon

lemma finds (h : Ascending compare count) : Finds count compare := by
  have hgap : ∀ n, position count compare = .gap n →
      (∀ i < n, compare i = .lt) ∧ ∀ i, n ≤ i → i < count → compare i = .gt := by
    intro n hn
    have hbrackets := position_gap h hn
    exact ⟨hbrackets.lt_before, hbrackets.gt_behind⟩
  refine ⟨⟨?_, ?_⟩, hgap⟩
  · rintro ⟨i, hi⟩
    exact ⟨i, position_hit hi⟩
  · rintro ⟨i, hi, heq⟩
    cases hposition : position count compare with
    | hit j => exact ⟨j, rfl⟩
    | gap n =>
      obtain ⟨hbelow, habove⟩ := hgap n hposition
      rcases Nat.lt_or_ge i n with hlt | hge
      · rw [hbelow i hlt] at heq
        cases heq
      · rw [habove i hge hi] at heq
        cases heq

end AddressAtlas.Search

namespace AddressAtlas

open RangeTable Search

variable {w : Width}

/-- A lookup reads what is stored and nothing else, and the index that it finds is that of an entry. -/
structure RangeTable.LooksInside (t : RangeTable w) (key : Key w) : Prop where
  reads : ∀ r ∈ rounds (fun i => Key.compareStored (boundaryWords t.words i) key) 0 (2 * t.size),
    (r.middle + 1) * w.wordsPerKey ≤ t.words.size
  index : ∀ i, t.indexOf? key = some i → i < t.values.size ∧ (2 * i + 1 + 1) * w.wordsPerKey ≤ t.words.size
  value : (t.find? key).isSome = (t.indexOf? key).isSome
  entry : (t.findEntry? key).isSome = (t.indexOf? key).isSome

namespace RangeTable

variable {t : RangeTable w}

lemma boundary_stored {i : Nat} (h : i < 2 * t.size) : (i + 1) * w.wordsPerKey ≤ t.words.size := by
  rw [t.size_words, ← Nat.mul_assoc, Nat.mul_comm t.values.size 2]
  exact Nat.mul_le_mul_right _ h

lemma looksInside (t : RangeTable w) (key : Key w) : t.LooksInside key where
  reads := by
    intro r hr
    have hbounds := mem_rounds (Nat.zero_le _) hr
    exact boundary_stored (by omega)
  index := by
    intro i hi
    have hlt : i < t.size := enclosing?_lt hi
    exact ⟨hlt, boundary_stored (by omega)⟩
  value := by
    rw [find?_eq_map_value, Option.isSome_map]
    exact (t.contains_eq_isSome key).symm
  entry := (t.contains_eq_isSome key).symm

end RangeTable

/-- A search stays within its boundaries whatever it is told of them, so that a lookup stays within the storage
of a table even where it holds reversed ranges; and it finds what there is to find where the boundaries stand
in order. -/
theorem Search.search_contained (count : Nat) (compare : Nat → Ordering) : Contained count compare ∧
    (∀ first behind, Parted count first behind compare → Finds count compare) ∧
    ∀ (w : Width) (t : RangeTable w) (key : Key w), t.LooksInside key :=
  ⟨contained count compare, fun _ _ h => finds h.ascending, fun _ t key => t.looksInside key⟩

end AddressAtlas

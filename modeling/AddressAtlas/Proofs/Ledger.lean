import AddressAtlas.Proofs.EntryOrder
import AddressAtlas.RangeTable.Basic
import Mathlib.Tactic.Common

/-!
# Tables as plain lists

A ledger is the list of the entries that have been taken in, and knows nothing of words, indices or
room. Inserting into a table does to its entries what offering does to a ledger, and the fault it
reports is a function of those entries alone.
-/

namespace AddressAtlas

variable {w : Width}

instance Entry.decidableAscending : (es : List (Entry w)) → Decidable (Entry.Ascending es)
  | [] | [_] => isTrue trivial
  | _ :: b :: rest =>
    have := decidableAscending (b :: rest)
    inferInstanceAs (Decidable (_ ∧ _))

namespace Ledger

/-- The list is empty, or the last range of it ends before the entry starts. -/
def Follows (l : List (Entry w)) (e : Entry w) : Prop :=
  ∀ last ∈ l.getLast?, last.stop < e.start

instance (l : List (Entry w)) (e : Entry w) : Decidable (Follows l e) :=
  Option.decidableForallMem l.getLast?

/-- Takes an entry in behind the others or leaves the list as it is. -/
def offer (l : List (Entry w)) (e : Entry w) : List (Entry w) :=
  if Follows l e then l ++ [e] else l

/-- Takes entries in up to the first that does not follow. -/
def offerMany (l : List (Entry w)) : List (Entry w) → List (Entry w)
  | [] => l
  | e :: es => if Follows l e then offerMany (l ++ [e]) es else l

/-- What is reported of an entry that does not follow. -/
def violation? (l : List (Entry w)) (e : Entry w) : Option (Violation w) :=
  (l.getLast?.filter fun last => e.start ≤ last.stop).map fun last =>
    ⟨e.start, e.stop, last.start, last.stop⟩

/-- What is reported of the first entry that does not follow. -/
def firstViolation? (l : List (Entry w)) : List (Entry w) → Option (Violation w)
  | [] => none
  | e :: es => (violation? l e).or (firstViolation? (l ++ [e]) es)

lemma follows_iff {l : List (Entry w)} {e : Entry w} :
    Follows l e ↔ l = [] ∨ ∃ last, l.getLast? = some last ∧ last.stop < e.start := by
  unfold Follows
  cases h : l.getLast? with
  | none =>
    have hnil : l = [] := List.getLast?_eq_none_iff.mp h
    simp [hnil]
  | some last =>
    have hne : l ≠ [] := by
      rintro rfl
      cases h
    simp [hne]

lemma violation?_eq_none_iff {l : List (Entry w)} {e : Entry w} :
    violation? l e = none ↔ Follows l e := by
  unfold violation? Follows
  rw [Option.map_eq_none_iff, Option.filter_eq_none_iff]
  simp only [decide_eq_true_eq, BitVec.not_le, Option.mem_def]

lemma ascending_append_singleton {l : List (Entry w)} {e : Entry w} :
    Entry.Ascending (l ++ [e]) ↔ Entry.Ascending l ∧ Follows l e := by
  constructor
  · intro h
    induction l with
    | nil => exact ⟨trivial, by simp [Follows]⟩
    | cons a rest ih =>
      cases rest with
      | nil => exact ⟨trivial, by simpa [Follows] using h.1⟩
      | cons b rest =>
        obtain ⟨hrest, hlast⟩ := ih h.2
        exact ⟨⟨h.1, hrest⟩, by simpa [Follows] using hlast⟩
  · rintro ⟨hl, he⟩
    exact hl.concat he

/-- Nothing is reported exactly if the entries go on in ascending order. -/
theorem firstViolation?_eq_none_iff {l es : List (Entry w)} (hl : Entry.Ascending l) :
    firstViolation? l es = none ↔ Entry.Ascending (l ++ es) := by
  induction es generalizing l with
  | nil => simpa [firstViolation?] using hl
  | cons e es ih =>
    rw [firstViolation?, Option.or_eq_none_iff, violation?_eq_none_iff]
    have hcons : l ++ e :: es = l ++ [e] ++ es := by simp
    constructor
    · rintro ⟨he, hes⟩
      rw [hcons]
      exact (ih (ascending_append_singleton.mpr ⟨hl, he⟩)).mp hes
    · intro h
      rw [hcons] at h
      obtain ⟨-, he⟩ := ascending_append_singleton.mp h.of_append_left
      exact ⟨he, (ih h.of_append_left).mpr h⟩

lemma firstViolation?_nil_eq_none_iff {es : List (Entry w)} :
    firstViolation? [] es = none ↔ Entry.Ascending es :=
  firstViolation?_eq_none_iff (l := []) trivial

lemma exists_violation_of_not_ascending {es : List (Entry w)} (h : ¬Entry.Ascending es) :
    ∃ v, firstViolation? [] es = some v :=
  Option.ne_none_iff_exists'.mp fun hnone => h (firstViolation?_nil_eq_none_iff.mp hnone)

lemma offerMany_of_ascending {l es : List (Entry w)} (h : Entry.Ascending (l ++ es)) :
    offerMany l es = l ++ es := by
  induction es generalizing l with
  | nil => simp [offerMany]
  | cons e es ih =>
    have hcons : l ++ e :: es = l ++ [e] ++ es := by simp
    rw [hcons] at h
    obtain ⟨-, he⟩ := ascending_append_singleton.mp h.of_append_left
    rw [offerMany, if_pos he, ih h, hcons]

end Ledger

namespace RangeTable

open Ledger

lemma obstacle?_eq_filter (t : RangeTable w) (e : Entry w) :
    t.obstacle? e = t.entries.getLast?.filter fun last => e.start ≤ last.stop := by
  rw [obstacle?_eq_filter_le, ← getLast?_entries]

lemma obstacle?_eq_none_iff {t : RangeTable w} {e : Entry w} :
    t.obstacle? e = none ↔ Follows t.entries e := by
  rw [obstacle?_eq_filter, ← violation?_eq_none_iff, violation?, Option.map_eq_none_iff]

lemma insert_of_follows {t : RangeTable w} {e : Entry w} (h : Follows t.entries e) :
    (t.insert e).fault = none ∧ (t.insert e).state.entries = t.entries ++ [e] := by
  have hfree : t.obstacle? e = none := obstacle?_eq_none_iff.mpr h
  rw [insert_of_free hfree]
  exact ⟨rfl, t.entries_append e hfree⟩

lemma insert_of_not_follows {t : RangeTable w} {e : Entry w} (h : ¬Follows t.entries e) :
    (t.insert e).fault = violation? t.entries e ∧ (t.insert e).state = t := by
  cases hlast : t.obstacle? e with
  | none => exact absurd (obstacle?_eq_none_iff.mp hlast) h
  | some last =>
    rw [insert_of_obstacle hlast]
    rw [obstacle?_eq_filter] at hlast
    refine ⟨?_, rfl⟩
    rw [violation?, hlast, Option.map_some]

theorem fault_insert (t : RangeTable w) (e : Entry w) : (t.insert e).fault = violation? t.entries e := by
  by_cases h : Follows t.entries e
  · rw [(insert_of_follows h).1, violation?_eq_none_iff.mpr h]
  · exact (insert_of_not_follows h).1

/-- An entry is taken in exactly if it follows those that are stored. -/
theorem fault_insert_eq_none_iff_follows {t : RangeTable w} {e : Entry w} :
    (t.insert e).fault = none ↔ Follows t.entries e := by
  rw [fault_insert, violation?_eq_none_iff]

theorem entries_insert (t : RangeTable w) (e : Entry w) :
    (t.insert e).state.entries = offer t.entries e := by
  by_cases h : Follows t.entries e
  · rw [(insert_of_follows h).2, offer, if_pos h]
  · rw [(insert_of_not_follows h).2, offer, if_neg h]

/-- Inserting many entries reports the first violation of the ledger. -/
theorem fault_insertMany (t : RangeTable w) (es : List (Entry w)) :
    (t.insertMany es).fault = firstViolation? t.entries es := by
  induction es generalizing t with
  | nil => rfl
  | cons e es ih =>
    have he := t.fault_insert e
    rw [insertMany, firstViolation?]
    cases hfault : (t.insert e).fault with
    | some v =>
      rw [Outcome.andThen_of_fault hfault, ← he, hfault, Option.some_or]
    | none =>
      rw [hfault] at he
      have hfollows : Follows t.entries e := violation?_eq_none_iff.mp he.symm
      rw [Outcome.andThen_of_none hfault, ← he, Option.none_or, ← (insert_of_follows hfollows).2]
      exact ih (t.insert e).state

/-- Inserting many entries stores those that the ledger takes in. -/
theorem entries_insertMany (t : RangeTable w) (es : List (Entry w)) :
    (t.insertMany es).state.entries = offerMany t.entries es := by
  induction es generalizing t with
  | nil => rfl
  | cons e es ih =>
    rw [insertMany, offerMany]
    by_cases h : Follows t.entries e
    · obtain ⟨hfault, hentries⟩ := insert_of_follows h
      rw [Outcome.andThen_of_none hfault, if_pos h, ← hentries]
      exact ih (t.insert e).state
    · obtain ⟨hfault, hstate⟩ := insert_of_not_follows h
      have hsome : violation? t.entries e ≠ none := fun hnone => h (violation?_eq_none_iff.mp hnone)
      obtain ⟨v, hv⟩ := Option.ne_none_iff_exists'.mp hsome
      rw [Outcome.andThen_of_fault (hfault.trans hv), if_neg h, hstate]

/-- Entries are stored in an empty table exactly if they are ascending. -/
theorem result_insertMany_vacant (capacity : Nat) (es : List (Entry w)) :
    (Entry.Ascending es →
        ∃ t, ((vacant capacity).insertMany es).result = .ok t ∧ t.entries = es) ∧
      ∀ v, firstViolation? [] es = some v → ((vacant capacity).insertMany es).result = .error v := by
  have hfault : ((vacant capacity).insertMany es).fault = firstViolation? [] es :=
    fault_insertMany _ es
  have hentries : ((vacant capacity).insertMany es).state.entries = offerMany [] es :=
    entries_insertMany _ es
  constructor
  · intro h
    have hnone : firstViolation? [] es = none := firstViolation?_nil_eq_none_iff.mpr h
    refine ⟨((vacant capacity).insertMany es).state, ?_, ?_⟩
    · rw [Outcome.result, hfault, hnone]
    · rw [hentries, offerMany_of_ascending (l := []) h, List.nil_append]
  · intro v hv
    rw [Outcome.result, hfault, hv]

/-- A table is made of entries exactly if they are ascending. -/
theorem exists_ofEntries_iff (hint : Hint w) {es : List (Entry w)} :
    (∃ t, (ofEntries hint es).result = .ok t) ↔ Entry.Ascending es := by
  rw [Outcome.exists_result_eq_ok_iff, ofEntries, fault_insertMany, entries_vacant,
    firstViolation?_nil_eq_none_iff]

end RangeTable

end AddressAtlas

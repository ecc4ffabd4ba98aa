import AddressAtlas.Proofs.Insertions
import Mathlib.Data.List.FinRange
import Mathlib.Data.List.Sort

/-!
# Independence of the widths

Records that go to different tables may change places. What becomes of a record, and what the tables hold
in the end, depends on the order of the records of one width alone.
-/

namespace AddressAtlas

open Ledger RangeTable

section Positions

variable {α : Type} {l l' : List α}

lemma filter_take_eq_map_get (q : α → Bool) (l : List α) (k : Nat) : (l.take k).filter q =
    ((List.finRange l.length).filter fun i => decide (i.val < k) && q (l.get i)).map l.get := by
  induction l generalizing k with
  | nil => simp
  | cons a l ih =>
    cases k with
    | zero => simp
    | succ k =>
      simp only [List.take_succ_cons, List.length_cons, List.finRange_succ, List.filter_cons, List.filter_map,
        ih k]
      by_cases ha : q a = true
      · simp [ha, Function.comp_def]
      · simp [ha, Function.comp_def]

/-- Where positions change but the chosen elements keep their order, what is chosen stays the same. -/
lemma filter_take_eq_of_positions {q : α → Bool} (position : Fin l.length ≃ Fin l'.length)
    (hget : ∀ i, l'.get (position i) = l.get i)
    (hmono : ∀ i j, i < j → q (l.get i) → q (l.get j) → position i < position j) {k k' : Nat}
    (hcut : ∀ i, q (l.get i) → (i.val < k ↔ (position i).val < k')) :
    (l'.take k').filter q = (l.take k).filter q := by
  -- Both lists of positions ascend and have the same members.
  have hpositions : (List.finRange l'.length).filter (fun j => decide (j.val < k') && q (l'.get j)) =
      ((List.finRange l.length).filter fun i => decide (i.val < k) && q (l.get i)).map position := by
    refine List.Pairwise.eq_of_mem_iff (r := (· < ·)) ?_ ?_ fun j => ?_
    · exact (List.pairwise_lt_finRange _).filter _
    · rw [List.pairwise_map, List.pairwise_filter]
      refine (List.pairwise_lt_finRange _).imp fun {i j} hij hi hj => ?_
      simp only [Bool.and_eq_true] at hi hj
      exact hmono i j hij hi.2 hj.2
    · obtain ⟨i, rfl⟩ := position.surjective j
      simp only [List.mem_map, List.mem_filter, List.mem_finRange, true_and, Bool.and_eq_true,
        decide_eq_true_eq, position.injective.eq_iff, exists_eq_right, hget]
      exact and_congr_left fun hi => (hcut i hi).symm
  rw [filter_take_eq_map_get, filter_take_eq_map_get, hpositions, List.map_map]
  exact List.map_congr_left fun i _ => hget i

lemma filterMap_eq_filterMap_filter {β : Type} (part : α → Option β) (l : List α) :
    l.filterMap part = (l.filter fun a => (part a).isSome).filterMap part := by
  rw [List.filterMap_filter]
  refine List.filterMap_congr fun a _ => ?_
  cases part a with
  | none => rfl
  | some b => rfl

end Positions

/-- Both ends of the range lie below `2 ^ 32`. -/
def Record.IsNarrow (r : Record) : Prop :=
  r.start.toNat ≤ 4294967295 ∧ r.stop.toNat ≤ 4294967295

instance : DecidablePred Record.IsNarrow := fun r =>
  inferInstanceAs (Decidable (r.start.toNat ≤ 4294967295 ∧ r.stop.toNat ≤ 4294967295))

/-- A second order of records, in which those of one width stand as they stood before. -/
structure Reordering (records records' : List Record) where
  /-- Where each record has gone. -/
  position : Fin records.length ≃ Fin records'.length
  get_position : ∀ i, records'.get (position i) = records.get i
  position_lt : ∀ i j, i < j → ((records.get i).IsNarrow ↔ (records.get j).IsNarrow) →
    position i < position j

namespace Atlas

variable {a b : Atlas} {r : Record} {records records' : List Record}

lemma isSome_toNarrow?_iff {key : Key .wide} : key.toNarrow?.isSome ↔ key.toNat ≤ 4294967295 := by
  rw [Option.isSome_iff_ne_none, Ne, Key.toNarrow?_eq_none_iff, Nat.not_le, Nat.lt_succ_iff]

lemma isSome_narrowPart?_iff : (narrowPart? r).isSome ↔ r.IsNarrow := by
  unfold narrowPart? Record.IsNarrow
  rw [← isSome_toNarrow?_iff, ← isSome_toNarrow?_iff]
  cases r.start.toNarrow? with
  | none => simp
  | some start =>
    cases r.stop.toNarrow? with
    | none => simp
    | some stop => simp

lemma isSome_widePart?_iff : (widePart? r).isSome ↔ ¬r.IsNarrow := by
  unfold widePart?
  rw [← isSome_narrowPart?_iff]
  cases narrowPart? r with
  | none => simp
  | some e => simp

end Atlas

namespace Reordering

open Atlas

variable {records records' : List Record}

section Part

variable {w : Width} {part : Record → Option (Entry w)} (ρ : Reordering records records')
  (hside : ∀ r s, (part r).isSome → (part s).isSome → (r.IsNarrow ↔ s.IsNarrow))

include ρ hside

lemma filterMap_take_eq (k k' : Nat)
    (hcut : ∀ i, (part (records.get i)).isSome → (i.val < k ↔ (ρ.position i).val < k')) :
    (records'.take k').filterMap part = (records.take k).filterMap part := by
  rw [filterMap_eq_filterMap_filter, filterMap_eq_filterMap_filter part (records.take k),
    filter_take_eq_of_positions ρ.position ρ.get_position _ hcut]
  exact fun i j hij hi hj => ρ.position_lt i j hij (hside _ _ hi hj)

lemma filterMap_eq : records'.filterMap part = records.filterMap part := by
  have hcut := ρ.filterMap_take_eq hside records.length records'.length
    fun i _ => iff_of_true i.isLt (ρ.position i).isLt
  rwa [List.take_length, List.take_length] at hcut

lemma filterMap_take_position {i : Fin records.length} (hi : (part (records.get i)).isSome) :
    (records'.take (ρ.position i)).filterMap part = (records.take i).filterMap part := by
  refine ρ.filterMap_take_eq hside _ _ fun j hj => ⟨fun hlt => ?_, fun hlt => ?_⟩
  · exact ρ.position_lt j i hlt (hside _ _ hj hi)
  · by_contra hle
    rcases Nat.eq_or_lt_of_not_lt hle with heq | hgt
    · rw [Fin.ext heq] at hlt
      exact Nat.lt_irrefl _ hlt
    · exact Nat.lt_asymm hlt (ρ.position_lt i j hgt (hside _ _ hi hj))

end Part

lemma narrow_side (r s : Record) (hr : (narrowPart? r).isSome) (hs : (narrowPart? s).isSome) :
    r.IsNarrow ↔ s.IsNarrow :=
  iff_of_true (isSome_narrowPart?_iff.mp hr) (isSome_narrowPart?_iff.mp hs)

lemma wide_side (r s : Record) (hr : (widePart? r).isSome) (hs : (widePart? s).isSome) :
    r.IsNarrow ↔ s.IsNarrow :=
  iff_of_false (isSome_widePart?_iff.mp hr) (isSome_widePart?_iff.mp hs)

lemma getElem?_faults_position (ρ : Reordering records records') (a : Atlas) (i : Fin records.length) :
    (a.faults records')[(ρ.position i).val]? = (a.faults records)[i.val]? := by
  have hget : records'[(ρ.position i).val]? = records[i.val]? := by
    rw [List.getElem?_eq_getElem (ρ.position i).isLt, List.getElem?_eq_getElem i.isLt]
    exact congrArg some (ρ.get_position i)
  rw [getElem?_faults, getElem?_faults, hget, List.getElem?_eq_getElem i.isLt, Option.map_some,
    Option.map_some, Option.some_inj]
  -- The table of the record holds what it held before, whatever the other one holds.
  rcases parts_cases records[i.val] with ⟨e, he, -⟩ | ⟨e, he, -⟩
  · have hpart : (narrowPart? (records.get i)).isSome := Option.isSome_of_eq_some he
    rw [(insert_narrow he).1, (insert_narrow he).1, Atlas.insertAll_eq, Atlas.insertAll_eq,
      ρ.filterMap_take_position narrow_side hpart]
  · have hpart : (widePart? (records.get i)).isSome := Option.isSome_of_eq_some he
    rw [(insert_wide he).1, (insert_wide he).1, Atlas.insertAll_eq, Atlas.insertAll_eq,
      ρ.filterMap_take_position wide_side hpart]

lemma insertAll_eq (ρ : Reordering records records') (a : Atlas) :
    a.insertAll records' = a.insertAll records := by
  rw [Atlas.insertAll_eq, Atlas.insertAll_eq, ρ.filterMap_eq narrow_side, ρ.filterMap_eq wide_side]

lemma result_ofRecords_iff (ρ : Reordering records records') {b : Atlas} :
    (ofRecords records').result = .ok b ↔ (ofRecords records).result = .ok b := by
  rw [result_ofRecords_eq_ok_iff, result_ofRecords_eq_ok_iff, ρ.insertAll_eq, faults_eq_none_iff,
    faults_eq_none_iff, ρ.filterMap_eq narrow_side, ρ.filterMap_eq wide_side]

end Reordering

namespace Atlas

variable {records records' : List Record} {narrowHint : Hint .narrow} {wideHint : Hint .wide}

lemma fitted_insertMany_vacant {w : Width} (capacity capacity' : Nat) (es : List (Entry w)) :
    ((vacant capacity).insertMany es).state.fitted = ((vacant capacity').insertMany es).state.fitted :=
  fitted_eq_of_entries_eq (by rw [entries_insertMany, entries_insertMany, entries_vacant, entries_vacant])

lemma exists_ofRecords_iff : (∃ b, (ofRecords records).result = .ok b) ↔
    (∃ s, (ofEntries narrowHint (records.filterMap narrowPart?)).result = .ok s) ∧
      ∃ t, (ofEntries wideHint (records.filterMap widePart?)).result = .ok t := by
  simp only [result_ofRecords_eq_ok_iff, exists_and_left, exists_eq, and_true, faults_eq_none_iff,
    Outcome.exists_result_eq_ok_iff, ofEntries, fault_insertMany, entries_vacant]
  rfl

lemma eq_fitted_of_ofEntries {b : Atlas} {s : RangeTable .narrow} {t : RangeTable .wide}
    (hb : (ofRecords records).result = .ok b)
    (hs : (ofEntries narrowHint (records.filterMap narrowPart?)).result = .ok s)
    (ht : (ofEntries wideHint (records.filterMap widePart?)).result = .ok t) : b = ⟨s.fitted, t.fitted⟩ := by
  obtain ⟨hfaults, rfl⟩ := result_ofRecords_eq_ok_iff.mp hb
  obtain ⟨hnarrow, hwide⟩ := (faults_eq_none_iff empty records).mp hfaults
  rw [insertAll_eq, fitted, ← RangeTable.state_insertMany hnarrow, ← RangeTable.state_insertMany hwide,
    ← Outcome.state_of_result hs, ← Outcome.state_of_result ht]
  exact congrArg₂ Atlas.mk (fitted_insertMany_vacant _ _ _) (fitted_insertMany_vacant _ _ _)

/-- The order of records of different widths does not matter: every record is accepted or refused as
before, the tables are the same in the end, and each of them is the one made of its own records, whatever has been
announced of them. -/
theorem widths_independent (ρ : Reordering records records') (narrowHint : Hint .narrow) (wideHint : Hint .wide) :
    (∀ (a : Atlas) (i : Fin records.length),
      (a.faults records')[(ρ.position i).val]? = (a.faults records)[i.val]?) ∧
    (∀ a : Atlas, a.insertAll records' = a.insertAll records) ∧
    (∀ b, (ofRecords records').result = .ok b ↔ (ofRecords records).result = .ok b) ∧
    ((∃ b, (ofRecords records).result = .ok b) ↔
      (∃ s, (ofEntries narrowHint (records.filterMap narrowPart?)).result = .ok s) ∧
        ∃ t, (ofEntries wideHint (records.filterMap widePart?)).result = .ok t) ∧
    ∀ b s t, (ofRecords records).result = .ok b →
      (ofEntries narrowHint (records.filterMap narrowPart?)).result = .ok s →
      (ofEntries wideHint (records.filterMap widePart?)).result = .ok t →
        b = ⟨s.fitted, t.fitted⟩ ∧ (b.narrow == s) = true ∧ (b.wide == t) = true := by
  refine ⟨ρ.getElem?_faults_position, ρ.insertAll_eq, fun b => ρ.result_ofRecords_iff,
    exists_ofRecords_iff, ?_⟩
  intro b s t hb hs ht
  obtain rfl := eq_fitted_of_ofEntries hb hs ht
  exact ⟨rfl, beq_iff_entries_eq.mpr rfl, beq_iff_entries_eq.mpr rfl⟩

/-- A narrow range, a wide one, and a narrow one that is refused. -/
def mixedRecords : List Record :=
  [⟨0, 10, ⟨⟨0, 20⟩, ⟨0.0, 0.0⟩⟩⟩, ⟨4294967290, 4294967300, ⟨⟨9, 15⟩, ⟨0.0, 0.0⟩⟩⟩,
    ⟨5, 7, ⟨⟨3, 4⟩, ⟨0.0, 0.0⟩⟩⟩]

@[inherit_doc mixedRecords]
def movedRecords : List Record :=
  [⟨0, 10, ⟨⟨0, 20⟩, ⟨0.0, 0.0⟩⟩⟩, ⟨5, 7, ⟨⟨3, 4⟩, ⟨0.0, 0.0⟩⟩⟩,
    ⟨4294967290, 4294967300, ⟨⟨9, 15⟩, ⟨0.0, 0.0⟩⟩⟩]

def movedLast : Reordering mixedRecords movedRecords where
  position := (Equiv.swap 1 2 : Equiv.Perm (Fin 3))
  get_position
    | ⟨0, _⟩ => rfl
    | ⟨1, _⟩ => rfl
    | ⟨2, _⟩ => rfl
  position_lt := by decide

theorem movedLast_fault :
    (empty.faults movedRecords)[1]? = some (some (.narrowOrdering ⟨5, 7, 0, 10⟩)) :=
  ((widths_independent movedLast ⟨2, by decide⟩ ⟨0, by decide⟩).1 empty ⟨2, by decide⟩).trans (by decide)

end Atlas

end AddressAtlas

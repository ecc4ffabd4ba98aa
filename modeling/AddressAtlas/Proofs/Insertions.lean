import AddressAtlas.Proofs.AtlasLookup

/-!
# Insertions into an atlas

Records are inserted one after the other, whatever becomes of each. What happens in one of the two tables
depends on the records that go there alone, so that an atlas is two tables that are filled side by side.
-/

namespace AddressAtlas

open Ledger RangeTable

namespace RangeTable

variable {w : Width}

/-- Inserts entries one after the other, whatever becomes of each. -/
def insertAll (t : RangeTable w) (es : List (Entry w)) : RangeTable w :=
  es.foldl (fun t e => (t.insert e).state) t

lemma insertAll_cons (t : RangeTable w) (e : Entry w) (es : List (Entry w)) :
    t.insertAll (e :: es) = (t.insert e).state.insertAll es :=
  rfl

lemma fault_insertMany_cons_eq_none_iff {t : RangeTable w} {e : Entry w} {es : List (Entry w)} :
    (t.insertMany (e :: es)).fault = none ↔
      (t.insert e).fault = none ∧ ((t.insert e).state.insertMany es).fault = none :=
  Outcome.fault_andThen_eq_none_iff

lemma state_insertMany {t : RangeTable w} {es : List (Entry w)} (h : (t.insertMany es).fault = none) :
    (t.insertMany es).state = t.insertAll es := by
  induction es generalizing t with
  | nil => rfl
  | cons e es ih =>
    obtain ⟨he, hes⟩ := fault_insertMany_cons_eq_none_iff.mp h
    rw [insertAll_cons, ← ih hes, insertMany, Outcome.state_andThen_of_none he]

lemma size_insert {t : RangeTable w} {e : Entry w} (h : (t.insert e).fault = none) :
    (t.insert e).state.size = t.size + 1 := by
  rw [fault_insert_eq_none_iff_follows] at h
  rw [← length_entries, (insert_of_follows h).2, List.length_append, length_entries]
  rfl

lemma exists_grew_of_mem_events {t : RangeTable w} {e : Entry w} (h : (t.insert e).fault = none) :
    ∀ event ∈ (t.insert e).events, ∃ capacity, event = .grew capacity := by
  intro event hevent
  rw [fault_insert_eq_none_iff_follows, ← obstacle?_eq_none_iff] at h
  rw [insert_of_free h] at hevent
  by_cases hfull : t.size = t.capacity
  · rw [if_pos hfull] at hevent
    exact ⟨_, List.mem_singleton.mp hevent⟩
  · rw [if_neg hfull] at hevent
    cases hevent

lemma fitted_eq_of_entries_eq {s t : RangeTable w} (h : s.entries = t.entries) : s.fitted = t.fitted := by
  have hwords : s.words = t.words := by
    rw [← Array.toList_inj, toList_words, toList_words, h]
  have hvalues : s.values = t.values := by
    rw [← Array.toList_inj, toList_values, toList_values, h]
  unfold fitted
  simp only [hwords, hvalues, size]

end RangeTable

namespace Atlas

/-- Inserts records one after the other, whatever becomes of each. -/
def insertAll (a : Atlas) (records : List Record) : Atlas :=
  records.foldl (fun a r => (a.insert r).state) a

/-- The faults that insertion of each of the records reports. -/
def faults (a : Atlas) : List Record → List (Option GeoFault)
  | [] => []
  | r :: rest => (a.insert r).fault :: faults (a.insert r).state rest

variable {a b : Atlas} {r : Record} {records : List Record}

lemma insertAll_cons (a : Atlas) (r : Record) (records : List Record) :
    a.insertAll (r :: records) = (a.insert r).state.insertAll records :=
  rfl

lemma insertAll_append (a : Atlas) (records more : List Record) :
    a.insertAll (records ++ more) = (a.insertAll records).insertAll more :=
  List.foldl_append

lemma faults_append (a : Atlas) (records more : List Record) :
    a.faults (records ++ more) = a.faults records ++ (a.insertAll records).faults more := by
  induction records generalizing a with
  | nil => rfl
  | cons r records ih => exact congrArg ((a.insert r).fault :: ·) (ih (a.insert r).state)

lemma getElem?_faults (a : Atlas) (records : List Record) (i : Nat) :
    (a.faults records)[i]? =
      records[i]?.map fun r => ((a.insertAll (records.take i)).insert r).fault := by
  induction records generalizing a i with
  | nil => rfl
  | cons r records ih =>
    cases i with
    | zero => rfl
    | succ i => exact ih (a.insert r).state i

lemma insert_narrow {e : Entry .narrow} (h : narrowPart? r = some e) :
    (a.insert r).fault = (a.narrow.insert e).fault.map .narrowOrdering ∧
      (a.insert r).state = ⟨(a.narrow.insert e).state, a.wide⟩ := by
  rw [insert_of_narrow h]
  exact ⟨rfl, rfl⟩

lemma insert_wide {e : Entry .wide} (h : widePart? r = some e) :
    (a.insert r).fault = (a.wide.insert e).fault.map .wideOrdering ∧
      (a.insert r).state = ⟨a.narrow, (a.wide.insert e).state⟩ := by
  rw [insert_of_wide h]
  exact ⟨rfl, rfl⟩

lemma size_insert (h : (a.insert r).fault = none) : (a.insert r).state.size = a.size + 1 := by
  unfold Atlas.size
  rcases parts_cases r with ⟨e, he, -⟩ | ⟨e, he, -⟩
  · rw [(insert_narrow he).1, Option.map_eq_none_iff] at h
    simp only [(insert_narrow he).2, RangeTable.size_insert h]
    omega
  · rw [(insert_wide he).1, Option.map_eq_none_iff] at h
    simp only [(insert_wide he).2, RangeTable.size_insert h]
    omega

lemma exists_grew_of_mem_events (h : (a.insert r).fault = none) :
    ∀ event ∈ (a.insert r).events, ∃ capacity, event = .grew capacity := by
  rcases parts_cases r with ⟨e, he, -⟩ | ⟨e, he, -⟩
  · rw [(insert_narrow he).1, Option.map_eq_none_iff] at h
    rw [insert_of_narrow he]
    exact RangeTable.exists_grew_of_mem_events h
  · rw [(insert_wide he).1, Option.map_eq_none_iff] at h
    rw [insert_of_wide he]
    exact RangeTable.exists_grew_of_mem_events h

/-- Each of the two tables is filled with its own part of the records. -/
theorem insertAll_eq (a : Atlas) (records : List Record) :
    a.insertAll records = ⟨a.narrow.insertAll (records.filterMap narrowPart?),
      a.wide.insertAll (records.filterMap widePart?)⟩ := by
  induction records generalizing a with
  | nil => rfl
  | cons r records ih =>
    rw [insertAll_cons, ih]
    rcases parts_cases r with ⟨e, he, hnone⟩ | ⟨e, he, hnone⟩
    · rw [(insert_narrow he).2, List.filterMap_cons_some he, List.filterMap_cons_none hnone,
        RangeTable.insertAll_cons]
    · rw [(insert_wide he).2, List.filterMap_cons_some he, List.filterMap_cons_none hnone,
        RangeTable.insertAll_cons]

/-- No record is refused exactly if neither table refuses its part of them. -/
theorem faults_eq_none_iff (a : Atlas) (records : List Record) : (∀ f ∈ a.faults records, f = none) ↔
    (a.narrow.insertMany (records.filterMap narrowPart?)).fault = none ∧
      (a.wide.insertMany (records.filterMap widePart?)).fault = none := by
  induction records generalizing a with
  | nil => exact ⟨fun _ => ⟨rfl, rfl⟩, fun _ f hf => absurd hf List.not_mem_nil⟩
  | cons r records ih =>
    rw [faults, List.forall_mem_cons, ih]
    rcases parts_cases r with ⟨e, he, hnone⟩ | ⟨e, he, hnone⟩
    · rw [(insert_narrow he).1, (insert_narrow he).2, List.filterMap_cons_some he,
        List.filterMap_cons_none hnone, fault_insertMany_cons_eq_none_iff, Option.map_eq_none_iff, and_assoc]
    · rw [(insert_wide he).1, (insert_wide he).2, List.filterMap_cons_some he,
        List.filterMap_cons_none hnone, fault_insertMany_cons_eq_none_iff, Option.map_eq_none_iff]
      exact and_left_comm

lemma fault_insertMany_eq_none_iff (n : Nat) :
    (insertMany n a records).fault = none ↔ ∀ f ∈ a.faults records, f = none := by
  induction records generalizing a n with
  | nil => exact ⟨fun _ f hf => absurd hf List.not_mem_nil, fun _ => rfl⟩
  | cons r records ih =>
    rw [faults, List.forall_mem_cons, insertMany, Outcome.fault_andThen_eq_none_iff, ih,
      Outcome.fault_mapFault, Outcome.state_mapFault, Option.map_eq_none_iff]

lemma state_insertMany {n : Nat} (h : (insertMany n a records).fault = none) :
    (insertMany n a records).state = a.insertAll records := by
  induction records generalizing a n with
  | nil => rfl
  | cons r records ih =>
    obtain ⟨hr, hrest⟩ := Outcome.fault_andThen_eq_none_iff.mp h
    rw [insertMany, Outcome.state_andThen_of_none hr, ih hrest]
    rfl

/-- The same atlas without spare room. -/
def fitted (a : Atlas) : Atlas :=
  ⟨a.narrow.fitted, a.wide.fitted⟩

/-- What is reported of the room that the tables give back, the narrow one first. -/
def trimEvents (a : Atlas) : List Event :=
  (if a.narrow.size = a.narrow.capacity then [] else [.trimmed a.narrow.size]) ++
    if a.wide.size = a.wide.capacity then [] else [.trimmed a.wide.size]

lemma trim_eq {ε : Type} (a : Atlas) :
    (a.trim : Outcome _ ε) = { state := a.fitted, events := a.trimEvents } := by
  unfold trim
  rw [RangeTable.trim_eq, Outcome.andThen_of_none rfl]
  simp only [Outcome.map]
  rw [RangeTable.trim_eq]
  rfl

/-- An atlas is made of records exactly if none of them is refused. -/
theorem result_ofRecords_eq_ok_iff : (ofRecords records).result = .ok b ↔
    (∀ f ∈ empty.faults records, f = none) ∧ b = (empty.insertAll records).fitted := by
  rw [Outcome.result_eq_ok_iff, ofRecords, Outcome.fault_andThen_eq_none_iff, trim_eq,
    ← fault_insertMany_eq_none_iff 0]
  simp only [and_true]
  refine and_congr_right fun h => ?_
  rw [Outcome.state_andThen_of_none h, trim_eq, state_insertMany h]
  exact eq_comm

end Atlas

end AddressAtlas

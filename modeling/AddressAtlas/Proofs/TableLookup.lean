import AddressAtlas.Proofs.BoundarySearch
import AddressAtlas.Proofs.EntryOrder
import AddressAtlas.Proofs.Storage
import AddressAtlas.RangeTable.Lookup

/-!
# Lookups as a scan of the entries

The search over stored boundaries finds the entry that a scan of all entries finds, if no stored range is
reversed. An index that the search returns always lies within the table.
-/

namespace AddressAtlas.RangeTable

variable {w : Width}

lemma getElem?_boundaries_entries (t : RangeTable w) {i : Nat} (h : i < 2 * t.size) :
    (Entry.boundaries t.entries)[i]? = some (Key.ofWords (boundaryWords t.words i)) := by
  have hhalf : i / 2 < t.values.size := by
    have hsize : t.size = t.values.size := rfl
    omega
  have hentry : t.entries[i / 2]? = some (entryWith t.words (i / 2) t.values[i / 2]) := by
    rw [getElem?_entries]
    unfold entry?
    rw [Array.getElem?_eq_getElem hhalf, Option.map_some]
  rcases Nat.mod_two_eq_zero_or_one i with hi | hi
  · have hindex : 2 * (i / 2) = i := by omega
    have hget := Entry.getElem?_boundaries_start t.entries (i / 2)
    rw [hindex, hentry] at hget
    rw [hget, Option.map_some, entryWith, hindex]
  · have hindex : 2 * (i / 2) + 1 = i := by omega
    have hget := Entry.getElem?_boundaries_stop t.entries (i / 2)
    rw [hindex, hentry] at hget
    rw [hget, Option.map_some, entryWith, hindex]

lemma compareStored_boundaryWords (t : RangeTable w) {i : Nat} {boundary : Key w}
    (h : (Entry.boundaries t.entries)[i]? = some boundary) (key : Key w) :
    Key.compareStored (boundaryWords t.words i) key = Key.compare boundary key := by
  obtain ⟨hi, -⟩ := List.getElem?_eq_some_iff.mp h
  rw [Entry.length_boundaries, length_entries] at hi
  have hkey : boundary = Key.ofWords (boundaryWords t.words i) := by
    rw [t.getElem?_boundaries_entries hi] at h
    exact (Option.some.inj h).symm
  rw [hkey, Key.compareStored_eq_compare_ofWords (t.length_boundaryWords hi)]

lemma ascending_entries (t : RangeTable w) : Entry.Ascending t.entries :=
  t.ascending

lemma ascending_compareStored (t : RangeTable w) (hproper : ∀ e ∈ t.entries, e.start ≤ e.stop)
    (key : Key w) : Search.Ascending
      (fun i => Key.compareStored (boundaryWords t.words i) key) (2 * t.size) := by
  have hsorted := List.pairwise_iff_getElem.mp (t.ascending_entries.pairwise_boundaries hproper)
  have hlength : (Entry.boundaries t.entries).length = 2 * t.size := by simp
  have hstored : ∀ i (hi : i < (Entry.boundaries t.entries).length),
      Key.compareStored (boundaryWords t.words i) key =
        Key.compare (Entry.boundaries t.entries)[i] key := fun i hi =>
    t.compareStored_boundaryWords (List.getElem?_eq_getElem hi) key
  have hle : ∀ i j (hij : i ≤ j) (hj : j < (Entry.boundaries t.entries).length),
      (Entry.boundaries t.entries)[i] ≤ (Entry.boundaries t.entries)[j] := by
    intro i j hij hj
    rcases Nat.lt_or_eq_of_le hij with hlt | rfl
    · exact hsorted i j (by omega) hj hlt
    · exact BitVec.le_refl _
  constructor
  · intro i j hij hj hlt
    rw [hstored j (by omega), Key.compare_eq_lt] at hlt
    rw [hstored i (by omega), Key.compare_eq_lt]
    exact Std.lt_of_le_of_lt (hle i j hij (by omega)) hlt
  · intro i j hij hj hgt
    rw [hstored i (by omega), Key.compare_eq_gt] at hgt
    rw [hstored j (by omega), Key.compare_eq_gt]
    exact Std.lt_of_lt_of_le hgt (hle i j hij (by omega))

lemma compareStored_start (t : RangeTable w) {i : Nat} {e : Entry w} (he : t.entries[i]? = some e)
    (key : Key w) : Key.compareStored (boundaryWords t.words (2 * i)) key = Key.compare e.start key := by
  apply t.compareStored_boundaryWords
  rw [Entry.getElem?_boundaries_start, he, Option.map_some]

lemma compareStored_stop (t : RangeTable w) {i : Nat} {e : Entry w} (he : t.entries[i]? = some e)
    (key : Key w) :
    Key.compareStored (boundaryWords t.words (2 * i + 1)) key = Key.compare e.stop key := by
  apply t.compareStored_boundaryWords
  rw [Entry.getElem?_boundaries_stop, he, Option.map_some]

lemma exists_getElem?_entries (t : RangeTable w) {i : Nat} (h : i < t.size) :
    ∃ e, t.entries[i]? = some e := by
  have hlength : i < t.entries.length := by rwa [length_entries]
  exact ⟨t.entries[i], List.getElem?_eq_getElem hlength⟩

lemma contains_of_hit (t : RangeTable w) (hproper : ∀ e ∈ t.entries, e.start ≤ e.stop) {key : Key w}
    {n : Nat} (hn : n < 2 * t.size) (heq : Key.compareStored (boundaryWords t.words n) key = .eq) :
    ∃ e, t.entries[n / 2]? = some e ∧ e.Contains key := by
  obtain ⟨e, he⟩ := t.exists_getElem?_entries (i := n / 2) (by omega)
  have hle : e.start ≤ e.stop := hproper e (List.mem_of_getElem? he)
  refine ⟨e, he, ?_⟩
  rcases Nat.mod_two_eq_zero_or_one n with hmod | hmod
  · have hindex : n = 2 * (n / 2) := by omega
    rw [hindex, t.compareStored_start he, Key.compare_eq_eq] at heq
    exact heq ▸ ⟨BitVec.le_refl _, hle⟩
  · have hindex : n = 2 * (n / 2) + 1 := by omega
    rw [hindex, t.compareStored_stop he, Key.compare_eq_eq] at heq
    exact heq ▸ ⟨hle, BitVec.le_refl _⟩

lemma contains_of_odd_gap (t : RangeTable w) {key : Key w} {n : Nat} (hodd : n % 2 = 1)
    (hn : Search.Brackets (fun i => Key.compareStored (boundaryWords t.words i) key)
      (2 * t.size) n n) : ∃ e, t.entries[n / 2]? = some e ∧ e.Contains key := by
  have hcount := hn.high_le_count
  obtain ⟨e, he⟩ := t.exists_getElem?_entries (i := n / 2) (by omega)
  have hstart := hn.lt_before (2 * (n / 2)) (by omega)
  have hstop := hn.gt_behind (2 * (n / 2) + 1) (by omega) (by omega)
  rw [t.compareStored_start he, Key.compare_eq_lt] at hstart
  rw [t.compareStored_stop he, Key.compare_eq_gt] at hstop
  exact ⟨e, he, BitVec.le_of_lt hstart, BitVec.le_of_lt hstop⟩

lemma not_contains_of_even_gap (t : RangeTable w) {key : Key w} {n : Nat} (heven : n % 2 = 0)
    (hn : Search.Brackets (fun i => Key.compareStored (boundaryWords t.words i) key)
      (2 * t.size) n n) {i : Nat} {e : Entry w} (he : t.entries[i]? = some e) : ¬e.Contains key := by
  rintro ⟨hstart, hstop⟩
  by_cases hi : 2 * i < n
  · have hlt := hn.lt_before (2 * i + 1) (by omega)
    rw [t.compareStored_stop he, Key.compare_eq_lt] at hlt
    exact BitVec.not_le.mpr hlt hstop
  · obtain ⟨hsize, -⟩ := List.getElem?_eq_some_iff.mp he
    rw [length_entries] at hsize
    have hgt := hn.gt_behind (2 * i) (by omega) (by omega)
    rw [t.compareStored_start he, Key.compare_eq_gt] at hgt
    exact BitVec.not_le.mpr hgt hstart

/-- The search for a key ends in the one range that contains it. -/
theorem indexOf?_eq_some_iff (t : RangeTable w) (hproper : ∀ e ∈ t.entries, e.start ≤ e.stop)
    {key : Key w} {i : Nat} :
    t.indexOf? key = some i ↔ ∃ e, t.entries[i]? = some e ∧ e.Contains key := by
  have hsorted := t.ascending_compareStored hproper key
  have hunique : ∀ j, (∃ e, t.entries[j]? = some e ∧ e.Contains key) →
      (some j = some i ↔ ∃ e, t.entries[i]? = some e ∧ e.Contains key) := by
    rintro j ⟨a, ha, hakey⟩
    constructor
    · rintro hij
      obtain rfl : j = i := Option.some.inj hij
      exact ⟨a, ha, hakey⟩
    · rintro ⟨b, hb, hbkey⟩
      rw [t.ascending_entries.index_unique hproper ha hb hakey hbkey]
  unfold indexOf? Search.enclosing?
  split
  · rename_i n hposition
    obtain ⟨hn, heq⟩ := Search.position_hit hposition
    exact hunique (n / 2) (t.contains_of_hit hproper hn heq)
  · rename_i n hposition
    have hn := Search.position_gap hsorted hposition
    rcases Nat.mod_two_eq_zero_or_one n with hmod | hmod
    · rw [if_neg (by omega)]
      constructor
      · intro h
        cases h
      · rintro ⟨e, he, hkey⟩
        exact absurd hkey (t.not_contains_of_even_gap hmod hn he)
    · rw [if_pos hmod]
      exact hunique (n / 2) (t.contains_of_odd_gap hmod hn)

/-- A lookup hands out the entry that a scan of all entries finds. -/
theorem findEntry?_eq_find? (t : RangeTable w) (hproper : ∀ e ∈ t.entries, e.start ≤ e.stop)
    (key : Key w) : findEntry? t key = t.entries.find? fun e => e.Contains key := by
  unfold findEntry?
  cases h : t.indexOf? key with
  | none =>
    have hnone : ∀ e ∈ t.entries, ¬e.Contains key := by
      intro e he hkey
      obtain ⟨i, hi⟩ := List.mem_iff_getElem?.mp he
      rw [(t.indexOf?_eq_some_iff hproper).mpr ⟨e, hi, hkey⟩] at h
      cases h
    rw [List.find?_eq_none.mpr (by simpa using hnone)]
    rfl
  | some i =>
    obtain ⟨e, he, hkey⟩ := (t.indexOf?_eq_some_iff hproper).mp h
    have hscan := (t.ascending_entries.find?_eq_some_iff hproper).mpr ⟨List.mem_of_getElem? he, hkey⟩
    rw [hscan]
    exact (t.getElem?_entries i).symm.trans he

lemma find?_eq_map_value (t : RangeTable w) (key : Key w) :
    t.find? key = ( findEntry? t key).map Entry.value := by
  have hvalue : ∀ i : Nat, t.values[i]? = Option.map Entry.value t.entries[i]? := by
    intro i
    rw [← List.getElem?_map, ← toList_values, Array.getElem?_toList]
  unfold find? findEntry?
  cases h : t.indexOf? key with
  | none => rfl
  | some i => exact (hvalue i).trans (congrArg (Option.map Entry.value) (t.getElem?_entries i))

/-- A value is found exactly if an entry with this value contains the key. -/
theorem find?_eq_some_iff (t : RangeTable w) (hproper : ∀ e ∈ t.entries, e.start ≤ e.stop)
    {key : Key w} {v : Int32} :
    t.find? key = some v ↔ ∃ e ∈ t.entries, e.Contains key ∧ e.value = v := by
  rw [find?_eq_map_value, findEntry?_eq_find? t hproper, Option.map_eq_some_iff]
  constructor
  · rintro ⟨e, he, hv⟩
    obtain ⟨hmem, hkey⟩ := (t.ascending_entries.find?_eq_some_iff hproper).mp he
    exact ⟨e, hmem, hkey, hv⟩
  · rintro ⟨e, hmem, hkey, hv⟩
    exact ⟨e, (t.ascending_entries.find?_eq_some_iff hproper).mpr ⟨hmem, hkey⟩, hv⟩

lemma contains_eq_isSome (t : RangeTable w) (key : Key w) :
    t.contains key = ( findEntry? t key).isSome := by
  unfold contains findEntry?
  cases h : t.indexOf? key with
  | none => rfl
  | some i =>
    obtain ⟨e, he⟩ := t.exists_getElem?_entries (Search.enclosing?_lt h)
    rw [getElem?_entries] at he
    exact (congrArg Option.isSome he).symm

end AddressAtlas.RangeTable

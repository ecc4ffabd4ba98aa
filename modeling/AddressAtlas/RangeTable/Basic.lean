import AddressAtlas.Entry
import AddressAtlas.Outcome

/-!
# Range tables

A `RangeTable` keeps ascending entries in two arrays: the words of all boundaries one after the other,
and the values. Its `entries` are the view in which it is understood; the capacity is the number of
values for which room is set aside, and no other answer depends on it.
-/

namespace AddressAtlas

variable {w : Width}

namespace RangeTable

/-- The words of boundary `i`; boundary `2 * j` starts entry `j` and boundary `2 * j + 1` stops it. -/
def boundaryWords (words : Array (Word w)) (i : Nat) : List (Word w) :=
  (words.extract (i * w.wordsPerKey) ((i + 1) * w.wordsPerKey)).toList

/-- The entry whose boundaries are stored under index `i`. -/
def entryWith (words : Array (Word w)) (i : Nat) (value : Int32) : Entry w where
  start := Key.ofWords (boundaryWords words (2 * i))
  stop := Key.ofWords (boundaryWords words (2 * i + 1))
  value := value

/-- The entries that two storage arrays stand for. -/
def entriesOf (words : Array (Word w)) (values : Array Int32) : List (Entry w) :=
  values.toList.zipIdx.map fun (value, i) => entryWith words i value

/-- As many words as a key has, from this offset on. -/
def wordsAt (words : Array (Word w)) (offset : Nat) : List (Word w) :=
  (words.extract offset (offset + w.wordsPerKey)).toList

theorem wordsAt_eq_take_drop (words : Array (Word w)) (offset : Nat) :
    wordsAt words offset = (words.toList.drop offset).take w.wordsPerKey := by
  rw [wordsAt, Array.toList_extract, List.extract_eq_take_drop, Nat.add_sub_cancel_left]

theorem boundaryWords_eq_wordsAt (words : Array (Word w)) (i : Nat) :
    boundaryWords words i = wordsAt words (i * w.wordsPerKey) := by
  rw [boundaryWords, wordsAt, Nat.add_mul, Nat.one_mul]

/-- Words stay where they are when more are pushed behind them. -/
theorem wordsAt_append_left {words : Array (Word w)} {offset : Nat} (more : List (Word w))
    (h : offset + w.wordsPerKey ≤ words.size) : wordsAt (words ++ more) offset = wordsAt words offset := by
  have hoffset : offset ≤ words.toList.length := by
    rw [Array.length_toList]
    omega
  have hrest : w.wordsPerKey ≤ (words.toList.drop offset).length := by
    rw [List.length_drop, Array.length_toList]
    omega
  rw [wordsAt_eq_take_drop, wordsAt_eq_take_drop, Array.toList_appendList,
    List.drop_append_of_le_length hoffset, List.take_append_of_le_length hrest]

/-- The words of a key stand where the array ended before they were pushed. -/
theorem wordsAt_append_toWords (words : Array (Word w)) (key : Key w) :
    wordsAt (words ++ key.toWords) words.size = key.toWords := by
  rw [wordsAt_eq_take_drop, Array.toList_appendList, ← Array.length_toList, List.drop_left]
  exact List.take_of_length_le (Nat.le_of_eq key.length_toWords)

theorem size_append_toWords (words : Array (Word w)) (key : Key w) :
    (words ++ key.toWords).size = words.size + w.wordsPerKey := by
  rw [← Array.length_toList, Array.toList_appendList, List.length_append, Array.length_toList,
    key.length_toWords]

theorem append_words (words : Array (Word w)) (e : Entry w) :
    words ++ e.words = words ++ e.start.toWords ++ e.stop.toWords := by
  apply Array.toList_inj.mp
  simp only [Entry.words, Array.toList_appendList, List.append_assoc]

theorem boundaryWords_append_left {words : Array (Word w)} {i : Nat} (more : List (Word w))
    (h : (i + 1) * w.wordsPerKey ≤ words.size) :
    boundaryWords (words ++ more) i = boundaryWords words i := by
  rw [Nat.add_mul, Nat.one_mul] at h
  rw [boundaryWords_eq_wordsAt, boundaryWords_eq_wordsAt, wordsAt_append_left more h]

theorem boundaryWords_append_start {words : Array (Word w)} {i : Nat} (e : Entry w)
    (h : words.size = i * w.wordsPerKey) : boundaryWords (words ++ e.words) i = e.start.toWords := by
  have hend : words.size + w.wordsPerKey ≤ (words ++ e.start.toWords).size :=
    Nat.le_of_eq (size_append_toWords words e.start).symm
  rw [boundaryWords_eq_wordsAt, ← h, append_words, wordsAt_append_left e.stop.toWords hend,
    wordsAt_append_toWords]

theorem boundaryWords_append_stop {words : Array (Word w)} {i : Nat} (e : Entry w)
    (h : words.size = i * w.wordsPerKey) :
    boundaryWords (words ++ e.words) (i + 1) = e.stop.toWords := by
  rw [boundaryWords_eq_wordsAt, Nat.add_mul, Nat.one_mul, ← h, ← size_append_toWords words e.start,
    append_words, wordsAt_append_toWords]

theorem entriesOf_push {words : Array (Word w)} {values : Array Int32} (e : Entry w)
    (h : words.size = values.size * (2 * w.wordsPerKey)) :
    entriesOf (words ++ e.words) (values.push e.value) = entriesOf words values ++ [e] := by
  have hsize : words.size = 2 * values.size * w.wordsPerKey := by
    rw [h, ← Nat.mul_assoc, Nat.mul_comm values.size 2]
  have hlast : entryWith (words ++ e.words) values.size e.value = e := by
    simp only [entryWith, boundaryWords_append_start e hsize, boundaryWords_append_stop e hsize,
      Key.ofWords_toWords]
  simp only [entriesOf, Array.toList_push, List.zipIdx_append, List.map_append, List.zipIdx_singleton,
    List.map_cons, List.map_nil, Nat.zero_add, Array.length_toList, hlast]
  congr 1
  apply List.map_congr_left
  rintro ⟨value, i⟩ hi
  have hi : i < values.size := by
    have := List.snd_lt_of_mem_zipIdx hi
    simpa using this
  have hstop : (2 * i + 1 + 1) * w.wordsPerKey ≤ words.size := by
    rw [hsize]
    exact Nat.mul_le_mul_right _ (by omega)
  have hstart : (2 * i + 1) * w.wordsPerKey ≤ words.size :=
    Nat.le_trans (Nat.mul_le_mul_right _ (by omega)) hstop
  simp only [entryWith, boundaryWords_append_left _ hstart, boundaryWords_append_left _ hstop]

end RangeTable

/-- Ascending entries in packed storage. -/
structure RangeTable (w : Width) where
  /-- The words of all boundaries. -/
  words : Array (Word w)
  /-- The value of each entry. -/
  values : Array Int32
  /-- The number of entries that fit without making room. -/
  capacity : Nat
  size_words : words.size = values.size * (2 * w.wordsPerKey)
  size_le_capacity : values.size ≤ capacity
  ascending : Entry.Ascending (RangeTable.entriesOf words values)

inductive StorageFault where
  | capacityOverflow
  deriving DecidableEq, Repr

def StorageFault.message : StorageFault → String
  | capacityOverflow => "capacity overflow"

namespace RangeTable

def entries (t : RangeTable w) : List (Entry w) :=
  entriesOf t.words t.values

def size (t : RangeTable w) : Nat :=
  t.values.size

def isEmpty (t : RangeTable w) : Bool :=
  t.values.isEmpty

/-- Two tables are equal if they hold the same entries, whatever room they have set aside. -/
instance : BEq (RangeTable w) where
  beq s t := s.words == t.words && s.values == t.values

/-- No entries, and room for some. -/
def vacant (capacity : Nat) : RangeTable w where
  words := #[]
  values := #[]
  capacity := capacity
  size_words := by simp
  size_le_capacity := Nat.zero_le _
  ascending := trivial

@[simp] theorem entries_vacant (capacity : Nat) : (vacant capacity : RangeTable w).entries = [] :=
  rfl

/-- Room set aside where nobody asks for a size. -/
def defaultCapacity : Nat := 16

def empty : RangeTable w :=
  vacant defaultCapacity

/-- The greatest number of things that can be counted. -/
def maxCount : Nat := 18446744073709551615

/-- The most bytes that one array may occupy. -/
def maxArrayBytes : Nat := 9223372036854775807

/-- A product of counts, unless it is too large to be one. -/
def countProduct? (a b : Nat) : Option Nat :=
  if a * b ≤ maxCount then some (a * b) else none

/-- Sets room aside for an array of items, each of which occupies so many bytes. -/
def reserve (count itemBytes : Nat) : Except StorageFault Unit :=
  if count * itemBytes ≤ maxArrayBytes then .ok () else .error .capacityOverflow

/-- No entries and exactly this much room. If the words cannot be counted, the greatest count stands in
for their number, and there is no room for so many either. -/
def ofCapacity (capacity : Nat) : Except StorageFault (RangeTable w) := do
  reserve ((countProduct? capacity (2 * w.wordsPerKey)).getD maxCount) (w.wordBits / 8)
  reserve capacity 4
  return vacant capacity

/-- A product that cannot be counted is too large for an array in either form. -/
theorem getD_countProduct?_mul_le_iff {a b itemBytes : Nat} (h : 0 < itemBytes) :
    (countProduct? a b).getD maxCount * itemBytes ≤ maxArrayBytes ↔ a * b * itemBytes ≤ maxArrayBytes := by
  unfold countProduct?
  by_cases hcount : a * b ≤ maxCount
  · rw [if_pos hcount, Option.getD_some]
  · have hmax : maxCount ≤ maxCount * itemBytes := Nat.le_mul_of_pos_right maxCount h
    have hproduct : a * b ≤ a * b * itemBytes := Nat.le_mul_of_pos_right (a * b) h
    rw [if_neg hcount, Option.getD_none]
    unfold maxCount maxArrayBytes at *
    omega

theorem entryBytes_mul (capacity : Nat) :
    w.entryBytes * capacity = capacity * (2 * w.wordsPerKey) * (w.wordBits / 8) := by
  rw [Width.entryBytes, Nat.mul_comm, ← Nat.mul_assoc]

/-- There is room exactly if the keys of that many entries can be stored at all. -/
theorem ofCapacity_eq (capacity : Nat) : (ofCapacity capacity : Except _ (RangeTable w)) =
    if w.entryBytes * capacity ≤ maxArrayBytes then .ok (vacant capacity) else .error .capacityOverflow := by
  have hword : 0 < w.wordBits / 8 := by cases w <;> decide
  have hentry : 4 ≤ w.entryBytes := by cases w <;> decide
  simp only [ofCapacity, reserve, getD_countProduct?_mul_le_iff hword, ← entryBytes_mul]
  by_cases hkeys : w.entryBytes * capacity ≤ maxArrayBytes
  · have hvalues : capacity * 4 ≤ maxArrayBytes :=
      Nat.le_trans (Nat.mul_comm capacity 4 ▸ Nat.mul_le_mul_right capacity hentry) hkeys
    simp only [if_pos hkeys, if_pos hvalues]
    rfl
  · simp only [if_neg hkeys]
    rfl

/-- How many entries a source announces at least. It announces no more than there can be room for. -/
structure Hint (w : Width) where
  lower : Nat
  fits : w.entryBytes * max lower defaultCapacity ≤ maxArrayBytes

namespace Hint

/-- The room that an announcement asks for. -/
def room (hint : Hint w) : Nat :=
  max hint.lower defaultCapacity

/-- An announcement of that many entries, unless there cannot be room for them. -/
def ofLower (lower : Nat) : Except StorageFault (Hint w) :=
  if fits : w.entryBytes * max lower defaultCapacity ≤ maxArrayBytes then .ok ⟨lower, fits⟩
  else .error .capacityOverflow

theorem ofCapacity_room (hint : Hint w) :
    (ofCapacity hint.room : Except _ (RangeTable w)) = .ok (vacant hint.room) := by
  rw [ofCapacity_eq, room, if_pos hint.fits]

end Hint

def entry? (t : RangeTable w) (i : Nat) : Option (Entry w) :=
  t.values[i]?.map (entryWith t.words i)

def first? (t : RangeTable w) : Option (Entry w) :=
  t.entry? 0

def last? (t : RangeTable w) : Option (Entry w) :=
  t.entry? (t.size - 1)

theorem getElem?_entries (t : RangeTable w) (i : Nat) : t.entries[i]? = t.entry? i := by
  simp [entries, entriesOf, entry?, Option.map_map]
  rfl

@[simp] theorem length_entries (t : RangeTable w) : t.entries.length = t.size := by
  simp [entries, entriesOf, size]

theorem getLast?_entries (t : RangeTable w) : t.entries.getLast? = t.last? := by
  rw [List.getLast?_eq_getElem?, getElem?_entries, length_entries, last?]

/-- The room after one more entry: a full table first grows by half, and by one at least. -/
def nextCapacity (t : RangeTable w) : Nat :=
  if t.size = t.capacity then t.capacity + max (t.capacity / 2) 1 else t.capacity

theorem size_lt_nextCapacity (t : RangeTable w) : t.size < t.nextCapacity := by
  have := t.size_le_capacity
  unfold nextCapacity size
  split <;> omega

/-- The last entry, if it does not end before `e` starts. -/
def obstacle? (t : RangeTable w) (e : Entry w) : Option (Entry w) :=
  t.last?.filter fun last => Key.compare last.stop e.start != .lt

theorem obstacle?_eq_filter_le (t : RangeTable w) (e : Entry w) :
    t.obstacle? e = t.last?.filter fun last => e.start ≤ last.stop := by
  have hbehind (last : Entry w) : (Key.compare last.stop e.start != .lt) = decide (e.start ≤ last.stop) := by
    rw [Bool.eq_iff_iff, bne_iff_ne, decide_eq_true_iff, ne_eq, Key.compare_eq_lt, BitVec.not_lt]
  simp only [obstacle?, hbehind]

theorem ascending_concat {t : RangeTable w} {e : Entry w} (h : t.obstacle? e = none) :
    Entry.Ascending (t.entries ++ [e]) := by
  refine t.ascending.concat fun last hlast => ?_
  rw [show entriesOf t.words t.values = t.entries from rfl, getLast?_entries] at hlast
  rw [obstacle?_eq_filter_le] at h
  have hfree := Option.filter_eq_none_iff.mp h last hlast
  simpa [BitVec.not_le] using hfree

def append (t : RangeTable w) (e : Entry w) (h : t.obstacle? e = none) : RangeTable w where
  words := t.words ++ e.words
  values := t.values.push e.value
  capacity := t.nextCapacity
  size_words := by
    rw [← Array.length_toList, Array.toList_appendList, List.length_append, Array.length_toList,
      t.size_words, Entry.length_words, Array.size_push, Nat.add_mul, Nat.one_mul]
  size_le_capacity := by
    rw [Array.size_push]
    exact t.size_lt_nextCapacity
  ascending := by
    rw [entriesOf_push e t.size_words]
    exact ascending_concat h

@[simp] theorem entries_append (t : RangeTable w) (e : Entry w) (h : t.obstacle? e = none) :
    (t.append e h).entries = t.entries ++ [e] :=
  entriesOf_push e t.size_words

/-- Adds an entry above all others, or refuses it. -/
def insert (t : RangeTable w) (e : Entry w) : Outcome (RangeTable w) (Violation w) :=
  match h : t.obstacle? e with
  | some last =>
    { state := t
      fault := some ⟨e.start, e.stop, last.start, last.stop⟩
      events := [.rejected e.start.toNat e.stop.toNat last.stop.toNat] }
  | none =>
    { state := t.append e h
      events := if t.size = t.capacity then [.grew t.nextCapacity] else [] }

theorem insert_of_obstacle {t : RangeTable w} {e last : Entry w} (h : t.obstacle? e = some last) :
    t.insert e =
      { state := t
        fault := some ⟨e.start, e.stop, last.start, last.stop⟩
        events := [.rejected e.start.toNat e.stop.toNat last.stop.toNat] } := by
  unfold insert
  split
  · rename_i other h'
    rw [h] at h'
    cases h'
    rfl
  · rename_i h'
    rw [h] at h'
    cases h'

theorem insert_of_free {t : RangeTable w} {e : Entry w} (h : t.obstacle? e = none) :
    t.insert e =
      { state := t.append e h
        events := if t.size = t.capacity then [.grew t.nextCapacity] else [] } := by
  unfold insert
  split
  · rename_i other h'
    rw [h] at h'
    cases h'
  · rfl

/-- Adds entries one by one up to the first that is refused. -/
def insertMany (t : RangeTable w) : List (Entry w) → Outcome (RangeTable w) (Violation w)
  | [] => .idle t
  | e :: es => (t.insert e).andThen (insertMany · es)

/-- A table of the entries of a source, with room from the start for as many as it announces. -/
def ofEntries (hint : Hint w) (es : List (Entry w)) : Outcome (RangeTable w) (Violation w) :=
  insertMany (vacant hint.room) es

def fitted (t : RangeTable w) : RangeTable w :=
  { t with capacity := t.size, size_le_capacity := Nat.le_refl _ }

@[simp] theorem entries_fitted (t : RangeTable w) : t.fitted.entries = t.entries :=
  rfl

/-- Gives spare room back, and says so if there was any. -/
def trim {ε : Type} (t : RangeTable w) : Outcome (RangeTable w) ε :=
  if t.size = t.capacity then .idle t else { state := t.fitted, events := [.trimmed t.size] }

theorem fitted_of_full {t : RangeTable w} (h : t.size = t.capacity) : t.fitted = t := by
  obtain ⟨words, values, capacity, hwords, hcapacity, hascending⟩ := t
  obtain rfl : values.size = capacity := h
  rfl

/-- Either way no spare room is left. -/
theorem trim_eq {ε : Type} (t : RangeTable w) : (t.trim : Outcome _ ε) =
    { state := t.fitted, events := if t.size = t.capacity then [] else [.trimmed t.size] } := by
  unfold trim
  split
  · rename_i h
    rw [fitted_of_full h]
    rfl
  · rfl

theorem state_trim {ε : Type} (t : RangeTable w) : (t.trim : Outcome _ ε).state = t.fitted := by
  rw [trim_eq]

/-- A second table with the same entries, for which just enough room is set aside. -/
def copy (t : RangeTable w) : RangeTable w :=
  t.fitted

end RangeTable

end AddressAtlas

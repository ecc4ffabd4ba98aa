import AddressAtlas.Proofs.Ledger
import AddressAtlas.Proofs.Storage
import Mathlib.Order.Hom.Basic

/-!
# Keys in storage

Splitting keys into words is an isomorphism of orders, words being ordered like those of a dictionary. Words
that are pushed onto an array are read back from there, and what the array held before stays where it is. So a
lookup, which compares stored words with a key, and an insertion, which compares keys, go by one order: that of
unsigned numbers.
-/

namespace AddressAtlas

variable {w : Width}

namespace Key

/-- As many words as a key is split into. -/
abbrev Digits (w : Width) := {words : List (Word w) // words.length = w.wordsPerKey}

/-- Comparing word by word is the order of a dictionary. -/
theorem compareWords_eq_lt_iff {xs ys : List (Word w)} : compareWords xs ys = .lt ↔ xs < ys := by
  induction xs generalizing ys with
  | nil =>
    cases ys with
    | nil => simp [compareWords]
    | cons y ys => simp [compareWords]
  | cons x xs ih =>
    cases ys with
    | nil => simp [compareWords]
    | cons y ys =>
      rw [compareWords, Ordering.then_eq_lt, Nat.compare_eq_lt, Nat.compare_eq_eq, BitVec.toNat_inj, ih,
        List.cons_lt_cons_iff, BitVec.lt_def]

lemma compareWords_append_left (front xs ys : List (Word w)) :
    compareWords (front ++ xs) (front ++ ys) = compareWords xs ys := by
  induction front with
  | nil => rfl
  | cons a front ih =>
    have ha : Ord.compare a.toNat a.toNat = .eq := Nat.compare_eq_eq.mpr rfl
    rw [List.cons_append, List.cons_append, compareWords, ha, Ordering.eq_then, ih]

lemma toWords_lt_toWords_iff {a b : Key w} : a.toWords < b.toWords ↔ a < b := by
  rw [← compareWords_eq_lt_iff]
  exact compare_eq_lt

lemma toWords_le_toWords_iff {a b : Key w} : a.toWords ≤ b.toWords ↔ a ≤ b := by
  rw [← List.not_lt, toWords_lt_toWords_iff, BitVec.not_lt]

/-- Keys are ordered like their words. -/
def splitting (w : Width) : Key w ≃o Digits w where
  toFun key := ⟨key.toWords, key.length_toWords⟩
  invFun words := ofWords words.val
  left_inv := ofWords_toWords
  right_inv words := Subtype.ext (toWords_ofWords words.property)
  map_rel_iff' := toWords_le_toWords_iff

lemma existsUnique_toWords_eq (words : Digits w) : ∃! key : Key w, key.toWords = words.val := by
  refine ⟨ofWords words.val, toWords_ofWords words.property, ?_⟩
  rintro key hkey
  rw [← hkey, ofWords_toWords]

/-- Keys and their words determine each other, and both stand in the order of unsigned numbers. -/
structure SplitInOrder (w : Width) : Prop where
  isomorphic : ∃ f : Key w ≃o Digits w,
    (∀ key, (f key).val = key.toWords) ∧ ∀ words, f.symm words = ofWords words.val
  rebuilt : ∀ key : Key w, ofWords key.toWords = key
  unique : ∀ words : Digits w, ∃! key : Key w, key.toWords = words.val
  digits : ∀ key : Key w, number key.toWords = key.toNat
  numbered : ∀ xs ys : List (Word w), xs.length = ys.length →
    compareWords xs ys = Ord.compare (number xs) (number ys)
  compared : ∀ a b : Key w, compareStored a.toWords b = compareWords a.toWords b.toWords ∧
    compareWords a.toWords b.toWords = compare a b ∧ compare a b = Ord.compare a.toNat b.toNat
  unjoined : ∀ (words : Digits w) (key : Key w),
    compareStored words.val key = compare (ofWords words.val) key
  /-- The highest bit of a key is no sign. -/
  high_bit : ∀ a b : Key w, a.toNat < 2 ^ (w.bits - 1) → 2 ^ (w.bits - 1) ≤ b.toNat →
    compareStored a.toWords b = .lt ∧ compareStored b.toWords a = .gt
  /-- Nor is that of the last word, behind equal ones. -/
  low_bit : ∀ (front : List (Word w)) (x y : Word w),
    x.toNat < 2 ^ (w.wordBits - 1) → 2 ^ (w.wordBits - 1) ≤ y.toNat →
      compareWords (front ++ [x]) (front ++ [y]) = .lt ∧ compareWords (front ++ [y]) (front ++ [x]) = .gt

lemma splitInOrder (w : Width) : SplitInOrder w where
  isomorphic := ⟨splitting w, fun _ => rfl, fun _ => rfl⟩
  rebuilt := ofWords_toWords
  unique := existsUnique_toWords_eq
  digits := number_toWords
  numbered := fun _ _ => compareWords_eq_compare_number
  compared a b := ⟨rfl, rfl, compare_eq_compare_toNat a b⟩
  unjoined words := compareStored_eq_compare_ofWords words.property
  high_bit a b ha hb := by
    have hlt : a < b := BitVec.lt_def.mpr (Nat.lt_of_lt_of_le ha hb)
    exact ⟨compare_eq_lt.mpr hlt, compare_eq_gt.mpr hlt⟩
  low_bit front x y hx hy := by
    have hlt : x.toNat < y.toNat := Nat.lt_of_lt_of_le hx hy
    rw [compareWords_append_left, compareWords_append_left]
    simp only [compareWords, Ordering.then_eq]
    exact ⟨Nat.compare_eq_lt.mpr hlt, Nat.compare_eq_gt.mpr hlt⟩

-- A carry between the words, then the highest bits of either word.
example : compareStored (0xffffffffffffffff : Key .wide).toWords 0x10000000000000000 = .lt ∧
    compareStored (0x80000000000000000000000000000000 : Key .wide).toWords 0x7fffffffffffffff = .gt ∧
    compareStored (0x18000000000000000 : Key .wide).toWords 0x17fffffffffffffff = .gt := by decide

end Key

namespace RangeTable

open Key Ledger

/-- `pushed` holds what `words` holds, and behind it two keys that can be read back. -/
structure Pushed (words : Array (Word w)) (a b : Key w) (pushed : Array (Word w)) : Prop where
  size : pushed.size = words.size + 2 * w.wordsPerKey
  kept : ∀ i < words.size, pushed[i]? = words[i]?
  first : wordsAt pushed words.size = a.toWords ∧ ofWords (wordsAt pushed words.size) = a
  second : wordsAt pushed (words.size + w.wordsPerKey) = b.toWords ∧
    ofWords (wordsAt pushed (words.size + w.wordsPerKey)) = b
  earlier : ∀ offset, offset + w.wordsPerKey ≤ words.size → wordsAt pushed offset = wordsAt words offset
  /-- Where the array holds whole keys, the two follow as its next boundaries. -/
  boundaries : ∀ n, words.size = n * w.wordsPerKey →
    boundaryWords pushed n = a.toWords ∧ boundaryWords pushed (n + 1) = b.toWords

variable (words : Array (Word w)) (a b : Key w)

-- `a` is read back although `b` is pushed behind it, and `b` because it comes last
lemma wordsAt_pushed_first : wordsAt (words ++ a.toWords ++ b.toWords) words.size = a.toWords := by
  have hend : words.size + w.wordsPerKey ≤ (words ++ a.toWords).size :=
    Nat.le_of_eq (size_append_toWords words a).symm
  rw [wordsAt_append_left b.toWords hend, wordsAt_append_toWords]

lemma wordsAt_pushed_second :
    wordsAt (words ++ a.toWords ++ b.toWords) (words.size + w.wordsPerKey) = b.toWords := by
  rw [← size_append_toWords words a, wordsAt_append_toWords]

lemma pushed_append : Pushed words a b (words ++ a.toWords ++ b.toWords) where
  size := by
    rw [size_append_toWords, size_append_toWords, Nat.two_mul, Nat.add_assoc]
  kept := by
    intro i hi
    have hlist : i < words.toList.length := hi
    rw [← Array.getElem?_toList, Array.toList_appendList, Array.toList_appendList, List.append_assoc,
      List.getElem?_append_left hlist, Array.getElem?_toList]
  first := by
    rw [wordsAt_pushed_first]
    exact ⟨rfl, ofWords_toWords a⟩
  second := by
    rw [wordsAt_pushed_second]
    exact ⟨rfl, ofWords_toWords b⟩
  earlier := by
    intro offset h
    have hbehind := size_append_toWords words a
    rw [wordsAt_append_left b.toWords (by omega), wordsAt_append_left a.toWords h]
  boundaries := by
    intro n hn
    rw [boundaryWords_eq_wordsAt, boundaryWords_eq_wordsAt, Nat.add_mul, Nat.one_mul, ← hn]
    exact ⟨wordsAt_pushed_first words a b, wordsAt_pushed_second words a b⟩

/-- What a table stores and compares are the words of keys, in the order of the keys. -/
structure StoresKeys (t : RangeTable w) : Prop where
  /-- An entry is taken in exactly if the last boundary lies before it, word by word. -/
  takes : ∀ e, (t.insert e).fault = none ↔
    ∀ last ∈ t.last?, compareWords last.stop.toWords e.start.toWords = .lt
  stores : ∀ e, (t.insert e).fault = none → Pushed t.words e.start e.stop (t.insert e).state.words
  looks : ∀ i < 2 * t.size, ∀ key,
    compareStored (boundaryWords t.words i) key = Key.compare (ofWords (boundaryWords t.words i)) key

lemma words_insert {t : RangeTable w} {e : Entry w} (h : (t.insert e).fault = none) :
    (t.insert e).state.words = t.words ++ e.start.toWords ++ e.stop.toWords := by
  rw [fault_insert_eq_none_iff_follows, ← obstacle?_eq_none_iff] at h
  rw [insert_of_free h]
  exact append_words t.words e

lemma storesKeys (t : RangeTable w) : t.StoresKeys where
  takes e := by
    rw [fault_insert_eq_none_iff_follows, Follows, getLast?_entries]
    exact forall₂_congr fun last _ => compare_eq_lt.symm
  stores e h := by
    rw [words_insert h]
    exact pushed_append t.words e.start e.stop
  looks i hi := compareStored_eq_compare_ofWords (t.length_boundaryWords hi)

end RangeTable

open RangeTable

/-- Keys are stored as words in the order of unsigned numbers, and come back from storage as they were. -/
theorem Key.storage_keeps_order :
    (∀ w, SplitInOrder w) ∧
      (∀ high low : Word .wide, ∃! key : Key .wide, key.toWords = [high, low]) ∧
      (∀ word : Word .narrow, ∃! key : Key .narrow, key.toWords = [word]) ∧
      (∀ (w : Width) (words : Array (Word w)) (a b : Key w),
        Pushed words a b (words ++ a.toWords ++ b.toWords)) ∧
      ∀ (w : Width) (t : RangeTable w), t.StoresKeys := by
  refine ⟨splitInOrder, fun high low => ?_, fun word => ?_, fun w => pushed_append, fun w => storesKeys⟩
  · exact existsUnique_toWords_eq ⟨[high, low], rfl⟩
  · exact existsUnique_toWords_eq ⟨[word], rfl⟩

end AddressAtlas

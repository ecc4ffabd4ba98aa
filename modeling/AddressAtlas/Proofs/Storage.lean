import AddressAtlas.Proofs.WordOrder
import AddressAtlas.RangeTable.Basic
import Mathlib.Data.List.Basic
import Mathlib.Tactic.Common

/-!
# Entries and their storage

The two arrays of a table and its entries determine each other: the words are those of the entries one
after the other, and the values theirs. So tables are equal when their entries are, and whatever is
proved of the entries holds of the storage bit for bit.
-/

namespace AddressAtlas.RangeTable

variable {w : Width}

lemma boundaryWords_eq_take_drop (words : Array (Word w)) (i : Nat) :
    boundaryWords words i = (words.toList.drop (i * w.wordsPerKey)).take w.wordsPerKey := by
  rw [boundaryWords_eq_wordsAt, wordsAt_eq_take_drop]

lemma length_boundaryWords (t : RangeTable w) {i : Nat} (h : i < 2 * t.size) :
    (boundaryWords t.words i).length = w.wordsPerKey := by
  have hend : (i + 1) * w.wordsPerKey ≤ t.words.size := by
    rw [t.size_words, ← Nat.mul_assoc, Nat.mul_comm t.values.size 2]
    exact Nat.mul_le_mul_right _ h
  rw [Nat.add_mul, Nat.one_mul] at hend
  rw [boundaryWords_eq_take_drop, List.length_take, List.length_drop, Array.length_toList]
  omega

lemma toWords_ofWords_boundaryWords (t : RangeTable w) {i : Nat} (h : i < 2 * t.size) :
    (Key.ofWords (boundaryWords t.words i)).toWords = boundaryWords t.words i :=
  Key.toWords_ofWords (t.length_boundaryWords h)

lemma words_entryWith (t : RangeTable w) {i : Nat} (h : i < t.size) (value : Int32) :
    (entryWith t.words i value).words =
      (t.words.toList.drop (i * (2 * w.wordsPerKey))).take (2 * w.wordsPerKey) := by
  have hstart := t.toWords_ofWords_boundaryWords (i := 2 * i) (by omega)
  have hstop := t.toWords_ofWords_boundaryWords (i := 2 * i + 1) (by omega)
  have hwords : (entryWith t.words i value).words =
      boundaryWords t.words (2 * i) ++ boundaryWords t.words (2 * i + 1) :=
    congrArg₂ (· ++ ·) hstart hstop
  have hpiece : i * (2 * w.wordsPerKey) = 2 * i * w.wordsPerKey := by
    rw [← Nat.mul_assoc, Nat.mul_comm i 2]
  rw [hwords, boundaryWords_eq_take_drop, boundaryWords_eq_take_drop, hpiece,
    Nat.two_mul w.wordsPerKey, List.take_add, List.drop_drop, Nat.add_mul, Nat.one_mul]

private lemma flatMap_pieces {α : Type} (l : List α) (k n : Nat) :
    ((List.range n).flatMap fun i => (l.drop (i * k)).take k) = l.take (n * k) := by
  induction n with
  | zero => simp
  | succ n ih =>
    rw [List.range_succ, List.flatMap_append, ih, List.flatMap_singleton, Nat.add_mul, Nat.one_mul,
      List.take_add]

/-- The words of a table are those of its entries. -/
theorem toList_words (t : RangeTable w) : t.words.toList = t.entries.flatMap Entry.words := by
  have hpieces : t.entries.flatMap Entry.words =
      t.values.toList.zipIdx.flatMap fun x =>
        (t.words.toList.drop (x.2 * (2 * w.wordsPerKey))).take (2 * w.wordsPerKey) := by
    rw [entries, entriesOf, List.flatMap_map]
    apply List.flatMap_congr
    rintro ⟨value, i⟩ hi
    have hlt : i < t.size := by
      have := List.snd_lt_of_mem_zipIdx hi
      simpa [size] using this
    exact t.words_entryWith hlt value
  have hindices : t.values.toList.zipIdx.map Prod.snd = List.range t.size := by
    rw [List.zipIdx_map_snd, Array.length_toList, List.range_eq_range', size]
  have hsize : t.words.toList.length = t.size * (2 * w.wordsPerKey) := t.size_words
  rw [hpieces, ← List.flatMap_map Prod.snd
    fun i => (t.words.toList.drop (i * (2 * w.wordsPerKey))).take (2 * w.wordsPerKey), hindices,
    flatMap_pieces, List.take_of_length_le (Nat.le_of_eq hsize)]

/-- The values of a table are those of its entries. -/
theorem toList_values (t : RangeTable w) : t.values.toList = t.entries.map Entry.value := by
  rw [entries, entriesOf, List.map_map]
  exact (List.zipIdx_map_fst 0 t.values.toList).symm

/-- Tables are equal exactly when they hold the same entries. -/
theorem beq_iff_entries_eq {s t : RangeTable w} : (s == t) = true ↔ s.entries = t.entries := by
  have hbeq : (s == t) = true ↔ s.words = t.words ∧ s.values = t.values := by
    change (s.words == t.words && s.values == t.values) = true ↔ _
    rw [Bool.and_eq_true, beq_iff_eq, beq_iff_eq]
  rw [hbeq]
  constructor
  · rintro ⟨hwords, hvalues⟩
    rw [entries, entries, hwords, hvalues]
  · intro h
    have hwords : s.words.toList = t.words.toList := by rw [toList_words, toList_words, h]
    have hvalues : s.values.toList = t.values.toList := by rw [toList_values, toList_values, h]
    exact ⟨Array.toList_inj.mp hwords, Array.toList_inj.mp hvalues⟩

end AddressAtlas.RangeTable

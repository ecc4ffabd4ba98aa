import AddressAtlas.Key
import Mathlib.Data.Nat.Digits.Defs
import Mathlib.Tactic.Common

/-!
# The order of stored words

A table compares a key with the words of a stored boundary and never joins them. This file proves that
nothing is lost by that: words and keys determine each other. Words are the digits of a number, the
highest first, so that of equally many words the first that differ decide which number is the greater.
-/

namespace AddressAtlas.Key

variable {w : Width}

private lemma extract_high (a b : BitVec 64) :
    ((0#128 <<< 64 ||| a.setWidth 128) <<< 64 ||| b.setWidth 128).extractLsb' 64 64 = a := by
  apply BitVec.eq_of_getLsbD_eq
  intro i hi
  have hlow : 64 + i < 128 := by omega
  have hoff : ¬64 + i < 64 := by omega
  simp [hi, hlow, hoff]

private lemma extract_low (a b : BitVec 64) :
    ((0#128 <<< 64 ||| a.setWidth 128) <<< 64 ||| b.setWidth 128).extractLsb' 0 64 = b := by
  apply BitVec.eq_of_getLsbD_eq
  intro i hi
  have hlow : i < 128 := by omega
  simp [hi, hlow]

/-- As many words as a key has are the words of the key that they stand for. -/
theorem toWords_ofWords {words : List (Word w)} (h : words.length = w.wordsPerKey) :
    (ofWords words).toWords = words := by
  cases w with
  | narrow =>
    obtain ⟨a, rfl⟩ := List.length_eq_one_iff.mp h
    have hjoin (b : BitVec 32) : 0#32 <<< 32 ||| b.setWidth 32 = b := by simp
    exact congrArg (fun x => [x]) (hjoin a)
  | wide =>
    match words, h with
    | [a, b], _ => exact congrArg₂ (fun x y => [x, y]) (extract_high a b) (extract_low a b)

/-- The number whose digits are these words. -/
def number (words : List (Word w)) : Nat :=
  Nat.ofDigits (2 ^ w.wordBits) (words.reverse.map BitVec.toNat)

lemma number_cons (word : Word w) (words : List (Word w)) :
    number (word :: words) = word.toNat * (2 ^ w.wordBits) ^ words.length + number words := by
  simp only [number, List.reverse_cons, List.map_append, List.map_cons, List.map_nil,
    Nat.ofDigits_append, Nat.ofDigits_singleton, List.length_map, List.length_reverse]
  rw [Nat.add_comm, Nat.mul_comm]

lemma number_lt (words : List (Word w)) : number words < (2 ^ w.wordBits) ^ words.length := by
  have hbase : 1 < 2 ^ w.wordBits := by cases w <;> decide
  have hdigits : ∀ d ∈ words.reverse.map BitVec.toNat, d < 2 ^ w.wordBits := by
    intro d hd
    obtain ⟨word, -, rfl⟩ := List.mem_map.mp hd
    exact word.isLt
  have hlt := Nat.ofDigits_lt_base_pow_length hbase hdigits
  rwa [List.length_map, List.length_reverse] at hlt

/-- Comparing equally many words compares the numbers. -/
theorem compareWords_eq_compare_number {xs ys : List (Word w)} (h : xs.length = ys.length) :
    compareWords xs ys = Ord.compare (number xs) (number ys) := by
  induction xs generalizing ys with
  | nil =>
    obtain rfl : ys = [] := List.eq_nil_of_length_eq_zero h.symm
    exact (Nat.compare_eq_eq.mpr rfl).symm
  | cons x xs ih =>
    cases ys with
    | nil => cases h
    | cons y ys =>
      have hlength : xs.length = ys.length := Nat.succ.inj h
      have hx := number_lt xs
      rw [hlength] at hx
      rw [compareWords, ih hlength, number_cons, number_cons, hlength]
      exact (compare_two_digits hx (number_lt ys)).symm

/-- The words of a key are its digits. -/
theorem number_toWords (key : Key w) : number key.toWords = key.toNat := by
  cases w with
  | narrow => exact Nat.ofDigits_singleton
  | wide =>
    refine Eq.trans ?_ (toNat_halves key)
    change Nat.ofDigits 18446744073709551616 [(key.extractLsb' 0 64).toNat, (key.extractLsb' 64 64).toNat] = _
    rw [Nat.ofDigits_cons, Nat.ofDigits_singleton, Nat.mul_comm]
    exact Nat.add_comm _ _

/-- Words need not be joined to be compared with a key. -/
theorem compareStored_eq_compare_ofWords {words : List (Word w)} (h : words.length = w.wordsPerKey)
    (key : Key w) : compareStored words key = compare (ofWords words) key := by
  rw [compareStored, Key.compare, toWords_ofWords h]

end AddressAtlas.Key

/-!
# Keys and storage words

A key is an unsigned number of 32 or of 128 bits. It is stored as one or two words, the high one first,
and stored words are compared with a key without being joined again.
-/

namespace AddressAtlas

inductive Width where
  | narrow
  | wide
  deriving DecidableEq, Repr

namespace Width

def bits : Width → Nat
  | narrow => 32
  | wide => 128

def wordBits : Width → Nat
  | narrow => 32
  | wide => 64

def wordsPerKey : Width → Nat
  | narrow => 1
  | wide => 2

/-- Bytes that the two keys of an entry occupy. -/
def entryBytes (w : Width) : Nat :=
  2 * w.wordsPerKey * (w.wordBits / 8)

end Width

abbrev Key (w : Width) := BitVec w.bits

abbrev Word (w : Width) := BitVec w.wordBits

namespace Key

variable {w : Width}

/-- The storage words of a key, the high one first. -/
def toWords : {w : Width} → Key w → List (Word w)
  | .narrow, key => [key]
  | .wide, key => [key.extractLsb' 64 64, key.extractLsb' 0 64]

/-- The key that a sequence of words stands for, the first word being the highest. -/
def ofWords (words : List (Word w)) : Key w :=
  words.foldl (fun key word => key <<< w.wordBits ||| word.setWidth w.bits) 0

/-- The order of two word sequences: the first words that differ decide. -/
def compareWords : List (Word w) → List (Word w) → Ordering
  | a :: as, b :: bs => (Ord.compare a.toNat b.toNat).then (compareWords as bs)
  | [], [] => .eq
  | [], _ :: _ => .lt
  | _ :: _, [] => .gt

/-- The order of two keys, word by word. -/
def compare (a b : Key w) : Ordering :=
  compareWords a.toWords b.toWords

/-- The order of stored words relative to a key. -/
def compareStored (stored : List (Word w)) (key : Key w) : Ordering :=
  compareWords stored key.toWords

@[simp] theorem length_toWords (key : Key w) : key.toWords.length = w.wordsPerKey := by
  cases w <;> rfl

private theorem join_single (key : BitVec 32) : 0#32 <<< 32 ||| key.setWidth 32 = key := by
  simp

private theorem join_halves (key : BitVec 128) :
    (0#128 <<< 64 ||| (key.extractLsb' 64 64).setWidth 128) <<< 64 |||
      (key.extractLsb' 0 64).setWidth 128 = key := by
  apply BitVec.eq_of_getLsbD_eq
  intro i hi
  simp only [BitVec.getLsbD_or, BitVec.getLsbD_shiftLeft, BitVec.getLsbD_setWidth,
    BitVec.getLsbD_extractLsb', hi, BitVec.getLsbD_zero, decide_true, Bool.true_and, Bool.and_false,
    Bool.false_or, Nat.zero_add]
  by_cases h : i < 64
  · simp [h]
  · have h1 : i - 64 < 64 := by omega
    have h2 : i - 64 < 128 := by omega
    have h3 : 64 + (i - 64) = i := by omega
    simp [h, h1, h2, h3]

/-- Joining the words of a key gives the key back. -/
theorem ofWords_toWords (key : Key w) : ofWords key.toWords = key := by
  cases w with
  | narrow => exact join_single key
  | wide => exact join_halves key

/-- The halves of a key are its digits. -/
theorem toNat_halves (key : BitVec 128) :
    (key.extractLsb' 64 64).toNat * 18446744073709551616 + (key.extractLsb' 0 64).toNat = key.toNat := by
  have hlt := key.isLt
  simp only [BitVec.extractLsb'_toNat, Nat.shiftRight_eq_div_pow, Nat.pow_zero, Nat.div_one]
  omega

/-- Of two numbers with two digits the high digits decide, and the low ones where those are equal. -/
theorem compare_two_digits {m a b c d : Nat} (hb : b < m) (hd : d < m) :
    Ord.compare (a * m + b) (c * m + d) = (Ord.compare a c).then (Ord.compare b d) := by
  rcases Nat.lt_trichotomy a c with h | rfl | h
  · have hlt : a * m + b < c * m + d := by
      have hmul : (a + 1) * m ≤ c * m := Nat.mul_le_mul_right m h
      rw [Nat.add_mul, Nat.one_mul] at hmul
      omega
    rw [Nat.compare_eq_lt.mpr h, Nat.compare_eq_lt.mpr hlt]
    rfl
  · have heq : Ord.compare a a = .eq := Nat.compare_eq_eq.mpr rfl
    rw [heq, Ordering.eq_then]
    rcases Nat.lt_trichotomy b d with h | rfl | h
    · rw [Nat.compare_eq_lt.mpr h, Nat.compare_eq_lt.mpr (by omega)]
    · rw [Nat.compare_eq_eq.mpr rfl, Nat.compare_eq_eq.mpr rfl]
    · rw [Nat.compare_eq_gt.mpr h, Nat.compare_eq_gt.mpr (by omega)]
  · have hgt : c * m + d < a * m + b := by
      have hmul : (c + 1) * m ≤ a * m := Nat.mul_le_mul_right m h
      rw [Nat.add_mul, Nat.one_mul] at hmul
      omega
    rw [Nat.compare_eq_gt.mpr h, Nat.compare_eq_gt.mpr hgt]
    rfl

private theorem compare_halves (a b : BitVec 128) :
    (Ord.compare (a.extractLsb' 64 64).toNat (b.extractLsb' 64 64).toNat).then
      (Ord.compare (a.extractLsb' 0 64).toNat (b.extractLsb' 0 64).toNat) = Ord.compare a.toNat b.toNat := by
  have hlow (key : BitVec 128) : (key.extractLsb' 0 64).toNat < 18446744073709551616 := BitVec.isLt _
  rw [← toNat_halves a, ← toNat_halves b, compare_two_digits (hlow a) (hlow b)]

/-- Word by word, keys are ordered as unsigned numbers. -/
theorem compare_eq_compare_toNat (a b : Key w) : compare a b = Ord.compare a.toNat b.toNat := by
  cases w with
  | narrow => exact Ordering.then_eq
  | wide => exact (congrArg _ Ordering.then_eq).trans (compare_halves a b)

theorem compare_eq_lt {a b : Key w} : compare a b = .lt ↔ a < b := by
  rw [compare_eq_compare_toNat]
  exact Nat.compare_eq_lt

theorem compare_eq_gt {a b : Key w} : compare a b = .gt ↔ b < a := by
  rw [compare_eq_compare_toNat]
  exact Nat.compare_eq_gt

theorem compare_eq_eq {a b : Key w} : compare a b = .eq ↔ a = b := by
  rw [compare_eq_compare_toNat, Nat.compare_eq_eq, BitVec.toNat_inj]

end Key

end AddressAtlas

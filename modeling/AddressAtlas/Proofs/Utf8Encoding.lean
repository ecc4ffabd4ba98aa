import AddressAtlas.Text.Utf8
import Mathlib.Data.List.Basic
import Mathlib.Tactic.Common

/-!
# Texts as bytes

`encodeUtf8` writes a text as bytes, and reading the bytes gives the text back. A byte below 128 stands
for the character of the same number wherever it occurs, so bytes that divide a text can be looked for
before anything is read.
-/

namespace AddressAtlas.Text

/-- The bytes of a text in UTF-8. -/
def encodeUtf8 (cs : List Char) : List UInt8 :=
  cs.flatMap String.utf8EncodeChar

@[simp] lemma encodeUtf8_nil : encodeUtf8 [] = [] :=
  rfl

@[simp] lemma encodeUtf8_cons (c : Char) (cs : List Char) :
    encodeUtf8 (c :: cs) = String.utf8EncodeChar c ++ encodeUtf8 cs :=
  List.flatMap_cons

@[simp] lemma encodeUtf8_append (a b : List Char) : encodeUtf8 (a ++ b) = encodeUtf8 a ++ encodeUtf8 b :=
  List.flatMap_append

lemma toNat_ofNat_byte {n : Nat} (h : n < 256) : (UInt8.ofNat n).toNat = n :=
  Nat.mod_eq_of_lt h

lemma continuation?_ofNat {n : Nat} (h : n < 64) : continuation? (UInt8.ofNat (n + 128)) = some n := by
  rw [continuation?, toNat_ofNat_byte (by omega), if_pos (by omega)]
  congr 1
  omega

lemma ofCodePoint?_toNat {least : Nat} {c : Char} (h : least ≤ c.toNat) :
    ofCodePoint? least c.toNat = some c := by
  have hvalid : c.toNat.isValidChar := c.valid
  rw [ofCodePoint?, dif_pos hvalid, if_pos h]
  rfl

lemma toNat_lt_limit (c : Char) : c.toNat < 1114112 := by
  rcases c.valid with h | ⟨-, h⟩
  · exact Nat.lt_trans h (by decide)
  · exact h

/-- The bytes of a character are read as that character, whatever follows. -/
theorem leadingChar?_utf8EncodeChar (c : Char) (rest : List UInt8) :
    leadingChar? (String.utf8EncodeChar c ++ rest) = some c := by
  have hlimit : c.val.toNat < 1114112 := toNat_lt_limit c
  unfold String.utf8EncodeChar
  simp only
  -- One case for each number of bytes: the first byte tells it, the others carry six bits each.
  split
  · unfold leadingChar?
    simp only [List.singleton_append, toNat_ofNat_byte (by omega : c.val.toNat < 256)]
    rw [if_pos (by omega)]
    exact ofCodePoint?_toNat (Nat.zero_le _)
  split
  · have hhead : c.val.toNat / 64 % 32 + 192 < 256 := by omega
    have hpoint : (c.val.toNat / 64 % 32 + 192) % 32 * 64 + c.val.toNat % 64 = c.toNat := by
      rw [Char.toNat]
      omega
    simp only [List.cons_append, leadingChar?, toNat_ofNat_byte hhead]
    rw [if_neg (by omega), if_pos (by omega), continuation?_ofNat (Nat.mod_lt _ (by decide))]
    simp only [Option.bind_eq_bind, Option.bind_some, hpoint]
    exact ofCodePoint?_toNat (by rw [Char.toNat]; omega)
  split
  · have hhead : c.val.toNat / 4096 % 16 + 224 < 256 := by omega
    have hpoint : ((c.val.toNat / 4096 % 16 + 224) % 16 * 64 + c.val.toNat / 64 % 64) * 64 +
        c.val.toNat % 64 = c.toNat := by
      rw [Char.toNat]
      omega
    simp only [List.cons_append, leadingChar?, toNat_ofNat_byte hhead]
    rw [if_neg (by omega), if_neg (by omega), if_pos (by omega),
      continuation?_ofNat (Nat.mod_lt _ (by decide)), continuation?_ofNat (Nat.mod_lt _ (by decide))]
    simp only [Option.bind_eq_bind, Option.bind_some, hpoint]
    exact ofCodePoint?_toNat (by rw [Char.toNat]; omega)
  · have hhead : c.val.toNat / 262144 % 8 + 240 < 256 := by omega
    have hpoint : (((c.val.toNat / 262144 % 8 + 240) % 8 * 64 + c.val.toNat / 4096 % 64) * 64 +
        c.val.toNat / 64 % 64) * 64 + c.val.toNat % 64 = c.toNat := by
      rw [Char.toNat]
      omega
    simp only [List.cons_append, leadingChar?, toNat_ofNat_byte hhead]
    rw [if_neg (by omega), if_neg (by omega), if_neg (by omega), if_pos (by omega),
      continuation?_ofNat (Nat.mod_lt _ (by decide)), continuation?_ofNat (Nat.mod_lt _ (by decide)),
      continuation?_ofNat (Nat.mod_lt _ (by decide))]
    simp only [Option.bind_eq_bind, Option.bind_some, hpoint]
    exact ofCodePoint?_toNat (by rw [Char.toNat]; omega)

lemma decodeFrom_skip (before : List Char) (valid : Nat) (tail rest : List UInt8) :
    decodeFrom before valid tail.length (tail ++ rest) =
      decodeFrom before (valid + tail.length) 0 rest := by
  induction tail generalizing valid with
  | nil => rfl
  | cons b tail ih =>
    rw [List.cons_append, List.length_cons, decodeFrom, ih, Nat.add_assoc, Nat.add_comm 1]

lemma decodeFrom_encodeUtf8 (before : List Char) (valid : Nat) (cs : List Char) :
    decodeFrom before valid 0 (encodeUtf8 cs) = .ok (before.reverse ++ cs) := by
  induction cs generalizing before valid with
  | nil => rw [encodeUtf8_nil, decodeFrom, List.append_nil]
  | cons c cs ih =>
    obtain ⟨b, tail, hbytes⟩ := List.exists_cons_of_ne_nil (String.utf8EncodeChar_ne_nil (c := c))
    have hchar := leadingChar?_utf8EncodeChar c (encodeUtf8 cs)
    have hsize : c.utf8Size - 1 = tail.length := by
      rw [← String.length_utf8EncodeChar, hbytes, List.length_cons, Nat.add_sub_cancel]
    rw [encodeUtf8_cons]
    rw [hbytes, List.cons_append] at hchar ⊢
    rw [decodeFrom]
    simp only [hchar, hsize]
    rw [decodeFrom_skip, ih, List.reverse_cons, List.append_assoc, List.singleton_append]

/-- The bytes of a text are read as that text. -/
theorem decodeUtf8_encodeUtf8 (s : String) : decodeUtf8 (encodeUtf8 s.toList) = .ok s := by
  rw [decodeUtf8, decodeFrom_encodeUtf8]
  exact congrArg Except.ok s.ofList_toList

lemma toNat_eq_of_mem_utf8EncodeChar {c : Char} {b : UInt8} (hb : b ∈ String.utf8EncodeChar c)
    (h : b.toNat < 128) : b.toNat = c.toNat := by
  unfold String.utf8EncodeChar at hb
  simp only at hb
  split at hb
  · rw [List.mem_singleton.mp hb]
    exact toNat_ofNat_byte (by omega)
  -- All bytes of a longer form are 128 or more.
  exfalso
  split at hb
  · simp only [List.mem_cons, List.not_mem_nil, or_false] at hb
    rcases hb with rfl | rfl <;> (rw [toNat_ofNat_byte (by omega)] at h; omega)
  split at hb
  · simp only [List.mem_cons, List.not_mem_nil, or_false] at hb
    rcases hb with rfl | rfl | rfl <;> (rw [toNat_ofNat_byte (by omega)] at h; omega)
  · simp only [List.mem_cons, List.not_mem_nil, or_false] at hb
    rcases hb with rfl | rfl | rfl | rfl <;> (rw [toNat_ofNat_byte (by omega)] at h; omega)

/-- A byte below 128 in a text is one of its characters. -/
theorem exists_char_of_mem_encodeUtf8 {cs : List Char} {b : UInt8} (hb : b ∈ encodeUtf8 cs)
    (h : b.toNat < 128) : ∃ c ∈ cs, c.toNat = b.toNat := by
  obtain ⟨c, hc, hbytes⟩ := List.mem_flatMap.mp hb
  exact ⟨c, hc, (toNat_eq_of_mem_utf8EncodeChar hbytes h).symm⟩

end AddressAtlas.Text

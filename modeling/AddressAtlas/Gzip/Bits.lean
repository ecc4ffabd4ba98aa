/-!
# Bits

Compressed data is read bit by bit, the lowest bit of each byte first. A number of several bits also comes
with its lowest bit first.
-/

namespace AddressAtlas.Gzip

/-- Why decompression stops. -/
inductive Stop where
  /-- The data ends too soon. -/
  | truncated
  /-- The data is no compressed data. -/
  | corrupt
  deriving DecidableEq, Repr

/-- The bits left of the byte under way, and the bytes behind it. -/
structure BitSource where
  bits : List Bool
  bytes : List UInt8
  deriving DecidableEq, Repr

namespace BitSource

/-- All bits of some bytes. -/
def ofBytes (bytes : List UInt8) : BitSource :=
  ⟨[], bytes⟩

/-- The number of bits that are left. -/
def size (s : BitSource) : Nat :=
  s.bits.length + 8 * s.bytes.length

/-- The bits of a byte. -/
def bitsOf (b : UInt8) : List Bool :=
  (List.range 8).map b.toNat.testBit

/-- Takes one bit. -/
def next (s : BitSource) : Except Stop (Bool × BitSource) :=
  match s.bits, s.bytes with
  | b :: bits, bytes => .ok (b, ⟨bits, bytes⟩)
  | [], byte :: bytes => .ok (byte.toNat.testBit 0, ⟨(bitsOf byte).drop 1, bytes⟩)
  | [], [] => .error .truncated

/-- Takes a number of `n` bits. -/
def number (s : BitSource) : Nat → Except Stop (Nat × BitSource)
  | 0 => .ok (0, s)
  | n + 1 => do
    let (b, s) ← s.next
    let (high, s) ← s.number n
    return (b.toNat + 2 * high, s)

/-- Drops what is left of the byte under way. -/
def align (s : BitSource) : BitSource :=
  ⟨[], s.bytes⟩

end BitSource

end AddressAtlas.Gzip

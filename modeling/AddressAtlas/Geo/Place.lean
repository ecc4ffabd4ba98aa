import AddressAtlas.Geo.Degrees
import AddressAtlas.Geo.Point

/-!
# Places

A place is a country and a point. It is packed into 32 bits: 11 of latitude, 11 of longitude and 5 for
each letter of the country code. Every pattern of 32 bits unpacks to a place, though letters past `Z` can
come out that no country code has.
-/

namespace AddressAtlas

/-- A letter as its distance from `A`; codes use 26 of the 32 values. -/
abbrev Letter := BitVec 5

structure Country where
  first : Letter
  second : Letter
  deriving DecidableEq, Repr

structure Place where
  country : Country
  point : Point
  deriving DecidableEq

namespace Country

/-- The letter of an upper-case ASCII character. -/
def letter? (c : Char) : Option Letter :=
  if 'A' ≤ c ∧ c ≤ 'Z' then some (BitVec.ofNat 5 (c.toNat - 'A'.toNat)) else none

def letterChar (l : Letter) : Char :=
  Char.ofNat ('A'.toNat + l.toNat)

/-- Reads a code of two upper-case ASCII letters. -/
def ofText? (text : String) : Option Country :=
  match text.toList with
  | [a, b] => do return ⟨← letter? a, ← letter? b⟩
  | _ => none

def text (c : Country) : String :=
  String.ofList [letterChar c.first, letterChar c.second]

end Country

namespace Place

def bits (p : Place) : BitVec 32 :=
  Degrees.quantise p.point.latitude ++ Degrees.quantise p.point.longitude ++ p.country.first ++
    p.country.second

def pack (p : Place) : Int32 :=
  .ofBitVec p.bits

def ofBits (b : BitVec 32) : Place where
  country := ⟨b.extractLsb' 5 5, b.extractLsb' 0 5⟩
  point := ⟨Degrees.ofStep (b.extractLsb' 21 11), Degrees.ofStep (b.extractLsb' 10 11)⟩

def unpack (packed : Int32) : Place :=
  ofBits packed.toBitVec

end Place

end AddressAtlas

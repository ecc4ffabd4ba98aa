import AddressAtlas.Geo.Fault

/-!
# Addresses

Addresses of both protocol versions are numbers; those of version 4 are the numbers below `2 ^ 32`. In
texts an address is its number in decimal.
-/

namespace AddressAtlas

/-- An address of either protocol version as a number. -/
inductive IpAddress where
  | v4 (number : BitVec 32)
  | v6 (number : BitVec 128)
  deriving DecidableEq, Repr

/-- The number under which an address is looked up; one of version 6 that carries an address of version
4 in the block `::ffff:0:0/96` counts as the latter. -/
def IpAddress.key : IpAddress → Key .wide
  | v4 number => number.setWidth 128
  | v6 number =>
    if number.extractLsb' 32 96 = 65535#96 then (number.setWidth 32).setWidth 128 else number

/-- The narrow key of the same number, if there is one. -/
def Key.toNarrow? (key : Key .wide) : Option (Key .narrow) :=
  if key.toNat < 4294967296 then some (BitVec.ofNat _ key.toNat) else none

namespace IpAddress

/-- The first number too large for an address. -/
def limit : Nat := 340282366920938463463374607431768211456

/-- Continues a number with digits up to the first character that is none or makes it too large. -/
def parseDigits (before : Nat) : List Char → Except AddressFault Nat
  | [] => .ok before
  | c :: rest =>
    match Text.digitValue? c with
    | none => .error .invalidDigit
    | some d => if 10 * before + d < limit then parseDigits (10 * before + d) rest else .error .tooLarge

/-- Reads an address as a number: digits with an optional plus sign in front. -/
def parseNumber (text : List Char) : Except AddressFault (Key .wide) :=
  match text with
  | [] => .error .empty
  | ['+'] => .error .invalidDigit
  | '+' :: rest => (parseDigits 0 rest).map (BitVec.ofNat _)
  | text => (parseDigits 0 text).map (BitVec.ofNat _)

end IpAddress

end AddressAtlas

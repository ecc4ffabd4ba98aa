/-!
# Binary floating point numbers, taken apart

A number of 64 bits is a sign, a significand of at most 53 bits and an exponent of two, or it is infinite
or no number at all. `Binary64.ofFloat` reads this off the bits; `Binary64.valueOf` is the exact value, and
`roundRat` is the step by which arithmetic returns from exact values to significands of 53 bits.
-/

namespace AddressAtlas

/-- The finite numbers are `significand * 2 ^ exponent` under their sign. -/
inductive Binary64 where
  | nan
  | infinite (negative : Bool)
  | finite (negative : Bool) (significand : Nat) (exponent : Int)
  deriving DecidableEq, Repr

namespace Binary64

def powerOfTwo : Int → Rat
  | .ofNat n => mkRat (Nat.pow 2 n) 1
  | .negSucc n => mkRat 1 (Nat.pow 2 (n + 1))

/-- The exponent of the smallest numbers. -/
def leastExponent : Int := -1074

/-- The smallest significand of a number that uses all 53 bits. -/
def leadingBit : Nat := 4503599627370496

/-- Reads a number of 64 bits: a sign bit, 11 bits of exponent and 52 bits of significand. -/
def ofFloat (x : Float) : Binary64 :=
  let bits := x.toBits.toNat
  let fraction := bits % leadingBit
  let biased := bits / leadingBit % 2048
  let negative := bits / leadingBit / 2048 = 1
  if biased = 2047 then
    if fraction = 0 then .infinite negative else .nan
  else if biased = 0 then
    .finite negative fraction leastExponent
  else
    .finite negative (fraction + leadingBit) (leastExponent + (biased - 1))

def valueOf (negative : Bool) (significand : Nat) (exponent : Int) : Rat :=
  let size := mkRat significand 1 * powerOfTwo exponent
  if negative then -size else size

/-- The integer nearest to `num / den`; of two the even one. -/
def nearestQuotient (num : Int) (den : Nat) : Int :=
  let below := num / den
  let rest := num % den
  if 2 * rest < den then below
  else if (den : Int) < 2 * rest then below + 1
  else if below % 2 = 0 then below
  else below + 1

/-- The exponent of the greatest power of two that is not above the size of `x`. -/
def binade (x : Rat) : Int :=
  let guess : Int := Nat.log2 x.num.natAbs - Nat.log2 x.den
  if powerOfTwo guess ≤ mkRat x.num.natAbs x.den then guess else guess - 1

/-- The number of 53 significant bits nearest to `x`; of two the one with the even significand. -/
def roundRat (x : Rat) : Rat :=
  if x = 0 then
    0
  else
    let unit := binade x - 52
    let scaled := x * powerOfTwo (-unit)
    mkRat (nearestQuotient scaled.num scaled.den) 1 * powerOfTwo unit

end Binary64

end AddressAtlas

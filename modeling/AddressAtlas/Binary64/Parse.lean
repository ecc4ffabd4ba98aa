import AddressAtlas.Binary64.Basic
import AddressAtlas.Text.Decimal

/-!
# Reading decimal numbers

A decimal number has an optional sign, digits with an optional point among them or at either end, and an
optional exponent; `inf`, `infinity` and `nan` are read in any case. The result is the nearest number of
64 bits, infinite beyond the largest and zero below the smallest.
-/

namespace AddressAtlas.Binary64

open Text

/-- An unsigned number as it is written. -/
inductive Magnitude where
  | infinite
  | nan
  /-- The digits without the point as one number, times a power of ten. -/
  | decimal (significand : Nat) (exponent : Int)
  deriving DecidableEq, Repr

/-- No number half way between two neighbours has more digits than this. -/
def longestHalfway : Nat := 768

/-- The number of the digits `ds`, the last of which stands for multiples of `10 ^ exponent`. Those behind
the longest number half way between neighbours cannot make a difference one by one: a single digit one
stands for them if `isMore` finds that they make the number greater. -/
def Magnitude.ofDigits (ds : List Nat) (exponent : Int) (isMore : List Nat → Bool) : Magnitude :=
  let ds := ds.dropWhile (· == 0)
  let left := ds.drop longestHalfway
  if left.isEmpty then
    .decimal (digitsValue 0 ds) exponent
  else
    let ds := ds.take longestHalfway ++ [if isMore left then 1 else 0]
    .decimal (digitsValue 0 ds) (exponent + (left.length - 1 : Nat))

/-- Splits a sign off; no sign is a plus. -/
def splitSign : List Char → Bool × List Char
  | '-' :: rest => (true, rest)
  | '+' :: rest => (false, rest)
  | text => (false, text)

/-- An exponent takes in no more digits once it has reached this size. -/
def exponentLimit : Nat := 65536

def exponentSize (ds : List Nat) : Nat :=
  ds.foldl (fun n d => if n < exponentLimit then 10 * n + d else n) 0

/-- Reads what may follow the digits: nothing, or an exponent up to the end. -/
def parseExponent? : List Char → Option Int
  | [] => some 0
  | c :: rest =>
    if c = 'e' ∨ c = 'E' then
      let (negative, rest) := splitSign rest
      match takeDigits rest with
      | ([], _) => none
      | (ds, []) => some (if negative then -exponentSize ds else exponentSize ds)
      | _ => none
    else
      none

/-- Reads digits with an optional point, and an optional exponent. -/
def parseDecimal? (text : List Char) : Option Magnitude :=
  let (whole, rest) := takeDigits text
  let (fraction, rest) :=
    match rest with
    | '.' :: rest => takeDigits rest
    | _ => ([], rest)
  if whole.isEmpty ∧ fraction.isEmpty then
    none
  else
    (parseExponent? rest).map fun exponent =>
      .ofDigits (whole ++ fraction) (exponent - fraction.length) (·.any (· != 0))

def parseMagnitude? (text : List Char) : Option Magnitude :=
  let word := text.map Char.toLower
  if word = "inf".toList ∨ word = "infinity".toList then some .infinite
  else if word = "nan".toList then some .nan
  else parseDecimal? text

/-- Beyond this decimal exponent every number is infinite, and below its negative every number is zero. -/
def extremeExponent : Int := 400

/-- About the decimal exponent of a positive number `significand * 10 ^ exponent`; a bit is worth 0.30103
digits. -/
def sizeEstimate (significand : Nat) (exponent : Int) : Int :=
  exponent + (Nat.log2 significand * 30103 / 100000 : Nat)

/-- The number of 64 bits nearest to a written one. -/
def Magnitude.toFloat : Magnitude → Float
  | infinite => 1.0 / 0.0
  | nan => 0.0 / 0.0
  | decimal significand exponent =>
    let size := sizeEstimate significand exponent
    if significand = 0 ∨ size < -extremeExponent then 0.0
    else if extremeExponent < size then 1.0 / 0.0
    else Float.ofScientific significand (exponent < 0) exponent.natAbs

def parse? (text : List Char) : Option Float :=
  let (negative, rest) := splitSign text
  (parseMagnitude? rest).map fun size => if negative then -size.toFloat else size.toFloat

end AddressAtlas.Binary64

import AddressAtlas.Binary64.Parse
import AddressAtlas.Json.Basic
import AddressAtlas.Text.Decimal

/-!
# JSON numbers

A number without point and exponent is an integer if it fits into 64 bits, and a floating point number
otherwise; minus zero is one too. A floating point number is the nearest to what is written, and a text
whose nearest number is infinite is no number. Half way between two numbers the even one is taken, and
the greater one if more digits are written than such a number can have; zeros in front do not count, nor
do zeros at the end of a fraction.
-/

namespace AddressAtlas.Json

open Text

variable {δ : Type}

/-- A number as it is handed on. -/
inductive Number where
  | integer (value : Int)
  | floating (value : Float)
  deriving DecidableEq

def greatestInteger : Nat := 18446744073709551615

def greatestNegated : Nat := 9223372036854775808

/-- The integer with a sign and a size, unless it is minus zero or does not fit into 64 bits. -/
def integer? (negative : Bool) (size : Nat) : Option Int :=
  if negative then
    if size = 0 ∨ greatestNegated < size then none else some (-size)
  else
    if greatestInteger < size then none else some size

/-- Drops the zeros at the end. -/
def dropLastZeros (ds : List Nat) : List Nat :=
  (ds.reverse.dropWhile (· == 0)).reverse

/-- The floating point number of a sign, the digits in front of a point and behind it, and a power of ten. -/
def floating (negative : Bool) (whole fraction : List Nat) (exponent : Int) : Reading δ Number :=
  let fraction := dropLastZeros fraction
  let size :=
    (Binary64.Magnitude.ofDigits (whole ++ fraction) (exponent - fraction.length) fun _ => true).toFloat
  if size.isInf then .error .malformed else .ok (.floating (if negative then -size else size))

/-- Reads one digit or more. -/
def readDigits (text : List Char) : Reading δ (List Nat × List Char) :=
  match takeDigits text with
  | ([], []) => .error .truncated
  | ([], _) => .error .malformed
  | taken => .ok taken

/-- Reads an exponent behind its letter, with or without a sign. -/
def readExponent (text : List Char) : Reading δ (Int × List Char) := do
  let (below, text) :=
    match text with
    | '+' :: rest => (false, rest)
    | '-' :: rest => (true, rest)
    | _ => (false, text)
  let (ds, rest) ← readDigits text
  let size := digitsValue 0 ds
  return (if below then -size else size, rest)

/-- Reads what may follow the digits of a floating point number: an exponent. -/
def readScale (negative : Bool) (whole fraction : List Nat) (text : List Char) :
    Reading δ (Number × List Char) := do
  let (exponent, rest) ←
    match text with
    | 'e' :: rest | 'E' :: rest => readExponent rest
    | _ => .ok (0, text)
  let x ← floating negative whole fraction exponent
  return (x, rest)

def readUnsigned (negative : Bool) (text : List Char) : Reading δ (Number × List Char) := do
  let (whole, rest) ← readDigits text
  match whole, rest with
  | 0 :: _ :: _, _ => .error .malformed
  | _, '.' :: rest =>
    let (fraction, rest) ← readDigits rest
    readScale negative whole fraction rest
  | _, 'e' :: _ | _, 'E' :: _ => readScale negative whole [] rest
  | _, _ =>
    match integer? negative (digitsValue 0 whole) with
    | some value => .ok (.integer value, rest)
    | none => readScale negative whole [] rest

/-- Reads a number that starts with a digit or a minus sign. -/
def readNumber : List Char → Reading δ (Number × List Char)
  | '-' :: rest => readUnsigned true rest
  | text => readUnsigned false text

end AddressAtlas.Json

/-!
# Decimal digits

The usual spelling of natural numbers and integers: no leading zero, and a minus sign in front of a
negative integer.
-/

namespace AddressAtlas.Text

def digitChar (d : Nat) : Char :=
  Char.ofNat ('0'.toNat + d)

def digitValue? (c : Char) : Option Nat :=
  if '0' ≤ c ∧ c ≤ '9' then some (c.toNat - '0'.toNat) else none

def isDigit (c : Char) : Bool :=
  (digitValue? c).isSome

/-- The digits of a natural number, the highest first. -/
def digits (n : Nat) : List Char :=
  if n < 10 then [digitChar n] else digits (n / 10) ++ [digitChar (n % 10)]

/-- The digits of an integer behind its sign. -/
def signedDigits : Int → List Char
  | .ofNat n => digits n
  | .negSucc n => '-' :: digits (n + 1)

def decimal (n : Nat) : String :=
  String.ofList (digits n)

/-- The value of a run of digits, continued from the value of the digits before it. -/
def digitsValue (before : Nat) (ds : List Nat) : Nat :=
  ds.foldl (fun n d => 10 * n + d) before

/-- The longest run of digits in front of a text, and the text behind it. -/
def takeDigits (text : List Char) : List Nat × List Char :=
  ((text.takeWhile isDigit).filterMap digitValue?, text.dropWhile isDigit)

end AddressAtlas.Text

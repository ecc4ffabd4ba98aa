import AddressAtlas.Binary64.Basic
import AddressAtlas.Text.Decimal

/-!
# Shortest decimal texts

A finite number is written with the fewest digits that read back as the same number, and of these with
the nearest. The numbers that read back form an interval around it, and the coarsest decimal grid with a
point in the interval has one among the two neighbours of the number.
-/

namespace AddressAtlas.Binary64

open Text

/-- A positive number `m * 2 ^ q` and a point `c * 10 ^ k`, both multiplied by the same positive number
so that they become natural numbers. -/
def onCommonScale (m : Nat) (q : Int) (c : Nat) (k : Int) : Nat × Nat :=
  (m * Nat.pow 2 q.toNat * Nat.pow 10 (-k).toNat, c * Nat.pow 10 k.toNat * Nat.pow 2 (-q).toNat)

/-- Whether `c * 10 ^ k` reads back as the number with this significand and exponent. The interval
reaches half way to both neighbours and includes its ends if the significand is even. -/
def readsBack (significand : Nat) (exponent : Int) (c : Nat) (k : Int) : Bool :=
  let below := if significand = leadingBit ∧ leastExponent < exponent then 1 else 2
  let (low, point) := onCommonScale (4 * significand - below) (exponent - 2) c k
  let (high, _) := onCommonScale (4 * significand + 2) (exponent - 2) c k
  if significand % 2 = 0 then low ≤ point && point ≤ high else low < point && point < high

/-- Of the two neighbours of a number among the multiples of `10 ^ k`, the nearest that reads back; a
number half way between them goes to the even one. -/
def nearestOnGrid? (significand : Nat) (exponent k : Int) : Option Nat :=
  let (size, unit) := onCommonScale significand exponent 1 k
  let below := size / unit
  let toBelow := size - below * unit
  let toAbove := (below + 1) * unit - size
  let upward := toAbove < toBelow || (toAbove == toBelow && below % 2 == 1)
  let belowFits := readsBack significand exponent below k
  let aboveFits := readsBack significand exponent (below + 1) k
  if belowFits && !(aboveFits && upward) then some below
  else if aboveFits then some (below + 1)
  else none

/-- The decimal exponents of all grids that are tried, the coarsest first. -/
def gridExponents : List Int :=
  (List.range 640).map fun (i : Nat) => 309 - (i : Int)

/-- Digits `c` and exponent `k` of the shortest decimal number `c * 10 ^ k` that reads back. -/
def shortest (significand : Nat) (exponent : Int) : Nat × Int :=
  (gridExponents.findSome? fun k =>
    (nearestOnGrid? significand exponent k).map fun c => (c, k)).getD (significand, exponent)

/-- Where positional texts end: numbers from `10 ^ leastPositional` up to, but not including,
`10 ^ positionalEnd` are written without an exponent. -/
def leastPositional : Int := -5

@[inherit_doc leastPositional]
def positionalEnd : Int := 16

/-- The text of `c * 10 ^ k`, always with a point if it has no exponent. -/
def decimalText (c : Nat) (k : Int) : List Char :=
  let ds := digits c
  let leading := k + (ds.length - 1 : Nat)
  if leastPositional ≤ leading ∧ leading < positionalEnd then
    if 0 ≤ k then
      ds ++ List.replicate k.toNat '0' ++ ['.', '0']
    else if 0 ≤ leading then
      let whole := leading.toNat + 1
      ds.take whole ++ '.' :: ds.drop whole
    else
      ['0', '.'] ++ List.replicate (-leading - 1).toNat '0' ++ ds
  else
    let fraction := ds.drop 1
    ds.take 1 ++ (if fraction.isEmpty then [] else '.' :: fraction) ++
      'e' :: (if 0 ≤ leading then ['+'] else []) ++ signedDigits leading

def text : Binary64 → String
  | nan => "NaN"
  | infinite negative => if negative then "-inf" else "inf"
  | finite negative significand exponent =>
    let size :=
      if significand = 0 then ['0', '.', '0']
      else
        let (c, k) := shortest significand exponent
        decimalText c k
    String.ofList (if negative then '-' :: size else size)

end AddressAtlas.Binary64

import AddressAtlas.Gzip.Bits

/-!
# Prefix codes

A prefix code is given by the length of each symbol's code word. Words of one length are consecutive
numbers in the order of their symbols, and they follow on the shorter words.
-/

namespace AddressAtlas.Gzip

/-- How many words each length from one on has, and the symbols in the order of their words. -/
structure PrefixCode where
  counts : List Nat
  symbols : Array Nat
  deriving Repr

namespace PrefixCode

/-- The symbols whose word has the given length. -/
def symbolsOf (lengths : List Nat) (length : Nat) : List Nat :=
  lengths.zipIdx.filterMap fun (l, symbol) => if l = length then some symbol else none

/-- The lengths that words can have, up to the longest word and at least one. -/
def wordLengths (lengths : List Nat) : List Nat :=
  (List.range (lengths.foldl max 1)).map (· + 1)

/-- The code in which symbol `i` has a word of the `i`th length; length zero is no word. -/
def ofLengths (lengths : List Nat) : PrefixCode where
  counts := (wordLengths lengths).map fun l => (symbolsOf lengths l).length
  symbols := ((wordLengths lengths).flatMap (symbolsOf lengths)).toArray

/-- The share of all infinite bit sequences that start with a word, in units of the longest word. -/
def share (counts : List Nat) : Nat :=
  counts.foldl (fun total count => 2 * total + count) 0

/-- Whether every bit sequence starts with a word, and with one only. -/
def isComplete (c : PrefixCode) : Bool :=
  share c.counts == Nat.pow 2 c.counts.length

/-- Whether a single bit is the whole of the only word, or there is no word at all. -/
def isSingleBit (c : PrefixCode) : Bool :=
  c.counts.length == 1 && c.symbols.size ≤ 1

/-- Reads on in a word: `word` is its number so far without the bit to come, `first` is the number of the
first word of the length that it will have, and `index` is the number of shorter words. -/
def readFrom (symbols : Array Nat) (word first index : Nat) (s : BitSource) :
    List Nat → Except Stop (Nat × BitSource)
  | [] => .error .corrupt
  | count :: counts => do
    let (b, s) ← s.next
    let word := 2 * word + b.toNat
    if word < first + count then
      match symbols[index + (word - first)]? with
      | some symbol => return (symbol, s)
      | none => .error .corrupt
    else
      readFrom symbols word (2 * (first + count)) (index + count) s counts

/-- Reads the word of a symbol. -/
def read (c : PrefixCode) (s : BitSource) : Except Stop (Nat × BitSource) :=
  readFrom c.symbols 0 0 0 s c.counts

end PrefixCode

end AddressAtlas.Gzip

import AddressAtlas.Json.Found
import AddressAtlas.RangeTable.Basic

/-!
# Reading a table from JSON

The text is an array of `[start,stop,value]`. Each entry is inserted as soon as it has been read, so the
first fault in reading order is the one reported, and events come in reading order too. A key of 32 bits
and a value are read as JSON numbers; a key of 128 bits is a bare run of digits.
-/

namespace AddressAtlas

open Json Text

inductive Expected where
  | ranges
  | entry
  | narrowKey
  | value
  deriving DecidableEq, Repr

def Expected.describe : Expected → String
  | ranges => "a sequence of (start, end, value) ranges in ascending order"
  | entry => "a tuple of size 3"
  | narrowKey => "u32"
  | value => "i32"

/-- Why JSON text is no table. -/
inductive Refusal (w : Width) where
  | violation (v : Violation w)
  | wrongKind (found : Found) (expected : Expected)
  | outOfRange (value : Int) (expected : Expected)
  /-- An entry has fewer than three parts. -/
  | shortEntry (length : Nat)
  deriving DecidableEq

def Refusal.message {w : Width} : Refusal w → String
  | violation v => v.message
  | wrongKind found expected => "invalid type: " ++ found.describe ++ ", expected " ++ expected.describe
  | outOfRange n expected =>
    "invalid value: " ++ describeInteger n ++ ", expected " ++ expected.describe
  | shortEntry length => "invalid length " ++ decimal length ++ ", expected " ++ Expected.entry.describe

namespace RangeTable

variable {w : Width}

/-- The fault of a text that does not start with a value of the expected kind. -/
def mismatch (expected : Expected) (text : List Char) : Fault (Refusal w) :=
  match readFound text with
  | .ok found => .refused (.wrongKind found expected)
  | .error fault => fault

/-- Reads an integer that lies between two bounds. -/
def readBounded (expected : Expected) (least greatest : Int) (text : List Char) :
    Reading (Refusal w) (Int × List Char) :=
  match skipBlanks text with
  | [] => .error .truncated
  | c :: rest =>
    if c = '-' ∨ c.isDigit then do
      let (number, rest) ← readNumber (c :: rest)
      match number with
      | .integer n =>
        if least ≤ n ∧ n ≤ greatest then .ok (n, rest) else .error (.refused (.outOfRange n expected))
      | .floating _ => .error (.refused (.wrongKind (.number number) expected))
    else
      .error (mismatch expected (c :: rest))

def greatestWideKey : Nat := 340282366920938463463374607431768211455

/-- Reads a run of digits without leading zero that fits into 128 bits. -/
def readDigitRun (text : List Char) : Reading (Refusal w) (Nat × List Char) :=
  match skipBlanks text with
  | [] => .error .truncated
  | text =>
    match takeDigits text with
    | ([], _) | (0 :: _ :: _, _) => .error .malformed
    | (ds, rest) =>
      let n := digitsValue 0 ds
      if n ≤ greatestWideKey then .ok (n, rest) else .error .malformed

def readKey : {w : Width} → List Char → Reading (Refusal w) (Key w × List Char)
  | .narrow, text => do
    let (n, rest) ← readBounded .narrowKey 0 4294967295 text
    return (BitVec.ofInt _ n, rest)
  | .wide, text => do
    let (n, rest) ← readDigitRun text
    return (BitVec.ofNat _ n, rest)

def readValue (text : List Char) : Reading (Refusal w) (Int32 × List Char) := do
  let (n, rest) ← readBounded .value (-2147483648) 2147483647 text
  return (Int32.ofInt n, rest)

/-- Looks for a further element of an array: `false` stands before its closing bracket, `true` before the
element. A comma is needed in front of each but the first. -/
def readSeparator {δ : Type} (isFirst : Bool) (text : List Char) : Reading δ (Bool × List Char) :=
  match skipBlanks text with
  | [] => .error .truncated
  | ']' :: rest => .ok (false, ']' :: rest)
  | c :: rest =>
    if isFirst then
      .ok (true, c :: rest)
    else if c = ',' then
      match skipBlanks rest with
      | [] => .error .truncated
      | ']' :: _ => .error .malformed
      | rest => .ok (true, rest)
    else
      .error .malformed

/-- Goes on to part `i` of an entry, which must be there. -/
def readPartSeparator (i : Nat) (text : List Char) : Reading (Refusal w) (List Char) := do
  let (more, rest) ← readSeparator (i = 0) text
  if more then .ok rest else .error (.refused (.shortEntry i))

/-- Reads the closing bracket of an array that may have no further element. -/
def readClose {δ : Type} (text : List Char) : Reading δ (List Char) :=
  match skipBlanks text with
  | [] => .error .truncated
  | ']' :: rest => .ok rest
  | _ => .error .malformed

/-- Reads an entry behind its opening bracket. -/
def readParts (text : List Char) : Reading (Refusal w) (Entry w × List Char) := do
  let rest ← readPartSeparator 0 text
  let (start, rest) ← readKey rest
  let rest ← readPartSeparator 1 rest
  let (stop, rest) ← readKey rest
  let rest ← readPartSeparator 2 rest
  let (value, rest) ← readValue rest
  let rest ← readClose rest
  return (⟨start, stop, value⟩, rest)

def readEntry (text : List Char) : Reading (Refusal w) (Entry w × List Char) :=
  match skipBlanks text with
  | [] => .error .truncated
  | '[' :: rest => readParts rest
  | text => .error (mismatch .entry text)

/-- A table that has been read so far, and the text still to come. -/
abbrev Progress (w : Width) := RangeTable w × List Char

def stopped {ε : Type} (state : Progress w) (fault : ε) : Outcome (Progress w) ε :=
  { state, fault := some fault }

/-- Inserts entries up to the closing bracket of the array; `fuel` bounds their number. -/
def readEntries (fuel : Nat) (isFirst : Bool) (state : Progress w) :
    Outcome (Progress w) (Fault (Refusal w)) :=
  match fuel with
  | 0 => stopped state .truncated
  | fuel + 1 =>
    let (table, text) := state
    match readSeparator isFirst text with
    | .error fault => stopped state fault
    | .ok (false, rest) => .idle (table, rest)
    | .ok (true, rest) =>
      match readEntry rest with
      | .error fault => stopped state fault
      | .ok (e, rest) =>
        let inserted := (table.insert e).mapFault fun v => Fault.refused (.violation v)
        (inserted.map fun table => (table, rest)).andThen (readEntries fuel false)

/-- Reads the closing bracket, behind which only blanks may stand. -/
def readEnd (state : Progress w) : Outcome (Progress w) (Fault (Refusal w)) :=
  match readClose state.2 with
  | .error fault => stopped state fault
  | .ok rest =>
    match skipBlanks rest with
    | [] => .idle (state.1, [])
    | rest => stopped (state.1, rest) .malformed

/-- Reads a whole text as a table and leaves it without spare room. -/
def decodeText (text : List Char) : Outcome (RangeTable w) (Fault (Refusal w)) :=
  match skipBlanks text with
  | [] => { state := vacant 0, fault := some .truncated }
  | '[' :: rest =>
    let read := readEntries (text.length + 1) true (vacant 0, rest)
    let trimmed := read.andThen fun (table, rest) => table.trim.map fun table => (table, rest)
    (trimmed.andThen readEnd).map Prod.fst
  | text => { state := vacant 0, fault := some (mismatch .ranges text) }

@[inherit_doc decodeText]
def decode (text : String) : Outcome (RangeTable w) (Fault (Refusal w)) :=
  decodeText text.toList

end RangeTable

end AddressAtlas

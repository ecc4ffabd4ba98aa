import AddressAtlas.Json.Basic

/-!
# JSON strings

A string runs to the next bare quote. Controls must be escaped, and a character outside the basic plane
that is escaped by code units needs both of its surrogates.
-/

namespace AddressAtlas.Json

variable {δ : Type}

def hexValue? (c : Char) : Option Nat :=
  if '0' ≤ c ∧ c ≤ '9' then some (c.toNat - '0'.toNat)
  else if 'a' ≤ c ∧ c ≤ 'f' then some (c.toNat - 'a'.toNat + 10)
  else if 'A' ≤ c ∧ c ≤ 'F' then some (c.toNat - 'A'.toNat + 10)
  else none

/-- The number that four hexadecimal digits stand for. -/
def hexUnit? (a b c d : Char) : Option Nat := do
  let a ← hexValue? a
  let b ← hexValue? b
  let c ← hexValue? c
  let d ← hexValue? d
  return ((a * 16 + b) * 16 + c) * 16 + d

/-- Bytes that a text occupies in UTF-8. -/
def byteLength (text : List Char) : Nat :=
  text.foldl (fun n c => n + c.utf8Size) 0

/-- Reads the four digits of an escaped code unit; a text of fewer than four bytes ends too soon. -/
def readUnit (text : List Char) : Reading δ (Nat × List Char) :=
  if byteLength text < 4 then
    .error .truncated
  else
    match text with
    | a :: b :: c :: d :: rest =>
      match hexUnit? a b c d with
      | some unit => .ok (unit, rest)
      | none => .error .malformed
    | _ => .error .malformed

/-- Whether a code unit is the first, or the second, of a pair. -/
def isLeading (unit : Nat) : Bool :=
  0xd800 ≤ unit && unit ≤ 0xdbff

@[inherit_doc isLeading]
def isTrailing (unit : Nat) : Bool :=
  0xdc00 ≤ unit && unit ≤ 0xdfff

def ofPair (leading trailing : Nat) : Char :=
  Char.ofNat (0x10000 + (leading - 0xd800) * 0x400 + (trailing - 0xdc00))

/-- Reads the escaped unit that must follow a leading one. -/
def readTrailing : List Char → Reading δ (Nat × List Char)
  | [] | ['\\'] => .error .truncated
  | '\\' :: 'u' :: rest => do
    let (unit, rest) ← readUnit rest
    if isTrailing unit then .ok (unit, rest) else .error .malformed
  | _ => .error .malformed

/-- Reads a character escaped by one or two code units. -/
def readEscapedUnits (text : List Char) : Reading δ (Char × List Char) := do
  let (unit, rest) ← readUnit text
  if isTrailing unit then
    .error .malformed
  else if isLeading unit then
    let (trailing, rest) ← readTrailing rest
    .ok (ofPair unit trailing, rest)
  else
    .ok (Char.ofNat unit, rest)

def readEscape : List Char → Reading δ (Char × List Char)
  | [] => .error .truncated
  | c :: rest =>
    match c with
    | '"' => .ok ('"', rest)
    | '\\' => .ok ('\\', rest)
    | '/' => .ok ('/', rest)
    | 'b' => .ok ('\x08', rest)
    | 'f' => .ok ('\x0c', rest)
    | 'n' => .ok ('\n', rest)
    | 'r' => .ok ('\r', rest)
    | 't' => .ok ('\t', rest)
    | 'u' => readEscapedUnits rest
    | _ => .error .malformed

/-- Reads up to the closing quote; `fuel` bounds the number of characters. -/
def readCharacters (fuel : Nat) (text : List Char) : Reading δ (List Char × List Char) :=
  match fuel, text with
  | 0, _ | _, [] => .error .truncated
  | fuel + 1, c :: rest =>
    if c = '"' then
      .ok ([], rest)
    else if c = '\\' then do
      let (c, rest) ← readEscape rest
      let (cs, rest) ← readCharacters fuel rest
      .ok (c :: cs, rest)
    else if c.toNat < 0x20 then
      .error .malformed
    else do
      let (cs, rest) ← readCharacters fuel rest
      .ok (c :: cs, rest)

/-- Reads the text of a string whose opening quote has been read. -/
def readString (text : List Char) : Reading δ (List Char × List Char) :=
  readCharacters (text.length + 1) text

end AddressAtlas.Json

import AddressAtlas.RangeTable.Basic
import AddressAtlas.Text.Decimal

/-!
# Texts of a table

Two listings for readers, `{10-20: 1, 25-30: 2}` and `{10..=20: 1, 25..=30: 2}`, and the compact JSON
array `[[10,20,1],[25,30,2]]`.
-/

namespace AddressAtlas.RangeTable

open Text

variable {w : Width}

/-- Texts one after the other with a separator between them. -/
def joined (separator : List Char) : List (List Char) → List Char
  | [] => []
  | [text] => text
  | text :: rest => text ++ separator ++ joined separator rest

/-- A range and its value; `mark` stands between the two ends of the range. -/
def line (mark : List Char) (e : Entry w) : List Char :=
  digits e.start.toNat ++ mark ++ digits e.stop.toNat ++ [':', ' '] ++ signedDigits e.value.toInt

/-- The entries in braces. -/
def listing (mark : List Char) (es : List (Entry w)) : List Char :=
  '\x7b' :: joined [',', ' '] (es.map (line mark)) ++ ['\x7d']

def display (t : RangeTable w) : String :=
  String.ofList (listing ['-'] t.entries)

/-- The ranges with the sign of a closed range between their ends. -/
def describe (t : RangeTable w) : String :=
  String.ofList (listing ['.', '.', '='] t.entries)

/-- An entry as a JSON array of three numbers. -/
def encodeEntry (e : Entry w) : List Char :=
  '[' :: joined [','] [digits e.start.toNat, digits e.stop.toNat, signedDigits e.value.toInt] ++ [']']

/-- Entries as a JSON array without blanks. -/
def encodeEntries (es : List (Entry w)) : List Char :=
  '[' :: joined [','] (es.map encodeEntry) ++ [']']

def encode (t : RangeTable w) : String :=
  String.ofList (encodeEntries t.entries)

end AddressAtlas.RangeTable

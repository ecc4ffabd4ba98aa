import AddressAtlas.Text.Decimal
import AddressAtlas.Text.Utf8

/-!
# Delimited rows

Rows of fields in comma separated text. A row ends at a line feed, a carriage return or the end of the
input, and empty lines are no rows. A field that starts with a quote runs to the matching one and may hold
commas, line ends and doubled quotes; what follows the matching quote is kept as it stands.
-/

namespace AddressAtlas

/-- Bytes that can be read, how many of them the first read brings, and what reading on behind them fails
with if they do not come to their end there. -/
structure ByteSource where
  bytes : List UInt8
  first : Nat := bytes.length
  failure? : Option String := none
  deriving DecidableEq, Repr

namespace Delimited

def comma : UInt8 := 44

def quote : UInt8 := 34

def lineFeed : UInt8 := 10

def carriageReturn : UInt8 := 13

/-- Either of the two bytes that end a line. -/
def isLineEnd (b : UInt8) : Bool :=
  b == lineFeed || b == carriageReturn

/-- A byte that ends a field outside quotes. -/
def isFieldEnd (b : UInt8) : Bool :=
  b == comma || isLineEnd b

inductive Ending where
  | comma
  | line
  | input
  deriving DecidableEq, Repr

/-- How many bytes a stretch of input has, and how many of them are line feeds. -/
structure Extent where
  bytes : Nat := 0
  lines : Nat := 0
  deriving DecidableEq, Repr

def Extent.of (bytes : List UInt8) : Extent :=
  ⟨bytes.length, bytes.count lineFeed⟩

instance : Add Extent where
  add a b := ⟨a.bytes + b.bytes, a.lines + b.lines⟩

/-- A piece of the input, the extent of the input up to and including what ended it, what that was, and
the bytes behind it. -/
structure Cut (α : Type) where
  piece : α
  extent : Extent
  ending : Ending
  rest : List UInt8

/-- Cuts at the end of a field whose quotes, if any, are behind. -/
def cutBare (bytes : List UInt8) : Cut (List UInt8) :=
  let text := bytes.takeWhile (!isFieldEnd ·)
  match bytes.dropWhile (!isFieldEnd ·) with
  | [] => ⟨text, .of text, .input, []⟩
  | b :: rest => ⟨text, .of text + .of [b], if b == comma then .comma else .line, rest⟩

/-- Cuts at the end of a field whose opening quote has been read; `before` is its text so far, and
`extent` that of the input behind which it goes on. -/
def cutQuoted (before : Array UInt8) (extent : Extent) (bytes : List UInt8) : Cut (List UInt8) :=
  let run := bytes.takeWhile (· != quote)
  let text := before ++ run
  let extent := extent + .of run
  match _h : bytes.dropWhile (· != quote) with
  | [] => ⟨text.toList, extent, .input, []⟩
  | q :: rest =>
    let extent := extent + .of [q]
    match rest with
    | b :: rest' =>
      if b == quote then
        cutQuoted (text.push quote) (extent + .of [b]) rest'
      else
        let tail := cutBare rest
        { tail with piece := text.toList ++ tail.piece, extent := extent + tail.extent }
    | [] => ⟨text.toList, extent, .input, []⟩
  termination_by bytes.length
  decreasing_by
    have := (List.dropWhile_suffix (l := bytes) (· != quote)).length_le
    rw [_h] at this
    simp only [List.length_cons] at this
    omega

def cutField : List UInt8 → Cut (List UInt8)
  | [] => cutBare []
  | b :: rest => if b == quote then cutQuoted #[] (.of [b]) rest else cutBare (b :: rest)

theorem length_dropWhile_le (p : UInt8 → Bool) (bytes : List UInt8) :
    (bytes.dropWhile p).length ≤ bytes.length :=
  (List.dropWhile_suffix p).length_le

theorem cutBare_rest (bytes : List UInt8) :
    (cutBare bytes).ending = .input ∧ (cutBare bytes).rest = [] ∨
      (cutBare bytes).rest.length < bytes.length := by
  unfold cutBare
  have h := length_dropWhile_le (!isFieldEnd ·) bytes
  split
  · exact .inl ⟨rfl, rfl⟩
  · rename_i heq
    rw [heq] at h
    exact .inr h

theorem cutQuoted_rest (before : Array UInt8) (extent : Extent) (bytes : List UInt8) :
    (cutQuoted before extent bytes).ending = .input ∧ (cutQuoted before extent bytes).rest = [] ∨
      (cutQuoted before extent bytes).rest.length < bytes.length := by
  fun_induction cutQuoted before extent bytes with
  | case1 => exact .inl ⟨rfl, rfl⟩
  | case2 before extent bytes run text extent' q extent'' b rest' h hb ih =>
    have := length_dropWhile_le (· != quote) bytes
    grind
  | case3 before extent bytes run text extent' q extent'' b rest' h hb tail =>
    have := length_dropWhile_le (· != quote) bytes
    have := cutBare_rest (b :: rest')
    grind
  | case4 => exact .inl ⟨rfl, rfl⟩

theorem cutField_rest (bytes : List UInt8) :
    (cutField bytes).ending = .input ∧ (cutField bytes).rest = [] ∨
      (cutField bytes).rest.length < bytes.length := by
  unfold cutField
  split
  · exact cutBare_rest []
  · rename_i b rest
    split
    · have := cutQuoted_rest #[] (.of [b]) rest
      grind
    · exact cutBare_rest (b :: rest)

/-- Cuts at the end of a row; `before` are its fields so far, and `extent` that of the input in which
they stand. -/
def cutRowFrom (before : Array (List UInt8)) (extent : Extent) (bytes : List UInt8) :
    Cut (List (List UInt8)) :=
  let field := cutField bytes
  let fields := before.push field.piece
  let extent := extent + field.extent
  if _h : field.ending = .comma then
    cutRowFrom fields extent field.rest
  else
    { field with piece := fields.toList, extent }
  termination_by bytes.length
  decreasing_by
    rcases cutField_rest bytes with h' | h'
    · rw [h'.1] at _h
      cases _h
    · exact h'

def cutRow (bytes : List UInt8) : Cut (List (List UInt8)) :=
  cutRowFrom #[] {} bytes

theorem cutRowFrom_rest (before : Array (List UInt8)) (extent : Extent) (bytes : List UInt8) :
    (cutRowFrom before extent bytes).ending = .input ∧ (cutRowFrom before extent bytes).rest = [] ∨
      (cutRowFrom before extent bytes).rest.length < bytes.length := by
  fun_induction cutRowFrom before extent bytes with
  | case1 before extent bytes field fields extent' h ih =>
    have := cutField_rest bytes
    grind
  | case2 before extent bytes field fields extent' h => exact cutField_rest bytes

theorem cutRow_rest (bytes : List UInt8) :
    (cutRow bytes).ending = .input ∧ (cutRow bytes).rest = [] ∨
      (cutRow bytes).rest.length < bytes.length :=
  cutRowFrom_rest #[] {} bytes

structure Position where
  /-- Rows read before. -/
  row : Nat
  /-- Lines are counted from one, by line feeds. -/
  line : Nat
  byte : Nat
  deriving DecidableEq, Repr

def Position.start : Position :=
  ⟨0, 1, 0⟩

/-- The position behind one more row that takes up so much input. -/
def Position.advance (p : Position) (extent : Extent) : Position :=
  ⟨p.row + 1, p.line + extent.lines, p.byte + extent.bytes⟩

inductive Fault where
  /-- The bytes end in a failure. -/
  | unreadable (cause : String)
  /-- Only so many bytes of a field are text; the position is that before the row. -/
  | notText (position : Position) (field valid : Nat)
  deriving DecidableEq, Repr

/-- What is wrong with bytes that are no text. -/
def notTextMessage (field valid : Nat) : String :=
  "invalid utf-8: invalid UTF-8 in field " ++ Text.decimal field ++ " near byte index " ++ Text.decimal valid

namespace Fault

def message : Fault → String
  | unreadable cause => cause
  | notText position field valid =>
    "CSV parse error: record " ++ Text.decimal position.row ++ " (line " ++ Text.decimal position.line ++
      ", field: " ++ Text.decimal field ++ ", byte: " ++ Text.decimal position.byte ++ "): " ++
      notTextMessage field valid

/-- The messages of the causes of a fault. -/
def chain : Fault → List String
  | unreadable cause => [cause]
  | notText _ field valid => [notTextMessage field valid]

end Fault

abbrev Item := Except Fault (List String)

/-- The texts of fields behind the texts `before`. -/
def decodeFields (position : Position) (before : Array String) : List (List UInt8) → Item
  | [] => .ok before.toList
  | field :: rest =>
    match Text.decodeUtf8 field with
    | .error valid => .error (.notText position before.size valid)
    | .ok text => decodeFields position (before.push text) rest

/-- A failure to read on stands behind all rows. -/
def closing (failure? : Option String) : List Item :=
  failure?.toList.map fun cause => .error (.unreadable cause)

/-- The rows from a position on, behind the items `before`; `mark` counts bytes in front that belong to no
line. The last item is a fault if there is one. -/
def itemsFrom (before : Array Item) (failure? : Option String) (position : Position) (mark : Nat)
    (bytes : List UInt8) : List Item :=
  let body := bytes.drop mark
  let blank := body.takeWhile isLineEnd
  match _h : body.dropWhile isLineEnd with
  | [] => before.toList ++ closing failure?
  | b :: rest =>
    let row := cutRow (b :: rest)
    if row.ending = .input ∧ failure?.isSome then
      before.toList ++ closing failure?
    else
      match decodeFields position #[] row.piece with
      | .error fault => (before.push (.error fault)).toList
      | .ok fields =>
        let position := position.advance (⟨mark, 0⟩ + .of blank + row.extent)
        itemsFrom (before.push (.ok fields)) failure? position 0 row.rest
  termination_by bytes.length
  decreasing_by
    have hbody := length_dropWhile_le isLineEnd (bytes.drop mark)
    have hrest := cutRow_rest (b :: rest)
    rw [List.length_drop] at hbody
    grind

/-- The mark of UTF-8 text that may open an input. -/
def byteOrderMark : List UInt8 := [239, 187, 191]

/-- The rows of a source. Only a mark that the first read brings as a whole is one, and if that read brings
nothing else, the input counts as empty, whatever stands behind. -/
def items (source : ByteSource) : List Item :=
  let front := source.bytes.take source.first
  if front = byteOrderMark then
    []
  else
    let mark := if byteOrderMark.isPrefixOf front then byteOrderMark.length else 0
    itemsFrom #[] source.failure? .start mark source.bytes

end Delimited

end AddressAtlas

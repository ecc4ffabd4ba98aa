import AddressAtlas.Gzip.PrefixCode

/-!
# Deflated data

Deflated data is a sequence of blocks. A block holds bytes as they are, or symbols of a prefix code for
bytes and for copies of earlier output; the code is a fixed one or stands in front of the symbols.
-/

namespace AddressAtlas.Gzip

/-- The output so far, and either the data still to come or what stopped the work. -/
structure Inflation where
  output : Array UInt8
  next : Except Stop BitSource

/-- Stops with the output so far. -/
def Inflation.stopped (output : Array UInt8) (stop : Stop) : Inflation :=
  ⟨output, .error stop⟩

/-- Goes on with the data still to come. -/
def Inflation.andThen (i : Inflation) (f : Array UInt8 → BitSource → Inflation) : Inflation :=
  match i.next with
  | .error _ => i
  | .ok s => f i.output s

/-- Least value and number of extra bits, by symbol. -/
abbrev ValueTable := Array (Nat × Nat)

/-- The lengths of copies, from symbol 257 on. -/
def copyLengths : ValueTable := #[
  (3, 0), (4, 0), (5, 0), (6, 0), (7, 0), (8, 0), (9, 0), (10, 0), (11, 1), (13, 1), (15, 1), (17, 1),
  (19, 2), (23, 2), (27, 2), (31, 2), (35, 3), (43, 3), (51, 3), (59, 3), (67, 4), (83, 4), (99, 4),
  (115, 4), (131, 5), (163, 5), (195, 5), (227, 5), (258, 0)]

/-- The distances of copies. -/
def copyDistances : ValueTable := #[
  (1, 0), (2, 0), (3, 0), (4, 0), (5, 1), (7, 1), (9, 2), (13, 2), (17, 3), (25, 3), (33, 4), (49, 4),
  (65, 5), (97, 5), (129, 6), (193, 6), (257, 7), (385, 7), (513, 8), (769, 8), (1025, 9), (1537, 9),
  (2049, 10), (3073, 10), (4097, 11), (6145, 11), (8193, 12), (12289, 12), (16385, 13), (24577, 13)]

/-- Reads the value of a symbol. -/
def ValueTable.read (table : ValueTable) (symbol : Nat) (s : BitSource) :
    Except Stop (Nat × BitSource) :=
  match table[symbol]? with
  | some (least, bits) => do
    let (more, s) ← s.number bits
    return (least + more, s)
  | none => .error .corrupt

/-- The symbol behind the last one of a block. -/
def endOfBlock : Nat := 256

/-- Appends a copy of output from some distance back; in front of the output there are zeros. -/
def copyBack (distance : Nat) (output : Array UInt8) : Nat → Array UInt8
  | 0 => output
  | n + 1 =>
    let b := if distance ≤ output.size then output.getD (output.size - distance) 0 else 0
    copyBack distance (output.push b) n

/-- The code of bytes, copy lengths and the end of a block, and the code of distances. -/
structure BlockCode where
  literals : PrefixCode
  distances : PrefixCode

/-- Reads the symbols of a block; `fuel` bounds their number. -/
def BlockCode.inflate (code : BlockCode) (fuel : Nat) (output : Array UInt8) (s : BitSource) :
    Inflation :=
  match fuel with
  | 0 => .stopped output .truncated
  | fuel + 1 =>
    match code.literals.read s with
    | .error stop => .stopped output stop
    | .ok (symbol, s) =>
      if symbol < endOfBlock then
        code.inflate fuel (output.push symbol.toUInt8) s
      else if symbol = endOfBlock then
        ⟨output, .ok s⟩
      else
        let copy : Except Stop (Nat × Nat × BitSource) := do
          let (length, s) ← copyLengths.read (symbol - endOfBlock - 1) s
          let (symbol, s) ← code.distances.read s
          let (distance, s) ← copyDistances.read symbol s
          return (length, distance, s)
        match copy with
        | .error stop => .stopped output stop
        | .ok (length, distance, s) => code.inflate fuel (copyBack distance output length) s

/-- The code that needs no description. -/
def BlockCode.fixed : BlockCode where
  literals := .ofLengths <|
    List.replicate 144 8 ++ List.replicate 112 9 ++ List.replicate 24 7 ++ List.replicate 8 8
  distances := .ofLengths (List.replicate 32 5)

/-- The order in which the lengths of the code for lengths are given. -/
def lengthOrder : List Nat :=
  [16, 17, 18, 0, 8, 7, 9, 6, 10, 5, 11, 4, 12, 3, 13, 2, 14, 1, 15]

/-- Reads lengths of three bits each. -/
def readShortLengths (s : BitSource) : Nat → Except Stop (List Nat × BitSource)
  | 0 => .ok ([], s)
  | n + 1 => do
    let (l, s) ← s.number 3
    let (ls, s) ← readShortLengths s n
    return (l :: ls, s)

/-- The symbols of the code for lengths that repeat the length before, or zero a few or many times: the
least number of repetitions and the bits of what is added to it. -/
def repetition? : Nat → Option (Nat × Nat)
  | 16 => some (3, 2)
  | 17 => some (3, 3)
  | 18 => some (11, 7)
  | _ => none

/-- Reads `count` lengths, of which `done` have been read, the last one first; `fuel` bounds the number of
symbols. -/
def readLengths (code : PrefixCode) (count fuel : Nat) (done : List Nat) (s : BitSource) :
    Except Stop (List Nat × BitSource) :=
  match fuel with
  | 0 => .error .truncated
  | fuel + 1 =>
    if count < done.length then
      .error .corrupt
    else if done.length = count then
      .ok (done.reverse, s)
    else do
      let (symbol, s) ← code.read s
      match repetition? symbol with
      | none => readLengths code count fuel (symbol :: done) s
      | some (least, bits) =>
        if symbol = 16 ∧ done.isEmpty then
          .error .corrupt
        else
          let (more, s) ← s.number bits
          let l := if symbol = 16 then done.headD 0 else 0
          readLengths code count fuel (List.replicate (least + more) l ++ done) s

/-- A code by its lengths. It must be complete, unless it has no word or a single word of one bit. -/
def completeCode (lengths : List Nat) : Except Stop PrefixCode :=
  let code := PrefixCode.ofLengths lengths
  if code.isComplete || code.isSingleBit then .ok code else .error .corrupt

/-- Reads the code in front of a block. -/
def readBlockCode (s : BitSource) : Except Stop (BlockCode × BitSource) := do
  let (literals, s) ← s.number 5
  let (distances, s) ← s.number 5
  let (short, s) ← s.number 4
  let literals := literals + 257
  let distances := distances + 1
  if 286 < literals ∨ 30 < distances then
    .error .corrupt
  else
    let (short, s) ← readShortLengths s (short + 4)
    let given := lengthOrder.zip short
    let lengthCode := PrefixCode.ofLengths ((List.range 19).map fun i => (given.lookup i).getD 0)
    if lengthCode.isComplete then
      let count := literals + distances
      let (lengths, s) ← readLengths lengthCode count (count + 1) [] s
      let literals' ← completeCode (lengths.take literals)
      let distances' ← completeCode (lengths.drop literals)
      return (⟨literals', distances'⟩, s)
    else
      .error .corrupt

/-- A number of two bytes, the low one first. -/
def littleEndian (low high : UInt8) : Nat :=
  low.toNat + 256 * high.toNat

/-- Copies a block of plain bytes: their number, the same number with all bits inverted, and the bytes. -/
def inflateStored (output : Array UInt8) (s : BitSource) : Inflation :=
  match s.align.bytes with
  | a :: b :: c :: d :: rest =>
    let length := littleEndian a b
    if length + littleEndian c d = 65535 then
      let plain := rest.take length
      let output := output ++ plain
      if plain.length < length then .stopped output .truncated
      else ⟨output, .ok (.ofBytes (rest.drop length))⟩
    else
      .stopped output .corrupt
  | _ => .stopped output .truncated

/-- Reads the blocks up to the last one; `fuel` bounds their number and that of the symbols in each. -/
def inflateBlocks (fuel : Nat) (output : Array UInt8) (s : BitSource) : Inflation :=
  match fuel with
  | 0 => .stopped output .truncated
  | fuel + 1 =>
    match s.number 3 with
    | .error stop => .stopped output stop
    | .ok (head, s) =>
      let block : Inflation :=
        match head / 2 with
        | 0 => inflateStored output s
        | 1 => BlockCode.fixed.inflate (s.size + 1) output s
        | 2 =>
          match readBlockCode s with
          | .error stop => .stopped output stop
          | .ok (code, s) => code.inflate (s.size + 1) output s
        | _ => .stopped output .corrupt
      if head % 2 = 1 then block else block.andThen (inflateBlocks fuel)

/-- Decompresses deflated data. -/
def inflate (data : List UInt8) : Inflation :=
  inflateBlocks (8 * data.length + 1) #[] (.ofBytes data)

end AddressAtlas.Gzip

import AddressAtlas.Delimited
import AddressAtlas.Gzip.Inflate

/-!
# Compressed files

A gzip member is a header, deflated data, and a trailer with a checksum and the size of what the data
decompresses to. `source` reads the first member of a file; what lies behind it does not matter. A file is
read piece by piece, and the first read of the output brings what the first pieces decompress to.
-/

namespace AddressAtlas.Gzip

/-- Works one bit into a checksum. -/
def crcBit (c : UInt32) : UInt32 :=
  if c &&& 1 == 1 then (c >>> 1) ^^^ 0xedb88320 else c >>> 1

/-- Works one byte into a checksum. -/
def crcByte (c : UInt32) (b : UInt8) : UInt32 :=
  (List.range 8).foldl (fun c _ => crcBit c) (c ^^^ b.toUInt32)

/-- The CRC-32 checksum of some bytes. -/
def crc32 (bytes : List UInt8) : UInt32 :=
  bytes.foldl crcByte 0xffffffff ^^^ 0xffffffff

/-- Why a member cannot be read. -/
inductive Fault where
  | invalidHeader
  | longText
  | wrongChecksum
  | stopped (stop : Stop)
  deriving DecidableEq, Repr

def Fault.message : Fault → String
  | invalidHeader => "invalid gzip header"
  | longText => "gzip header field too long"
  | wrongChecksum => "corrupt gzip stream does not have a matching checksum"
  | stopped .truncated => "unexpected end of file"
  | stopped .corrupt => "corrupt deflate stream"

/-- The most bytes that a name or a comment may have in order to be read. -/
def longestText : Nat := 65535

/-- Skips a text that ends in a zero byte. -/
def skipText (bytes : List UInt8) : Except Fault (List UInt8) :=
  if longestText < (bytes.takeWhile (· != 0)).length then
    .error .longText
  else
    match bytes.dropWhile (· != 0) with
    | [] => .error (.stopped .truncated)
    | _ :: rest => .ok rest

/-- Skips a field of two bytes of length and as many bytes as they say. -/
def skipExtra : List UInt8 → Except Fault (List UInt8)
  | a :: b :: rest =>
    let length := littleEndian a b
    if rest.length < length then .error (.stopped .truncated) else .ok (rest.drop length)
  | _ => .error (.stopped .truncated)

/-- Skips the checksum of the header `file` without the bytes `rest`, if it is right. -/
def skipHeaderCrc (file : List UInt8) (rest : List UInt8) : Except Fault (List UInt8) :=
  let header := file.take (file.length - rest.length)
  match rest with
  | a :: b :: rest =>
    if (crc32 header).toNat % 65536 = littleEndian a b then .ok rest else .error .wrongChecksum
  | _ => .error (.stopped .truncated)

/-- The parts that a header may have, by the bits of its flags. -/
def skipParts (file : List UInt8) (flags : UInt8) (rest : List UInt8) : Except Fault (List UInt8) := do
  let given (i : Nat) : Bool := flags.toNat.testBit i
  let rest ← if given 2 then skipExtra rest else .ok rest
  let rest ← if given 3 then skipText rest else .ok rest
  let rest ← if given 4 then skipText rest else .ok rest
  if given 1 then skipHeaderCrc file rest else .ok rest

/-- What follows the header of a file: two bytes that mark the format, the method, the flags, six bytes
of time and origin, and the parts that the flags name. -/
def skipHeader (file : List UInt8) : Except Fault (List UInt8) :=
  match file with
  | a :: b :: method :: flags :: _ :: _ :: _ :: _ :: _ :: _ :: rest =>
    if a = 31 ∧ b = 139 ∧ method = 8 ∧ flags.toNat < 32 then skipParts file flags rest
    else .error .invalidHeader
  | _ => .error (.stopped .truncated)

/-- A number of four bytes, the lowest first. -/
def littleEndian32 (a b c d : UInt8) : Nat :=
  littleEndian a b + 65536 * littleEndian c d

/-- What is wrong with the trailer behind some output. -/
def trailerFault? (output : List UInt8) : List UInt8 → Option Fault
  | a :: b :: c :: d :: e :: f :: g :: h :: _ =>
    if littleEndian32 a b c d = (crc32 output).toNat ∧
        littleEndian32 e f g h = output.length % 4294967296 then none
    else some .wrongChecksum
  | _ => some (.stopped .truncated)

/-- Output is handed on in windows of this size, each when the output goes on behind it. -/
def windowSize : Nat := 32768

/-- A file is read in pieces of this size. -/
def pieceSize : Nat := 32768

/-- All that the first part of a file decompresses to. -/
def outputOf (part : List UInt8) : List UInt8 :=
  match skipHeader part with
  | .error _ => []
  | .ok data => (inflate data).output.toList

/-- The number of bytes that the first read of the output brings: reading goes on to the next piece of the file
as long as there is no output. -/
def firstRead (file : List UInt8) : Nat :=
  let outputs := (List.range (file.length / pieceSize + 1)).findSome? fun k =>
    let output := outputOf (file.take ((k + 1) * pieceSize))
    if output = [] then none else some output.length
  outputs.getD 0

/-- The decompressed bytes of the first member. Reading fails at once if the header is wrong, behind the
whole output if the data ends too soon or the trailer does not fit, and behind the last window of output that
more output followed if the data is corrupt. -/
def source (file : List UInt8) : ByteSource :=
  match skipHeader file with
  | .error fault => { bytes := [], failure? := some fault.message }
  | .ok data =>
    let inflation := inflate data
    let output := inflation.output.toList
    let first := firstRead file
    match inflation.next with
    | .ok rest => ⟨output, first, (trailerFault? output rest.bytes).map Fault.message⟩
    | .error .truncated => ⟨output, first, some (Fault.stopped .truncated).message⟩
    | .error .corrupt =>
      ⟨output.take ((output.length - 1) / windowSize * windowSize), first, some (Fault.stopped .corrupt).message⟩

end AddressAtlas.Gzip

/-!
# UTF-8

Bytes are read as characters in the shortest form only, without surrogates and up to U+10FFFF. Where they
are no text, the number of bytes in front that are text is returned.
-/

namespace AddressAtlas.Text

/-- The last six bits of a byte that continues a character. -/
def continuation? (b : UInt8) : Option Nat :=
  if b.toNat / 64 = 2 then some (b.toNat % 64) else none

/-- A character of a code point that needs at least this many bytes. -/
def ofCodePoint? (least n : Nat) : Option Char :=
  if h : n.isValidChar then
    if least ≤ n then some (Char.ofNatAux n h) else none
  else
    none

/-- The character at the start of some bytes. -/
def leadingChar? : List UInt8 → Option Char
  | [] => none
  | a :: rest =>
    let n := a.toNat
    if n < 0x80 then
      ofCodePoint? 0 n
    else if n / 32 = 6 then
      match rest with
      | b :: _ => do
        let b ← continuation? b
        ofCodePoint? 0x80 (n % 32 * 64 + b)
      | _ => none
    else if n / 16 = 14 then
      match rest with
      | b :: c :: _ => do
        let b ← continuation? b
        let c ← continuation? c
        ofCodePoint? 0x800 ((n % 16 * 64 + b) * 64 + c)
      | _ => none
    else if n / 8 = 30 then
      match rest with
      | b :: c :: d :: _ => do
        let b ← continuation? b
        let c ← continuation? c
        let d ← continuation? d
        ofCodePoint? 0x10000 (((n % 8 * 64 + b) * 64 + c) * 64 + d)
      | _ => none
    else
      none

/-- Reads characters behind `before`, which are kept in reverse; `skip` bytes still belong to the last of
them, and `valid` bytes have been read as text. -/
def decodeFrom (before : List Char) (valid skip : Nat) : List UInt8 → Except Nat (List Char)
  | [] => .ok before.reverse
  | b :: rest =>
    match skip with
    | skip + 1 => decodeFrom before (valid + 1) skip rest
    | 0 =>
      match leadingChar? (b :: rest) with
      | some c => decodeFrom (c :: before) (valid + 1) (c.utf8Size - 1) rest
      | none => .error valid

/-- The text that bytes stand for, or the number of bytes before the first that is none. -/
def decodeUtf8 (bytes : List UInt8) : Except Nat String :=
  (decodeFrom [] 0 0 bytes).map String.ofList

end AddressAtlas.Text

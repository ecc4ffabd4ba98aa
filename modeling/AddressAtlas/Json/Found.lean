import AddressAtlas.Binary64.Shortest
import AddressAtlas.Json.Number
import AddressAtlas.Json.StringLiteral
import AddressAtlas.Text.Quoted

/-!
# What a JSON text holds

A value of the wrong kind is named in a message: a scalar is read to its end and shown, an array or an
object is recognised by its first character.
-/

namespace AddressAtlas.Json

/-- A value as a message names it. -/
inductive Found where
  | null
  | boolean (value : Bool)
  | number (value : Number)
  | text (value : String)
  | sequence
  | map
  deriving DecidableEq

def describeInteger (n : Int) : String :=
  "integer `" ++ String.ofList (Text.signedDigits n) ++ "`"

/-- Describes a value by its kind and, for a scalar, its text. -/
def Found.describe : Found → String
  | null => "null"
  | boolean value => "boolean `" ++ (if value then "true" else "false") ++ "`"
  | number (.integer n) => describeInteger n
  | number (.floating x) => "floating point `" ++ (Binary64.ofFloat x).text ++ "`"
  | text value => "string " ++ Text.quoted value
  | sequence => "sequence"
  | map => "map"

/-- Recognises the value at the start of a text. -/
def readFound {δ : Type} : List Char → Reading δ Found
  | [] => .error .truncated
  | c :: rest =>
    match c with
    | 'n' => do
      let _ ← readWord "ull".toList rest
      return .null
    | 't' => do
      let _ ← readWord "rue".toList rest
      return .boolean true
    | 'f' => do
      let _ ← readWord "alse".toList rest
      return .boolean false
    | '"' => do
      let (text, _) ← readString rest
      return .text (String.ofList text)
    | '[' => return .sequence
    | '\x7b' => return .map
    | _ =>
      if c = '-' ∨ c.isDigit then do
        let (number, _) ← readNumber (c :: rest)
        return .number number
      else
        .error .malformed

end AddressAtlas.Json

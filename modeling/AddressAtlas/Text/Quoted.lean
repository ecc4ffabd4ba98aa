import AddressAtlas.Text.Unprintable

/-!
# Quoted text

Text between double quotes for use in messages. Quotes, backslashes and the common controls have short
escapes; any other unprintable character is written by its code point; all else stands for itself.
-/

namespace AddressAtlas.Text

/-- The lower-case hexadecimal digits of a number, the highest first. -/
def hexDigits (n : Nat) : List Char :=
  if n < 16 then [Nat.digitChar n] else hexDigits (n / 16) ++ [Nat.digitChar (n % 16)]

/-- A character as it stands between quotes. -/
def escaped (c : Char) : List Char :=
  match c with
  | '\x00' => ['\\', '0']
  | '\t' => ['\\', 't']
  | '\r' => ['\\', 'r']
  | '\n' => ['\\', 'n']
  | '\\' => ['\\', '\\']
  | '"' => ['\\', '"']
  | _ => if isUnprintable c then ['\\', 'u', '\x7b'] ++ hexDigits c.toNat ++ ['\x7d'] else [c]

def quoted (text : String) : String :=
  String.ofList ('"' :: text.toList.flatMap escaped ++ ['"'])

end AddressAtlas.Text

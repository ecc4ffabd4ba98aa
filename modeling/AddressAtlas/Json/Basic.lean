/-!
# Reading JSON text

Readers take the text still to come and return what they read together with the text behind it. They stop
at the first fault: the text ends too soon, it is not JSON, or what it says is refused.
-/

namespace AddressAtlas.Json

/-- Why reading stops; `δ` are the reasons for which well-formed text is refused. -/
inductive Fault (δ : Type) where
  /-- The text ends inside a value. -/
  | truncated
  /-- The text is not JSON. -/
  | malformed
  | refused (reason : δ)
  deriving DecidableEq, Repr

/-- The result of a reader, or the fault that stopped it. -/
abbrev Reading (δ : Type) := Except (Fault δ)

/-- A reading that goes on with what another one yields ends well only if both do. -/
theorem bind_eq_ok {ε α β : Type} {x : Except ε α} {f : α → Except ε β} {b : β} :
    x >>= f = .ok b ↔ ∃ a, x = .ok a ∧ f a = .ok b := by
  constructor
  · intro h
    cases x with
    | error fault => cases h
    | ok a => exact ⟨a, rfl, h⟩
  · rintro ⟨a, rfl, h⟩
    exact h

theorem ok_bind {ε α β : Type} (a : α) (f : α → Except ε β) : .ok a >>= f = f a :=
  rfl

/-- Blank, tabulator, line feed and carriage return may stand between tokens. -/
def isBlank (c : Char) : Bool :=
  c = ' ' || c = '\t' || c = '\n' || c = '\r'

/-- Drops the blanks in front of a text. -/
def skipBlanks (text : List Char) : List Char :=
  text.dropWhile isBlank

/-- Skips the rest of a word whose first letter has been seen. -/
def readWord {δ : Type} : List Char → List Char → Reading δ (List Char)
  | [], text => .ok text
  | _ :: _, [] => .error .truncated
  | expected :: word, c :: text => if c = expected then readWord word text else .error .malformed

end AddressAtlas.Json

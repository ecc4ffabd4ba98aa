import AddressAtlas.Key
import AddressAtlas.Text.Decimal

/-!
# Entries

An entry gives a value to a closed range of keys. A list of entries is ascending when each one starts
after the end of the one before it; nothing is asked of a range whose start lies after its own end.
-/

namespace AddressAtlas

/-- The keys from `start` to `stop`, both included, and their value. -/
structure Entry (w : Width) where
  start : Key w
  stop : Key w
  value : Int32
  deriving DecidableEq, Repr

/-- An entry that does not start after the end of the last one stored. -/
structure Violation (w : Width) where
  start : Key w
  stop : Key w
  previousStart : Key w
  previousStop : Key w
  deriving DecidableEq, Repr

variable {w : Width}

/-- Names both ranges of a violation. -/
def Violation.message (v : Violation w) : String :=
  let range (start stop : Key w) : String := Text.decimal start.toNat ++ "-" ++ Text.decimal stop.toNat
  "range " ++ range v.start v.stop ++ " isn't greater than previous max range " ++
    range v.previousStart v.previousStop

namespace Entry

/-- The storage words of both keys. -/
def words (e : Entry w) : List (Word w) :=
  e.start.toWords ++ e.stop.toWords

def Contains (e : Entry w) (key : Key w) : Prop :=
  e.start ≤ key ∧ key ≤ e.stop

instance (e : Entry w) (key : Key w) : Decidable (e.Contains key) :=
  inferInstanceAs (Decidable (_ ∧ _))

@[simp] theorem length_words (e : Entry w) : e.words.length = 2 * w.wordsPerKey := by
  simp [words, Nat.two_mul]

/-- Each entry starts after the end of the one before it. -/
def Ascending : List (Entry w) → Prop
  | a :: b :: rest => a.stop < b.start ∧ Ascending (b :: rest)
  | _ => True

theorem Ascending.concat {es : List (Entry w)} {e : Entry w} (hes : Ascending es)
    (he : ∀ last ∈ es.getLast?, last.stop < e.start) : Ascending (es ++ [e]) := by
  induction es with
  | nil => trivial
  | cons a rest ih =>
    cases rest with
    | nil => exact ⟨he a rfl, trivial⟩
    | cons b rest => exact ⟨hes.1, ih hes.2 fun last h => he last (by simpa using h)⟩

end Entry

end AddressAtlas

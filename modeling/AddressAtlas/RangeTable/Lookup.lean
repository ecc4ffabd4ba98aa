import AddressAtlas.RangeTable.Basic
import AddressAtlas.Search

/-!
# Lookups

A lookup searches the stored boundary words for a key and joins words only for an entry it hands out.
-/

namespace AddressAtlas.RangeTable

variable {w : Width}

/-- The index of the entry whose range contains the key. -/
def indexOf? (t : RangeTable w) (key : Key w) : Option Nat :=
  Search.enclosing? (2 * t.size) fun i => Key.compareStored (boundaryWords t.words i) key

def find? (t : RangeTable w) (key : Key w) : Option Int32 :=
  t.indexOf? key >>= (t.values[·]?)

def findEntry? (t : RangeTable w) (key : Key w) : Option (Entry w) :=
  t.indexOf? key >>= t.entry?

def contains (t : RangeTable w) (key : Key w) : Bool :=
  (t.indexOf? key).isSome

end AddressAtlas.RangeTable

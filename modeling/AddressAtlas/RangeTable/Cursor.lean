import AddressAtlas.RangeTable.Basic

/-!
# Cursors

A cursor walks over the entries of a table from both ends. Everything between its two marks is still
to come, so the two directions never hand out an entry twice.
-/

namespace AddressAtlas

variable {w : Width}

/-- The entries of a table from index `front` up to, but not including, index `back`. -/
structure Cursor (w : Width) where
  table : RangeTable w
  front : Nat
  back : Nat
  front_le_back : front ≤ back
  back_le_size : back ≤ table.size

def RangeTable.cursor (t : RangeTable w) : Cursor w where
  table := t
  front := 0
  back := t.size
  front_le_back := Nat.zero_le _
  back_le_size := Nat.le_refl _

namespace Cursor

def remaining (c : Cursor w) : Nat :=
  c.back - c.front

/-- A lower and an upper bound for the number of entries still to come. -/
def sizeHint (c : Cursor w) : Nat × Option Nat :=
  (c.remaining, some c.remaining)

def next (c : Cursor w) : Option (Entry w) × Cursor w :=
  if h : c.front = c.back then
    (none, c)
  else
    (c.table.entry? c.front,
      { c with front := c.front + 1, front_le_back := by have := c.front_le_back; omega })

def nextBack (c : Cursor w) : Option (Entry w) × Cursor w :=
  if h : c.front = c.back then
    (none, c)
  else
    (c.table.entry? (c.back - 1),
      { c with
        back := c.back - 1
        front_le_back := by have := c.front_le_back; omega
        back_le_size := by have := c.back_le_size; omega })

theorem remaining_next (c : Cursor w) {e : Entry w} {c' : Cursor w} (h : c.next = (some e, c')) :
    c'.remaining + 1 = c.remaining := by
  have := c.front_le_back
  unfold next at h
  split at h
  · cases h
  · rw [← (Prod.mk.inj h).2]
    simp only [remaining]
    omega

theorem remaining_nextBack (c : Cursor w) {e : Entry w} {c' : Cursor w}
    (h : c.nextBack = (some e, c')) : c'.remaining + 1 = c.remaining := by
  have := c.front_le_back
  unfold nextBack at h
  split at h
  · cases h
  · rw [← (Prod.mk.inj h).2]
    simp only [remaining]
    omega

/-- Hands out entries from the front until none is left. -/
def drain (c : Cursor w) : List (Entry w) :=
  match _h : c.next with
  | (some e, rest) => e :: rest.drain
  | (none, _) => []
  termination_by c.remaining
  decreasing_by
    have := c.remaining_next _h
    omega

/-- Hands out entries from the back until none is left. -/
def drainBack (c : Cursor w) : List (Entry w) :=
  match _h : c.nextBack with
  | (some e, rest) => e :: rest.drainBack
  | (none, _) => []
  termination_by c.remaining
  decreasing_by
    have := c.remaining_nextBack _h
    omega

end Cursor

end AddressAtlas

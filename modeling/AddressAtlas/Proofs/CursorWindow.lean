import AddressAtlas.RangeTable.Cursor
import Mathlib.Data.List.Basic

/-!
# Cursors as windows

The `window` of a cursor is the list of the entries that are still to come. A step from the front takes
its head off and a step from the back its last element, so that what a cursor hands out depends on the
window alone.
-/

namespace AddressAtlas.Cursor

variable {w : Width}

def window (c : Cursor w) : List (Entry w) :=
  (c.table.entries.drop c.front).take (c.back - c.front)

@[simp] lemma window_cursor (t : RangeTable w) : t.cursor.window = t.entries := by
  exact List.take_of_length_le (Nat.le_of_eq t.length_entries)

lemma length_window (c : Cursor w) : c.window.length = c.remaining := by
  have := c.back_le_size
  unfold window remaining
  rw [List.length_take, List.length_drop, RangeTable.length_entries]
  omega

lemma getElem?_window (c : Cursor w) {i : Nat} (h : c.front + i < c.back) :
    c.window[i]? = c.table.entry? (c.front + i) := by
  have hi : i < c.back - c.front := by omega
  unfold window
  rw [List.getElem?_take_of_lt hi, List.getElem?_drop, RangeTable.getElem?_entries]

lemma window_eq_nil_iff (c : Cursor w) : c.window = [] ↔ c.front = c.back := by
  have := c.front_le_back
  rw [← List.length_eq_zero_iff, length_window, remaining]
  omega

lemma next_fst (c : Cursor w) : c.next.1 = c.window.head? := by
  unfold next
  split
  · rename_i h
    rw [c.window_eq_nil_iff.mpr h]
    rfl
  · rename_i h
    have := c.front_le_back
    rw [List.head?_eq_getElem?, c.getElem?_window (by omega)]
    rfl

lemma window_next (c : Cursor w) : c.next.2.window = c.window.tail := by
  unfold next
  split
  · rename_i h
    rw [c.window_eq_nil_iff.mpr h]
    rfl
  · have hcount : c.back - (c.front + 1) = c.back - c.front - 1 := by omega
    simp only [window]
    rw [← List.drop_one, List.drop_take, List.drop_drop, hcount]

lemma nextBack_fst (c : Cursor w) : c.nextBack.1 = c.window.getLast? := by
  unfold nextBack
  split
  · rename_i h
    rw [c.window_eq_nil_iff.mpr h]
    rfl
  · have := c.front_le_back
    have hlast : c.front + (c.remaining - 1) = c.back - 1 := by
      unfold remaining
      omega
    rw [List.getLast?_eq_getElem?, length_window, c.getElem?_window (by omega), hlast]

lemma window_nextBack (c : Cursor w) : c.nextBack.2.window = c.window.dropLast := by
  unfold nextBack
  split
  · rename_i h
    rw [c.window_eq_nil_iff.mpr h]
    rfl
  · have := c.back_le_size
    rw [List.dropLast_eq_take, length_window]
    simp only [window, remaining]
    rw [List.take_take, Nat.min_eq_left (by omega)]
    congr 1
    omega

/-- Draining a cursor from the front yields its window. -/
theorem drain_eq (c : Cursor w) : c.drain = c.window := by
  induction hn : c.remaining using Nat.strongRecOn generalizing c with
  | _ n ih =>
    have hfst := c.next_fst
    have hwindow := c.window_next
    rw [drain]
    split
    · rename_i e rest h
      have hremaining := c.remaining_next h
      rw [h] at hfst hwindow
      rw [ih rest.remaining (by omega) rest rfl, hwindow]
      exact List.cons_head?_tail hfst.symm
    · rename_i rest h
      rw [h] at hfst
      exact (List.head?_eq_none_iff.mp hfst.symm).symm

/-- Draining a cursor from the back yields its window in reverse. -/
theorem drainBack_eq (c : Cursor w) : c.drainBack = c.window.reverse := by
  induction hn : c.remaining using Nat.strongRecOn generalizing c with
  | _ n ih =>
    have hfst := c.nextBack_fst
    have hwindow := c.window_nextBack
    rw [drainBack]
    split
    · rename_i e rest h
      have hremaining := c.remaining_nextBack h
      rw [h] at hfst hwindow
      rw [ih rest.remaining (by omega) rest rfl, hwindow]
      obtain ⟨before, hbefore⟩ := List.getLast?_eq_some_iff.mp hfst.symm
      rw [hbefore, List.dropLast_concat, List.reverse_concat]
    · rename_i rest h
      rw [h] at hfst
      rw [List.getLast?_eq_none_iff.mp hfst.symm, List.reverse_nil]

/-- What can be asked of a cursor. -/
inductive Call where
  | next
  | nextBack
  | remaining
  deriving DecidableEq, Repr

inductive Reply (w : Width) where
  | entry (e : Option (Entry w))
  | remaining (n : Nat)
  deriving DecidableEq, Repr

/-- The replies of a cursor to one call after the other. -/
def replies (c : Cursor w) : List Call → List (Reply w)
  | [] => []
  | .next :: calls => .entry c.next.1 :: c.next.2.replies calls
  | .nextBack :: calls => .entry c.nextBack.1 :: c.nextBack.2.replies calls
  | .remaining :: calls => .remaining c.remaining :: c.replies calls

/-- Cursors with the same window reply alike. -/
theorem replies_congr {c d : Cursor w} (h : c.window = d.window) (calls : List Call) :
    c.replies calls = d.replies calls := by
  induction calls generalizing c d with
  | nil => rfl
  | cons call calls ih =>
    cases call with
    | next =>
      have hrest : c.next.2.window = d.next.2.window := by rw [window_next, window_next, h]
      simp only [replies, next_fst, h, ih hrest]
    | nextBack =>
      have hrest : c.nextBack.2.window = d.nextBack.2.window := by rw [window_nextBack, window_nextBack, h]
      simp only [replies, nextBack_fst, h, ih hrest]
    | remaining => simp only [replies, ← length_window, h, ih h]

end AddressAtlas.Cursor

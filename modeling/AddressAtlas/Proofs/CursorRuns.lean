import AddressAtlas.Proofs.CursorWindow

/-!
# Runs of a cursor

A walk is a cursor with all that it has handed out. Whatever is called, what came from the front, what is
still to come and what came from the back make up the entries of the table, in this order; all that a
cursor answers follows from it.
-/

namespace AddressAtlas.Cursor

variable {w : Width}

/-- What can be called while entries are handed out. -/
inductive Request where
  | next
  | nextBack
  | length
  | sizeHint
  deriving DecidableEq, Repr

/-- A cursor, and the entries that it has handed out from either end, the first in front. -/
structure Walk (w : Width) where
  cursor : Cursor w
  fronts : List (Entry w)
  backs : List (Entry w)

namespace Walk

def start (t : RangeTable w) : Walk w :=
  ⟨t.cursor, [], []⟩

/-- A call; asking how much is left changes nothing. -/
def call (s : Walk w) : Request → Walk w
  | .next => ⟨s.cursor.next.2, s.fronts ++ s.cursor.next.1.toList, s.backs⟩
  | .nextBack => ⟨s.cursor.nextBack.2, s.fronts, s.backs ++ s.cursor.nextBack.1.toList⟩
  | .length | .sizeHint => s

def calls (s : Walk w) (requests : List Request) : Walk w :=
  requests.foldl call s

def handedOut (s : Walk w) : ℕ :=
  s.fronts.length + s.backs.length

/-- The entries of a table, divided by where they are. -/
structure Divides (s : Walk w) (t : RangeTable w) : Prop where
  table : s.cursor.table = t
  front : s.cursor.front = s.fronts.length
  entries : s.fronts ++ (s.cursor.window ++ s.backs.reverse) = t.entries

variable {s : Walk w} {t : RangeTable w}

lemma divides_start (t : RangeTable w) : (start t).Divides t where
  table := rfl
  front := rfl
  entries := by
    change [] ++ (t.cursor.window ++ [].reverse) = t.entries
    rw [window_cursor, List.reverse_nil, List.append_nil, List.nil_append]

lemma table_next (c : Cursor w) : c.next.2.table = c.table := by
  unfold next
  split
  · rfl
  · rfl

lemma table_nextBack (c : Cursor w) : c.nextBack.2.table = c.table := by
  unfold nextBack
  split
  · rfl
  · rfl

lemma front_next (c : Cursor w) : c.next.2.front = c.front + c.next.1.toList.length := by
  by_cases h : c.front = c.back
  · have hnone : c.next = (none, c) := dif_pos h
    rw [hnone]
    rfl
  · have hfront : c.next.2.front = c.front + 1 := by
      unfold next
      rw [dif_neg h]
    have hne : c.window ≠ [] := mt c.window_eq_nil_iff.mp h
    obtain ⟨e, rest, hwindow⟩ := List.exists_cons_of_ne_nil hne
    rw [hfront, next_fst, hwindow]
    rfl

lemma front_nextBack (c : Cursor w) : c.nextBack.2.front = c.front := by
  unfold nextBack
  split
  · rfl
  · rfl

lemma Divides.call (h : s.Divides t) (request : Request) : (s.call request).Divides t := by
  cases request with
  | next =>
    refine ⟨(table_next s.cursor).trans h.table, ?_, ?_⟩
    · change s.cursor.next.2.front = (s.fronts ++ s.cursor.next.1.toList).length
      rw [front_next, h.front, List.length_append]
    · change (s.fronts ++ s.cursor.next.1.toList) ++ (s.cursor.next.2.window ++ s.backs.reverse) = t.entries
      rw [next_fst, window_next, ← h.entries, List.append_assoc]
      cases s.cursor.window with
      | nil => rfl
      | cons e rest => rfl
  | nextBack =>
    refine ⟨(table_nextBack s.cursor).trans h.table, ?_, ?_⟩
    · exact (front_nextBack s.cursor).trans h.front
    · change s.fronts ++ (s.cursor.nextBack.2.window ++ (s.backs ++ s.cursor.nextBack.1.toList).reverse) =
        t.entries
      rw [nextBack_fst, window_nextBack, ← h.entries, List.reverse_append]
      cases hlast : s.cursor.window.getLast? with
      | none =>
        rw [List.getLast?_eq_none_iff.mp hlast]
        rfl
      | some e =>
        obtain ⟨before, hbefore⟩ := List.getLast?_eq_some_iff.mp hlast
        rw [hbefore, List.dropLast_concat, List.append_assoc]
        rfl
  | length => exact h
  | sizeHint => exact h

lemma Divides.calls (h : s.Divides t) (requests : List Request) : (s.calls requests).Divides t := by
  induction requests generalizing s with
  | nil => exact h
  | cons request requests ih => exact ih (h.call request)

lemma Divides.handedOut_add_remaining (h : s.Divides t) : s.handedOut + s.cursor.remaining = t.size := by
  have hlength := congrArg List.length h.entries
  rw [List.length_append, List.length_append, List.length_reverse, length_window,
    RangeTable.length_entries] at hlength
  unfold handedOut
  omega

lemma Divides.reverse_entries (h : s.Divides t) :
    s.backs ++ (s.cursor.window.reverse ++ s.fronts.reverse) = t.entries.reverse := by
  rw [← h.entries, List.reverse_append, List.reverse_append, List.reverse_reverse, List.append_assoc]

lemma Divides.window_eq_nil_iff (h : s.Divides t) : s.cursor.window = [] ↔ s.handedOut = t.size := by
  have hsum := h.handedOut_add_remaining
  rw [← List.length_eq_zero_iff, length_window]
  omega

lemma Divides.next_eq_none_iff (h : s.Divides t) : s.cursor.next.1 = none ↔ s.handedOut = t.size := by
  rw [next_fst, List.head?_eq_none_iff, h.window_eq_nil_iff]

lemma Divides.nextBack_eq_none_iff (h : s.Divides t) :
    s.cursor.nextBack.1 = none ↔ s.handedOut = t.size := by
  rw [nextBack_fst, List.getLast?_eq_none_iff, h.window_eq_nil_iff]

lemma Divides.next_eq (h : s.Divides t) (hleft : s.handedOut ≠ t.size) :
    s.cursor.next.1 = t.entries[s.fronts.length]? := by
  have hne : s.cursor.window ≠ [] := mt h.window_eq_nil_iff.mp hleft
  rw [next_fst, ← h.entries, List.getElem?_append_right (Nat.le_refl _), Nat.sub_self,
    List.getElem?_append_left (List.length_pos_of_ne_nil hne), List.head?_eq_getElem?]

lemma Divides.nextBack_eq (h : s.Divides t) (hleft : s.handedOut ≠ t.size) :
    s.cursor.nextBack.1 = t.entries.reverse[s.backs.length]? := by
  have hne : s.cursor.window.reverse ≠ [] := by
    rw [List.reverse_ne_nil_iff]
    exact mt h.window_eq_nil_iff.mp hleft
  rw [nextBack_fst, ← h.reverse_entries, List.getElem?_append_right (Nat.le_refl _), Nat.sub_self,
    List.getElem?_append_left (List.length_pos_of_ne_nil hne), ← List.head?_eq_getElem?, List.head?_reverse]

/-- Nothing comes behind the last entry. -/
lemma Divides.calls_of_exhausted (h : s.Divides t) (hall : s.handedOut = t.size) (requests : List Request) :
    (s.calls requests).handedOut = t.size := by
  induction requests generalizing s with
  | nil => exact hall
  | cons request requests ih =>
    have hsame : (s.call request).handedOut = s.handedOut := by
      have hnext := h.next_eq_none_iff.mpr hall
      have hnextBack := h.nextBack_eq_none_iff.mpr hall
      cases request with
      | next => simp [handedOut, Walk.call, hnext]
      | nextBack => simp [handedOut, Walk.call, hnextBack]
      | length => rfl
      | sizeHint => rfl
    exact ih (h.call request) (hsame.trans hall)

/-- The value and both boundaries of an entry are stored. -/
def Stored (t : RangeTable w) (i : ℕ) : Prop :=
  i < t.values.size ∧ (2 * i + 1 + 1) * w.wordsPerKey ≤ t.words.size

lemma stored_of_lt {i : ℕ} (hi : i < t.size) : Stored t i := by
  have hwords : t.words.size = 2 * t.values.size * w.wordsPerKey := by
    rw [t.size_words, ← Nat.mul_assoc, Nat.mul_comm t.values.size 2]
  refine ⟨hi, ?_⟩
  rw [hwords]
  have hi' : i < t.values.size := hi
  exact Nat.mul_le_mul_right _ (by omega)

/-- What has been handed out, and what is answered next. -/
structure Exact (s : Walk w) (t : RangeTable w) : Prop where
  table : s.cursor.table = t
  front : s.cursor.front = s.fronts.length
  back : s.cursor.back + s.backs.length = t.size
  fronts : s.fronts = t.entries.take s.fronts.length
  backs : s.backs = t.entries.reverse.take s.backs.length
  once : s.fronts ++ (s.cursor.window ++ s.backs.reverse) = t.entries
  all : s.handedOut = t.size → s.fronts ++ s.backs.reverse = t.entries
  next : s.handedOut ≠ t.size → s.cursor.next.1 = t.entries[s.fronts.length]?
  nextBack : s.handedOut ≠ t.size → s.cursor.nextBack.1 = t.entries.reverse[s.backs.length]?
  next_none : s.cursor.next.1 = none ↔ s.handedOut = t.size
  nextBack_none : s.cursor.nextBack.1 = none ↔ s.handedOut = t.size
  forever : s.handedOut = t.size → ∀ more, (s.calls more).handedOut = t.size ∧
    (s.calls more).cursor.next.1 = none ∧ (s.calls more).cursor.nextBack.1 = none
  handedOut_le : s.handedOut ≤ t.size
  length : s.cursor.remaining = t.size - s.handedOut
  sizeHint : s.cursor.sizeHint = (t.size - s.handedOut, some (t.size - s.handedOut))
  marks : s.cursor.front ≤ s.cursor.back
  /-- Both entries that may be handed out next are stored. -/
  stored : s.cursor.front ≠ s.cursor.back → Stored t s.cursor.front ∧ Stored t (s.cursor.back - 1)

lemma Divides.exact (h : s.Divides t) : s.Exact t where
  table := h.table
  front := h.front
  back := by
    have hsum := h.handedOut_add_remaining
    have hfront := h.front
    have hmarks := s.cursor.front_le_back
    unfold handedOut remaining at hsum
    omega
  fronts := by
    rw [← h.entries, List.take_left]
  backs := by
    rw [← h.reverse_entries, List.take_left]
  once := h.entries
  all := by
    intro hall
    have hentries := h.entries
    rwa [h.window_eq_nil_iff.mpr hall, List.nil_append] at hentries
  next := h.next_eq
  nextBack := h.nextBack_eq
  next_none := h.next_eq_none_iff
  nextBack_none := h.nextBack_eq_none_iff
  forever := by
    intro hall more
    have hmore := h.calls_of_exhausted hall more
    exact ⟨hmore, (h.calls more).next_eq_none_iff.mpr hmore, (h.calls more).nextBack_eq_none_iff.mpr hmore⟩
  handedOut_le := by
    have hsum := h.handedOut_add_remaining
    omega
  length := by
    have hsum := h.handedOut_add_remaining
    omega
  sizeHint := by
    have hremaining : s.cursor.remaining = t.size - s.handedOut := by
      have hsum := h.handedOut_add_remaining
      omega
    rw [Cursor.sizeHint, hremaining]
  marks := s.cursor.front_le_back
  stored := by
    intro hne
    have hfront := s.cursor.front_le_back
    have hback := s.cursor.back_le_size
    rw [h.table] at hback
    exact ⟨stored_of_lt (by omega), stored_of_lt (by omega)⟩

end Walk

/-- Every run of calls hands out the entries of the table, each once, from the ends at which it is asked. -/
theorem calls_exact (t : RangeTable w) :
    (∀ requests, ((Walk.start t).calls requests).Exact t) ∧
      t.cursor.drain = t.entries ∧ t.cursor.drain = t.cursor.drainBack.reverse := by
  refine ⟨fun requests => ((Walk.divides_start t).calls requests).exact, ?_, ?_⟩
  · rw [drain_eq, window_cursor]
  · rw [drain_eq, drainBack_eq, List.reverse_reverse]

end AddressAtlas.Cursor

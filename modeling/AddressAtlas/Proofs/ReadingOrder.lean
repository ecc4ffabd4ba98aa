import AddressAtlas.Proofs.Refusals
import AddressAtlas.Proofs.Truncation

/-!
# The first fault in reading order

An entry is inserted as soon as its closing bracket has been read. So the first overlap among the entries of
a text is reported whatever stands behind it, and it is not reported before the text has come that far.
-/

namespace AddressAtlas

open Entry Json Ledger Text

variable {w : Width} {es : List (Entry w)} {i : Nat} {a b : Entry w}

namespace Entry

lemma Overlap.take (h : Overlap es i a b) : Overlap (es.take (i + 2)) i a b where
  left := by
    rw [List.getElem?_take_of_lt (by omega)]
    exact h.left
  right := by
    rw [List.getElem?_take_of_lt (by omega)]
    exact h.right
  start_le_stop := h.start_le_stop

lemma Overlap.of_take {n : Nat} (h : Overlap (es.take n) i a b) : Overlap es i a b ∧ i + 1 < n := by
  have hlt : i + 1 < n := by
    have hlength := (List.getElem?_eq_some_iff.mp h.right).1
    rw [List.length_take] at hlength
    omega
  have hleft := h.left
  have hright := h.right
  rw [List.getElem?_take_of_lt (by omega)] at hleft hright
  exact ⟨⟨hleft, hright, h.start_le_stop⟩, hlt⟩

lemma ascending_take_of_first (hfirst : ∀ j < i, ∀ c d, ¬Overlap es j c d) {n : Nat} (hn : n < i + 2) :
    Ascending (es.take n) := by
  by_contra hdescends
  obtain ⟨j, c, d, hoverlap⟩ := exists_overlap_of_not_ascending hdescends
  obtain ⟨hall, hlt⟩ := hoverlap.of_take
  exact hfirst j (by omega) c d hall

end Entry

namespace RangeTable

/-- Whatever stands behind entries, these are read first. -/
lemma readItems_run_append {fuel : Nat} {isFirst : Bool} {s : List Char} (hs : Run isFirst (es.map SpellsEntry) s)
    (hfuel : es.length ≤ fuel) (more : List Char) : ∃ es', (readItems fuel isFirst (s ++ more)).1 = es ++ es' := by
  induction es generalizing fuel isFirst s with
  | nil => exact ⟨_, rfl⟩
  | cons e es ih =>
    obtain ⟨g, t, rest, rfl, hg, ht, hrest⟩ := hs
    obtain ⟨fuel, rfl⟩ : ∃ n, fuel = n + 1 := Nat.exists_eq_succ_of_ne_zero (Nat.ne_zero_of_lt hfuel)
    obtain ⟨es', hread⟩ := ih hrest (Nat.le_of_succ_le_succ hfuel)
    refine ⟨es', ?_⟩
    rw [List.append_assoc, List.append_assoc, readItems_cons fuel hg ht, hread, List.cons_append]

/-- A violation among entries is reported whatever stands behind them. -/
theorem result_decodeText_of_opensWith {text : List Char} {v : Violation w} (htext : OpensWith es text)
    (hv : firstViolation? [] es = some v) (more : List Char) :
    (decodeText (text ++ more)).result = .error (refusal v) := by
  obtain ⟨b, s, rfl, hb, hs⟩ := htext
  have hskip : skipBlanks (b ++ '[' :: s ++ more) = '[' :: (s ++ more) := by
    rw [List.append_assoc, List.cons_append, skipBlanks_append hb, skipBlanks_cons (by decide)]
  have hfuel : es.length ≤ (b ++ '[' :: s ++ more).length + 1 := by
    have hle := Items.length_le hs.items
    simp only [List.length_append, List.length_cons]
    omega
  obtain ⟨es', hread⟩ := readItems_run_append hs hfuel more
  have hall : firstViolation? [] (es ++ es') = some v := by
    rw [firstViolation?_append, hv, Option.some_or]
  rw [result_decodeText hskip, hread, (result_insertMany_vacant 0 _).2 v hall]
  rfl

/-- The first overlap is reported as soon as its second entry has been read, with blanks between the tokens
or without, and whatever follows. A text that breaks off before the closing bracket of that entry stops
short and reports no overlap. -/
theorem first_overlap_reported (h : Overlap es i a b) (hfirst : ∀ j < i, ∀ c d, ¬Overlap es j c d) :
    OpensWith (es.take (i + 2)) ('[' :: joined [','] ((es.take (i + 2)).map encodeEntry)) ∧
    ∀ text : String, OpensWith (es.take (i + 2)) text.toList →
      (∀ more : String, ∃ r : Refusal w, (decode (text ++ more)).result = .error (.refused r) ∧
        r.message = Violation.message ⟨b.start, b.stop, a.start, a.stop⟩) ∧
      ∀ cut rest : String, text = cut ++ rest → rest ≠ "" →
        (decode cut : Outcome (RangeTable w) _).result = .error .truncated ∧
          Event.apartFromRoom (decode cut : Outcome (RangeTable w) _).events = [] := by
  have hviolation : firstViolation? [] (es.take (i + 2)) = some ⟨b.start, b.stop, a.start, a.stop⟩ :=
    firstViolation?_nil_eq_some_iff.mpr
      ⟨i, a, b, h.take, fun j hj c d hother => hfirst j hj c d hother.of_take.1, rfl⟩
  refine ⟨opensWith_encodeEntries _, fun text htext => ⟨fun more => ?_, fun cut rest hcut hrest => ?_⟩⟩
  · refine ⟨.violation ⟨b.start, b.stop, a.start, a.stop⟩, ?_, rfl⟩
    rw [decode, String.toList_append]
    exact result_decodeText_of_opensWith htext hviolation more.toList
  · have hlist : cut.toList ++ rest.toList = text.toList := by
      rw [hcut, String.toList_append]
    have hne : cut.toList ≠ text.toList := by
      rw [← hlist, Ne, List.self_eq_append_right, String.toList_eq_nil_iff]
      exact hrest
    have hshort := stopsShort_of_initial htext ⟨rest.toList, hlist⟩ fun n hn => by
      have hlt := hn hne
      rw [List.length_take] at hlt
      rw [List.take_take, Nat.min_eq_left (by omega)]
      exact ascending_take_of_first hfirst (by omega)
    exact ⟨hshort.result, hshort.unrefused⟩

/-- Each of two neighbours in order, and a third one that starts on the last key of the second. -/
def touchingEntries : List (Entry .wide) :=
  [⟨1, 2, 0⟩, ⟨5, 9, -1⟩, ⟨9, 9, 2⟩]

theorem touchingEntries_before_garbage :
    Overlap touchingEntries 1 ⟨5, 9, -1⟩ ⟨9, 9, 2⟩ ∧ (∀ j < 1, ∀ c d, ¬Overlap touchingEntries j c d) ∧
    (∃ r : Refusal .wide, (decode ("[[1,2,0],[5,9,-1],[9,9,2]" ++ ",[8,oops")).result = .error (.refused r) ∧
      r.message = "range 9-9 isn't greater than previous max range 5-9") ∧
    (decode "[[1,2,0],[5,9,-1],[9,9,2" : Outcome (RangeTable .wide) _).result = .error .truncated := by
  have hoverlap : Overlap touchingEntries 1 ⟨5, 9, -1⟩ ⟨9, 9, 2⟩ := ⟨rfl, rfl, by decide⟩
  have hfirst : ∀ j < 1, ∀ c d, ¬Overlap touchingEntries j c d := by
    intro j hj c d h
    obtain rfl : j = 0 := by omega
    obtain rfl := Option.some.inj h.left
    obtain rfl := Option.some.inj h.right
    exact absurd h.start_le_stop (by decide)
  obtain ⟨hcompact, hreported⟩ := first_overlap_reported hoverlap hfirst
  have htext : "[[1,2,0],[5,9,-1],[9,9,2]".toList =
      '[' :: joined [','] ((touchingEntries.take 3).map encodeEntry) := by
    decide +kernel
  obtain ⟨hmore, hcut⟩ := hreported "[[1,2,0],[5,9,-1],[9,9,2]" (htext ▸ hcompact)
  obtain ⟨r, hr, hmessage⟩ := hmore ",[8,oops"
  refine ⟨hoverlap, hfirst, ⟨r, hr, hmessage.trans (by decide +kernel)⟩, ?_⟩
  exact (hcut "[[1,2,0],[5,9,-1],[9,9,2" "]" (by decide) (by decide)).1

end RangeTable

end AddressAtlas

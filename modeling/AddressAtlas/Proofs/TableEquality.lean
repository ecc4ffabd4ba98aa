import AddressAtlas.Proofs.Sessions
import AddressAtlas.Proofs.TableEncoding
import Mathlib.Tactic.TFAE

/-!
# Equal tables

Tables are equal when they hold the same entries, and the three texts of a table show its entries without
ambiguity: a number ends where no digit follows, so the mark of a range is never taken for a sign and the
sign of a value never for a mark. Equal tables serve every session alike and stay equal.
-/

namespace AddressAtlas

open Json Text

variable {w : Width}

namespace RangeTable

variable {c : Char} {mark : List Char}

lemma line_append_inj (hc : c.isDigit = false) {a b : Entry w} {rest rest' : List Char} (hrest : NoDigit rest)
    (hrest' : NoDigit rest') (h : line (c :: mark) a ++ rest = line (c :: mark) b ++ rest') :
    a = b ∧ rest = rest' := by
  have hmark : ∀ text, NoDigit (c :: text) := noDigit_cons hc
  have hcolon : ∀ text, NoDigit (':' :: text) := noDigit_cons rfl
  simp only [line, List.append_assoc, List.cons_append, List.nil_append] at h
  obtain ⟨hstart, h⟩ := (isNatural_digits _).append_inj (isNatural_digits _) (hmark _) (hmark _) h
  obtain ⟨hstop, h⟩ := (isNatural_digits _).append_inj (isNatural_digits _) (hcolon _) (hcolon _)
    (List.append_cancel_left (List.cons.inj h).2)
  obtain ⟨hvalue, htail⟩ := (isInteger_signedDigits _).append_inj (isInteger_signedDigits _) hrest hrest'
    (List.cons.inj (List.cons.inj h).2).2
  exact ⟨Entry.numbers_injective (Prod.ext hstart (Prod.ext hstop hvalue)), htail⟩

/-- What stands behind an entry of a listing: the entries that follow, each behind a comma, and the brace. -/
def listingRest (mark : List Char) (es : List (Entry w)) : List Char :=
  (es.map (line mark)).flatMap ([',', ' '] ++ ·) ++ ['\x7d']

lemma listing_cons (mark : List Char) (e : Entry w) (es : List (Entry w)) :
    listing mark (e :: es) = '\x7b' :: (line mark e ++ listingRest mark es) := by
  rw [listing, List.map_cons, joined_cons, listingRest, List.cons_append, List.append_assoc]

lemma listingRest_cons (mark : List Char) (e : Entry w) (es : List (Entry w)) :
    listingRest mark (e :: es) = ',' :: ' ' :: (line mark e ++ listingRest mark es) := by
  simp only [listingRest, List.map_cons, List.flatMap_cons, List.append_assoc, List.cons_append, List.nil_append]

lemma noDigit_listingRest (mark : List Char) (es : List (Entry w)) : NoDigit (listingRest mark es) := by
  cases es with
  | nil => exact noDigit_cons rfl []
  | cons e es =>
    rw [listingRest_cons]
    exact noDigit_cons rfl _

lemma listingRest_injective (hc : c.isDigit = false) :
    Function.Injective (listingRest (c :: mark) : List (Entry w) → List Char) := by
  intro es
  induction es with
  | nil =>
    intro es' h
    cases es' with
    | nil => rfl
    | cons b bs =>
      rw [listingRest_cons] at h
      cases h
  | cons a as ih =>
    intro es' h
    cases es' with
    | nil =>
      rw [listingRest_cons] at h
      cases h
    | cons b bs =>
      rw [listingRest_cons, listingRest_cons] at h
      obtain ⟨rfl, hrest⟩ := line_append_inj hc (noDigit_listingRest _ as)
        (noDigit_listingRest _ bs) (List.cons.inj (List.cons.inj h).2).2
      rw [ih hrest]

/-- A listing shows its entries, whatever mark stands in a range, as long as the mark does not start with a
digit. -/
theorem listing_injective (hc : c.isDigit = false) :
    Function.Injective (listing (c :: mark) : List (Entry w) → List Char) := by
  have hopening : ∀ (e : Entry w) (es : List (Entry w)) (tail : List Char),
      line (c :: mark) e ++ listingRest (c :: mark) es ≠ '\x7d' :: tail := by
    intro e es tail h
    rw [line, List.append_assoc, List.append_assoc, List.append_assoc, List.append_assoc] at h
    obtain ⟨d, t, hdigits, hd⟩ := (isNatural_digits e.start.toNat).exists_cons
    rw [hdigits] at h
    obtain rfl : d = '\x7d' := (List.cons.inj h).1
    cases hd
  intro es es' h
  cases es with
  | nil =>
    cases es' with
    | nil => rfl
    | cons b bs =>
      rw [listing_cons] at h
      exact absurd (List.cons.inj h).2.symm (hopening b bs [])
  | cons a as =>
    cases es' with
    | nil =>
      rw [listing_cons] at h
      exact absurd (List.cons.inj h).2 (hopening a as [])
    | cons b bs =>
      rw [listing_cons, listing_cons] at h
      apply listingRest_injective hc
      rw [listingRest_cons, listingRest_cons, (List.cons.inj h).2]

example : listing ['-'] [(⟨1, 5, -3⟩ : Entry .narrow), ⟨9, 7, 0⟩] = "\x7b1-5: -3, 9-7: 0\x7d".toList := by
  cbv

theorem encodeEntries_injective : Function.Injective (encodeEntries : List (Entry w) → List Char) := by
  intro es es' h
  have hes := spelled?_eq_some_iff.mpr (spellsEntries_encodeEntries es)
  rw [h, spelled?_eq_some_iff.mpr (spellsEntries_encodeEntries es')] at hes
  exact (Option.some.inj hes).symm

variable {s t : RangeTable w}

lemma display_eq_iff : s.display = t.display ↔ s.entries = t.entries := by
  rw [display, display, String.ofList_inj]
  exact (listing_injective rfl).eq_iff

lemma describe_eq_iff : s.describe = t.describe ↔ s.entries = t.entries := by
  rw [describe, describe, String.ofList_inj]
  exact (listing_injective rfl).eq_iff

lemma encode_eq_iff : s.encode = t.encode ↔ s.entries = t.entries := by
  rw [encode, encode, String.ofList_inj]
  exact encodeEntries_injective.eq_iff

lemma drain_eq_iff :
    s.size = t.size ∧ s.cursor.drain = t.cursor.drain ↔ s.entries = t.entries := by
  rw [Cursor.drain_eq, Cursor.drain_eq, Cursor.window_cursor, Cursor.window_cursor]
  apply and_iff_right_of_imp
  intro h
  rw [← length_entries, ← length_entries, h]

/-- The tables are equal, either way round; they hold the same entries; their cursors hand out the same
entries one by one; each of their three texts is the same. -/
theorem tfae_equal (s t : RangeTable w) :
    List.TFAE [(s == t) = true, (t == s) = true, s.entries = t.entries,
      s.size = t.size ∧ s.cursor.drain = t.cursor.drain, s.display = t.display, s.describe = t.describe,
      s.encode = t.encode] := by
  tfae_have 1 ↔ 3 := beq_iff_entries_eq
  tfae_have 2 ↔ 3 := beq_iff_entries_eq.trans eq_comm
  tfae_have 4 ↔ 3 := drain_eq_iff
  tfae_have 5 ↔ 3 := display_eq_iff
  tfae_have 6 ↔ 3 := describe_eq_iff
  tfae_have 7 ↔ 3 := encode_eq_iff
  tfae_finish

theorem equivalence_beq : Equivalence fun s t : RangeTable w => (s == t) = true where
  refl := fun _ => beq_iff_entries_eq.mpr rfl
  symm := fun h => beq_iff_entries_eq.mpr (beq_iff_entries_eq.mp h).symm
  trans := fun h h' => beq_iff_entries_eq.mpr ((beq_iff_entries_eq.mp h).trans (beq_iff_entries_eq.mp h'))

end RangeTable

open RangeTable

/-- The same steps show the same of both tables and leave equal tables, which answer any further request
alike. -/
structure Session.Agrees (s t : RangeTable w) (p : Session w) : Prop where
  answers : p.answers s = p.answers t
  tables : (p.table s == p.table t) = true
  next : ∀ q : Request w, (q.serve (p.table s)).answer = (q.serve (p.table t)).answer

lemma Session.agrees_of_entries_eq {s t : RangeTable w} (h : s.entries = t.entries) (p : Session w) :
    p.Agrees s t := by
  have hentries : (p.table s).entries = (p.table t).entries := by
    rw [entries_table_eq_requests h p, entries_table_eq_requests rfl p]
  exact {
    answers := by
      rw [answers_eq_requests h p, answers_eq_requests rfl p]
    tables := beq_iff_entries_eq.mpr hentries
    next := fun q => (q.alike_serve hentries).answer }

/-- Tables are equal exactly if they hold the same entries, and each of the three texts of a table shows
as much. Whatever is done to equal tables, they answer alike and are equal again. -/
theorem RangeTable.equality_shown_by_texts :
    (∀ s t : RangeTable w, List.TFAE [(s == t) = true, (t == s) = true, s.entries = t.entries,
      s.size = t.size ∧ s.cursor.drain = t.cursor.drain, s.display = t.display, s.describe = t.describe,
      s.encode = t.encode]) ∧
    (Equivalence fun s t : RangeTable w => (s == t) = true) ∧
    ∀ s t : RangeTable w, (s == t) = true → ∀ p : Session w, p.Agrees s t :=
  ⟨tfae_equal, equivalence_beq, fun _ _ h p => p.agrees_of_entries_eq (beq_iff_entries_eq.mp h)⟩

end AddressAtlas

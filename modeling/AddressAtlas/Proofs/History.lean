import AddressAtlas.Proofs.TableDecoding
import AddressAtlas.Proofs.TableLookup

/-!
# Histories of a table

A table is made, filled, trimmed, copied and decoded in any order. Each operation means something for a
ledger too, where only the entries count, and the entries of a table are always the ledger of its history.
What a table answers is therefore said of the ledger: what it stores, which insertions it accepts, and
which entry a lookup finds.
-/

namespace AddressAtlas

open Ledger RangeTable

/-- What can be done to a table. -/
inductive Operation (w : Width) where
  | empty
  | ofCapacity (capacity : Nat)
  | ofEntries (hint : Hint w) (es : List (Entry w))
  | insert (e : Entry w)
  | insertMany (es : List (Entry w))
  | trim
  | copy
  | decode (text : String)

variable {w : Width}

namespace Operation

def made {ε : Type} (t : RangeTable w) : Except ε (RangeTable w) → RangeTable w
  | .ok t' => t'
  | .error _ => t

/-- The table behind an operation. -/
def onTable (t : RangeTable w) : Operation w → RangeTable w
  | empty => .empty
  | ofCapacity capacity => made t (RangeTable.ofCapacity capacity)
  | ofEntries hint es => made t (RangeTable.ofEntries hint es).result
  | insert e => (t.insert e).state
  | insertMany es => (t.insertMany es).state
  | trim => (t.trim : Outcome _ Empty).state
  | copy => t.copy
  | decode text => made t (RangeTable.decode text).result

/-- The ledger that new entries make, or the old one if they are not ascending. -/
def recorded (l es : List (Entry w)) : List (Entry w) :=
  if Entry.Ascending es then es else l

/-- The ledger behind an operation. -/
def onLedger (l : List (Entry w)) : Operation w → List (Entry w)
  | empty => []
  | ofCapacity capacity => if w.entryBytes * capacity ≤ maxArrayBytes then [] else l
  | ofEntries _ es => recorded l es
  | insert e => offer l e
  | insertMany es => offerMany l es
  | trim => l
  | copy => l
  | decode text => (spelled? text.toList).elim l (recorded l)

end Operation

open Operation

/-- What has been done to a table, the first operation first. -/
abbrev History (w : Width) := List (Operation w)

/-- The table that a history leads to. -/
def History.table (h : History w) : RangeTable w :=
  h.foldl onTable .empty

/-- The entries that have been taken in and are still there. -/
def History.accepted (h : History w) : List (Entry w) :=
  h.foldl onLedger []

lemma entries_made_ofEntries (t : RangeTable w) (hint : Hint w) (es : List (Entry w)) :
    (made t (RangeTable.ofEntries hint es).result).entries = recorded t.entries es := by
  by_cases hes : Entry.Ascending es
  · obtain ⟨t', ht', hentries⟩ := (result_insertMany_vacant _ es).1 hes
    rw [recorded, if_pos hes, RangeTable.ofEntries, ht']
    exact hentries
  · obtain ⟨v, hv⟩ := exists_violation_of_not_ascending hes
    rw [recorded, if_neg hes, RangeTable.ofEntries, (result_insertMany_vacant _ es).2 v hv]
    rfl

lemma entries_made_decode (t : RangeTable w) (text : String) :
    (made t (RangeTable.decode text).result).entries =
      (spelled? text.toList).elim t.entries (recorded t.entries) := by
  cases hspelled : spelled? (w := w) text.toList with
  | none =>
    obtain ⟨fault, hfault⟩ := result_decodeText_of_unspelled hspelled
    rw [RangeTable.decode, hfault]
    rfl
  | some es =>
    have hspells := spelled?_eq_some_iff.mp hspelled
    by_cases hes : Entry.Ascending es
    · obtain ⟨t', ht', hentries, -⟩ := result_decode_of_ascending hspells hes
      rw [ht', Option.elim_some, recorded, if_pos hes]
      exact hentries
    · obtain ⟨v, hv⟩ := exists_violation_of_not_ascending hes
      rw [result_decode_of_violation hspells hv, Option.elim_some, recorded, if_neg hes]
      rfl

/-- An operation does to the entries of a table what it does to a ledger. -/
theorem entries_onTable (t : RangeTable w) (op : Operation w) :
    (op.onTable t).entries = op.onLedger t.entries := by
  cases op with
  | empty => rfl
  | ofCapacity capacity =>
    simp only [onTable, onLedger, RangeTable.ofCapacity_eq]
    split
    · rfl
    · rfl
  | ofEntries hint es => exact entries_made_ofEntries t hint es
  | insert e => exact t.entries_insert e
  | insertMany es => exact t.entries_insertMany es
  | trim =>
    have htrim : onTable t .trim = t.fitted := t.state_trim
    rw [htrim, entries_fitted]
    rfl
  | copy => rfl
  | decode text => exact entries_made_decode t text

/-- The entries of a table are the ledger of its history. -/
theorem History.entries_table (h : History w) : h.table.entries = h.accepted := by
  have hfold : ∀ t : RangeTable w, (h.foldl onTable t).entries = h.foldl onLedger t.entries := by
    induction h with
    | nil => exact fun t => rfl
    | cons op h ih =>
      intro t
      rw [List.foldl_cons, List.foldl_cons, ih, entries_onTable]
  exact hfold .empty

/-- A table stores a ledger, and takes in what the ledger takes in. -/
structure Refines (t : RangeTable w) (l : List (Entry w)) : Prop where
  size_words : t.words.size = 2 * w.wordsPerKey * t.values.size
  toList_words : t.words.toList = l.flatMap Entry.words
  toList_values : t.values.toList = l.map Entry.value
  rebuilt : ∀ i, t.entry? i = l[i]?
  size : t.size = l.length
  isEmpty : t.isEmpty = l.isEmpty
  first : t.first? = l.head?
  last : t.last? = l.getLast?
  accepts : ∀ e, (t.insert e).fault = none ↔
    l = [] ∨ ∃ last, l.getLast? = some last ∧ last.stop < e.start
  appends : ∀ e, (t.insert e).fault = none → (t.insert e).state.entries = l ++ [e]
  keeps : ∀ e, (t.insert e).fault ≠ none → (t.insert e).state = t
  apart : ∀ (i : Nat) (a b : Entry w), l[i]? = some a → l[i + 1]? = some b → a.stop < b.start
  sorted : (∀ e ∈ l, e.start ≤ e.stop) → (Entry.boundaries l).Pairwise (· ≤ ·)
  disjoint : (∀ e ∈ l, e.start ≤ e.stop) → ∀ (i j : Nat) (a b : Entry w), l[i]? = some a →
    l[j]? = some b → i ≠ j → ∀ key, ¬(a.Contains key ∧ b.Contains key)

theorem refines_entries (t : RangeTable w) : Refines t t.entries where
  size_words := t.size_words.trans (Nat.mul_comm _ _)
  toList_words := t.toList_words
  toList_values := t.toList_values
  rebuilt := fun i => (t.getElem?_entries i).symm
  size := t.length_entries.symm
  isEmpty := by
    rw [Bool.eq_iff_iff, List.isEmpty_iff_length_eq_zero, length_entries, isEmpty, Array.isEmpty_iff_size_eq_zero]
    rfl
  first := by
    rw [List.head?_eq_getElem?, getElem?_entries, first?]
  last := t.getLast?_entries.symm
  accepts := by
    intro e
    rw [fault_insert_eq_none_iff_follows, follows_iff]
  appends := by
    intro e h
    exact (insert_of_follows (fault_insert_eq_none_iff_follows.mp h)).2
  keeps := by
    intro e h
    rw [Ne, fault_insert_eq_none_iff_follows] at h
    exact (insert_of_not_follows h).2
  apart := Entry.ascending_iff_getElem?.mp t.ascending_entries
  sorted := t.ascending_entries.pairwise_boundaries
  disjoint := by
    intro hproper i j a b ha hb hij key hkey
    exact hij (t.ascending_entries.index_unique hproper ha hb hkey.1 hkey.2)

/-- Whatever is done to a table, it stores the ledger of its history. -/
theorem History.table_refines_accepted (h : History w) : Refines h.table h.accepted := by
  rw [← h.entries_table]
  exact refines_entries h.table

/-- The lookups of a table answer for a key as a scan of a list does. -/
structure Scans (t : RangeTable w) (l : List (Entry w)) (key : Key w) : Prop where
  value : ∀ v, t.find? key = some v ↔ ∃ e ∈ l, e.Contains key ∧ e.value = v
  entry : ∀ e, findEntry? t key = some e ↔ e ∈ l ∧ e.Contains key
  contained : t.contains key = true ↔ ∃ e ∈ l, e.Contains key
  unique : ∀ (i j : Nat) (a b : Entry w), l[i]? = some a → l[j]? = some b → a.Contains key →
    b.Contains key → i = j
  no_value : t.find? key = none ↔ Entry.Uncovered l key
  no_entry : findEntry? t key = none ↔ Entry.Uncovered l key
  not_contained : t.contains key = false ↔ Entry.Uncovered l key
  scan : findEntry? t key = l.find? (fun e => e.Contains key)

theorem scans_entries (t : RangeTable w) (hproper : ∀ e ∈ t.entries, e.start ≤ e.stop) (key : Key w) :
    Scans t t.entries key := by
  have hscan : findEntry? t key = t.entries.find? fun e => e.Contains key :=
    t.findEntry?_eq_find? hproper key
  have hentry : ∀ e, findEntry? t key = some e ↔ e ∈ t.entries ∧ e.Contains key := by
    intro e
    rw [hscan]
    exact t.ascending_entries.find?_eq_some_iff hproper
  have hnone : findEntry? t key = none ↔ Entry.Uncovered t.entries key := by
    rw [hscan, List.find?_eq_none, t.ascending_entries.uncovered_iff hproper]
    simp only [decide_eq_true_eq]
  exact {
    value := fun v => t.find?_eq_some_iff hproper
    entry := hentry
    contained := by
      rw [contains_eq_isSome, Option.isSome_iff_exists]
      exact exists_congr hentry
    unique := fun i j a b => t.ascending_entries.index_unique hproper
    no_value := by
      rw [find?_eq_map_value, Option.map_eq_none_iff, hnone]
    no_entry := hnone
    not_contained := by
      rw [contains_eq_isSome, Option.isSome_eq_false_iff, Option.isNone_iff_eq_none, hnone]
    scan := hscan }

/-- Whatever is done to a table, as long as no range taken in is reversed, its lookups answer as a scan of
the ranges that have been taken in. -/
theorem History.table_scans_accepted (h : History w) (hproper : ∀ e ∈ h.accepted, e.start ≤ e.stop)
    (key : Key w) : Scans h.table h.accepted key := by
  rw [← h.entries_table] at hproper ⊢
  exact scans_entries h.table hproper key

/-- A range of one key, its neighbour without a gap, two ranges that are refused, and a text that spells
nothing. -/
def mixedHistory : History .wide :=
  [.insert ⟨7, 7, 1⟩, .insert ⟨8, 18446744073709551616, 2⟩, .insert ⟨7, 9, 3⟩, .trim, .decode "[[5,1",
    .insertMany [⟨18446744073709551618, -1, 4⟩, ⟨0, 0, 5⟩], .copy]

theorem mixedHistory_lookups :
    mixedHistory.table.find? 18446744073709551616 = some 2 ∧
      findEntry? mixedHistory.table 7 = some ⟨7, 7, 1⟩ ∧
      mixedHistory.table.contains (-1) = true ∧
      mixedHistory.table.contains 6 = false ∧
      mixedHistory.table.find? 18446744073709551617 = none := by
  have hledger : mixedHistory.accepted =
      [⟨7, 7, 1⟩, ⟨8, 18446744073709551616, 2⟩, ⟨18446744073709551618, -1, 4⟩] := by decide
  have hscans := mixedHistory.table_scans_accepted (by rw [hledger]; decide)
  rw [hledger] at hscans
  refine ⟨?_, ?_, ?_, ?_, ?_⟩
  · exact ((hscans _).value 2).mpr ⟨⟨8, 18446744073709551616, 2⟩, by decide⟩
  · exact ((hscans _).entry _).mpr (by decide)
  · exact (hscans _).contained.mpr ⟨⟨18446744073709551618, -1, 4⟩, by decide⟩
  · refine (hscans _).not_contained.mpr (.inl ?_)
    decide
  · exact (hscans _).no_value.mpr (.inr (.inl ⟨1, _, _, rfl, rfl, by decide⟩))

end AddressAtlas

import AddressAtlas.Proofs.JoinedInput
import AddressAtlas.Proofs.PartialLoads
import AddressAtlas.Proofs.WidthIndependence

/-!
# Loads in parts

A file may be loaded in parts: the room that is given back between them makes no difference, and rows are
numbered anew in each. Parts whose records differ in width may also be loaded in either order.
-/

namespace AddressAtlas

open Delimited Ledger RangeTable Record Text

namespace Atlas

/-- The same entries in whatever room. -/
structure SameEntries (a b : Atlas) : Prop where
  narrow : a.narrow.entries = b.narrow.entries
  wide : a.wide.entries = b.wide.entries

namespace SameEntries

variable {a b : Atlas}

lemma of_fitted (a : Atlas) : SameEntries a.fitted a :=
  ⟨rfl, rfl⟩

lemma fitted_eq (h : SameEntries a b) : a.fitted = b.fitted := by
  unfold fitted
  rw [fitted_eq_of_entries_eq h.narrow, fitted_eq_of_entries_eq h.wide]

/-- Room has no part in what becomes of a record. -/
lemma insert (h : SameEntries a b) (r : Record) :
    (a.insert r).fault = (b.insert r).fault ∧ SameEntries (a.insert r).state (b.insert r).state := by
  rcases parts_cases r with ⟨e, he, -⟩ | ⟨e, he, -⟩
  · rw [(insert_narrow he).1, (insert_narrow he).1, (insert_narrow he).2, (insert_narrow he).2,
      RangeTable.fault_insert, RangeTable.fault_insert, h.narrow]
    refine ⟨rfl, ?_, h.wide⟩
    rw [entries_insert, entries_insert, h.narrow]
  · rw [(insert_wide he).1, (insert_wide he).1, (insert_wide he).2, (insert_wide he).2,
      RangeTable.fault_insert, RangeTable.fault_insert, h.wide]
    refine ⟨rfl, h.narrow, ?_⟩
    rw [entries_insert, entries_insert, h.wide]

lemma insertAll (h : SameEntries a b) (records : List Record) :
    SameEntries (a.insertAll records) (b.insertAll records) := by
  induction records generalizing a b with
  | nil => exact h
  | cons r records ih => exact ih (h.insert r).2

lemma faults_eq (h : SameEntries a b) (records : List Record) : a.faults records = b.faults records := by
  induction records generalizing a b with
  | nil => rfl
  | cons r records ih => rw [faults, faults, (h.insert r).1, ih (h.insert r).2]

lemma rowFault?_eq (h : SameEntries a b) (fields : List String) : a.rowFault? fields = b.rowFault? fields := by
  unfold rowFault?
  cases ofFields fields with
  | error cause => rfl
  | ok described? =>
    cases described? with
    | none => rfl
    | some r => exact (h.insert r).1

lemma firstFault_iff (h : SameEntries a b) {rows : List (List String)} {i : Nat} {cause : GeoFault} :
    a.FirstFault rows i cause ↔ b.FirstFault rows i cause := by
  unfold FirstFault RowFault
  simp only [(h.insertAll _).rowFault?_eq]

end SameEntries

variable {a b : Atlas} {rows more : List (List String)} {bytes : List UInt8} {i : Nat} {f : LoadFault}
  {cause : GeoFault}

/-- Rows can be read, and no record of theirs is refused behind those of an atlas; the second atlas holds
all these records without spare room. -/
structure Stores (a : Atlas) (rows : List (List String)) (b : Atlas) : Prop where
  readable : ∀ fields ∈ rows, ∃ described?, ofFields fields = .ok described?
  accepted : ∀ f ∈ a.faults (described rows), f = none
  eq_fitted : b = (a.insertAll (described rows)).fitted

lemma stores_append_iff {c : Atlas} : a.Stores (rows ++ more) c ↔ ∃ b, a.Stores rows b ∧ b.Stores more c := by
  have hsame := SameEntries.of_fitted (a.insertAll (described rows))
  constructor
  · rintro ⟨hreadable, haccepted, rfl⟩
    rw [List.forall_mem_append] at hreadable
    rw [described_append, faults_append, List.forall_mem_append] at haccepted
    refine ⟨_, ⟨hreadable.1, haccepted.1, rfl⟩, hreadable.2, ?_, ?_⟩
    · rw [hsame.faults_eq]
      exact haccepted.2
    · rw [(hsame.insertAll _).fitted_eq, described_append, insertAll_append]
  · rintro ⟨_, ⟨hreadable, haccepted, rfl⟩, hreadable', haccepted', rfl⟩
    rw [hsame.faults_eq] at haccepted'
    refine ⟨List.forall_mem_append.mpr ⟨hreadable, hreadable'⟩, ?_, ?_⟩
    · rw [described_append, faults_append]
      exact List.forall_mem_append.mpr ⟨haccepted, haccepted'⟩
    · rw [(hsame.insertAll _).fitted_eq, described_append, insertAll_append]

/-- Which rows an atlas takes in depends on the parts of their records in each width. -/
lemma Stores.of_parts {rows' : List (List String)} (h : a.Stores rows b) (hrows : ∀ fields ∈ rows', fields ∈ rows)
    (hnarrow : (described rows').filterMap narrowPart? = (described rows).filterMap narrowPart?)
    (hwide : (described rows').filterMap widePart? = (described rows).filterMap widePart?) :
    a.Stores rows' b where
  readable := fun fields hfields => h.readable fields (hrows fields hfields)
  accepted := by
    rw [faults_eq_none_iff, hnarrow, hwide, ← faults_eq_none_iff]
    exact h.accepted
  eq_fitted := by rw [h.eq_fitted, insertAll_eq, insertAll_eq, hnarrow, hwide]

lemma filterMap_append_comm {α β : Type} {part : α → Option β} {l l' : List α}
    (h : (∀ a ∈ l, part a = none) ∨ ∀ a ∈ l', part a = none) :
    (l ++ l').filterMap part = (l' ++ l).filterMap part := by
  simp only [← List.filterMap_eq_nil_iff] at h
  rw [List.filterMap_append, List.filterMap_append]
  rcases h with h | h
  · rw [h, List.nil_append, List.append_nil]
  · rw [h, List.nil_append, List.append_nil]

/-- Rows with narrow records and rows with wide ones may change places. -/
lemma stores_append_comm (hnarrow : ∀ r ∈ described rows, r.IsNarrow)
    (hwide : ∀ r ∈ described more, ¬r.IsNarrow) : a.Stores (rows ++ more) b ↔ a.Stores (more ++ rows) b := by
  have hnone : ∀ r ∈ described rows, widePart? r = none := by
    intro r hr
    rw [← Option.not_isSome_iff_eq_none, isSome_widePart?_iff, not_not]
    exact hnarrow r hr
  have hnone' : ∀ r ∈ described more, narrowPart? r = none := by
    intro r hr
    rw [← Option.not_isSome_iff_eq_none, isSome_narrowPart?_iff]
    exact hwide r hr
  have hmem : ∀ l l' : List (List String), ∀ fields ∈ l ++ l', fields ∈ l' ++ l := fun l l' fields hfields =>
    List.mem_append.mpr (List.mem_append.mp hfields).symm
  have hnarrowParts : (described (rows ++ more)).filterMap narrowPart? =
      (described (more ++ rows)).filterMap narrowPart? := by
    rw [described_append, described_append]
    exact filterMap_append_comm (.inr hnone')
  have hwideParts : (described (rows ++ more)).filterMap widePart? =
      (described (more ++ rows)).filterMap widePart? := by
    rw [described_append, described_append]
    exact filterMap_append_comm (.inl hnone)
  constructor
  · intro h
    exact h.of_parts (hmem more rows) hnarrowParts.symm hwideParts.symm
  · intro h
    exact h.of_parts (hmem rows more) hnarrowParts hwideParts

section Bytes

variable (hrows : items { bytes } = rows.map .ok)

include hrows

lemma result_extendPlain_eq_ok_iff : (a.extendPlain bytes).result = .ok b ↔ a.Stores rows b := by
  rw [extendPlain, extend_eq_extendRows hrows, Outcome.result_eq_ok_iff, Outcome.fault_mapFault,
    Outcome.state_mapFault, Option.map_eq_none_iff, fault_extendRows]
  constructor
  · rintro ⟨hfault, rfl⟩
    obtain ⟨hreadable, haccepted⟩ := Load.fault_addRows_eq_none_iff.mp hfault
    exact ⟨hreadable, haccepted, state_extendRows hfault⟩
  · rintro ⟨hreadable, haccepted, rfl⟩
    have hfault : (Load.addRows ⟨a, 0, 0⟩ rows).fault = none :=
      Load.fault_addRows_eq_none_iff.mpr ⟨hreadable, haccepted⟩
    exact ⟨hfault, state_extendRows hfault⟩

lemma result_extendPlain_eq_error_iff : (a.extendPlain bytes).result = .error f ↔
    ∃ i cause, f = .geo (.record i cause) ∧ a.FirstFault rows i cause := by
  rw [extendPlain, extend_eq_extendRows hrows, Outcome.result_eq_error_iff, Outcome.fault_mapFault,
    Option.map_eq_some_iff, fault_extendRows]
  simp only [Load.fault_addRows_eq_some_iff, Nat.zero_add]
  constructor
  · rintro ⟨_, ⟨i, cause, rfl, hfirst⟩, rfl⟩
    exact ⟨i, cause, rfl, hfirst⟩
  · rintro ⟨i, cause, rfl, hfirst⟩
    exact ⟨_, ⟨i, cause, rfl, hfirst⟩, rfl⟩

end Bytes

lemma Stores.not_rowFault (h : a.Stores rows b) : ¬a.RowFault rows i cause := by
  intro hfault
  obtain ⟨j, other, hfirst⟩ := exists_firstFault ⟨i, cause, hfault⟩
  have hsome : (Load.addRows ⟨a, 0, 0⟩ rows).fault = some (.record (0 + j) other) :=
    Load.fault_addRows_eq_some_iff.mpr ⟨j, other, rfl, hfirst⟩
  have hnone : (Load.addRows ⟨a, 0, 0⟩ rows).fault = none :=
    Load.fault_addRows_eq_none_iff.mpr ⟨h.readable, h.accepted⟩
  exact Option.some_ne_none _ (hsome.symm.trans hnone)

lemma rowFault_append_left (h : i < rows.length) :
    a.RowFault (rows ++ more) i cause ↔ a.RowFault rows i cause := by
  unfold RowFault
  rw [List.getElem?_append_left h, List.take_append_of_le_length (Nat.le_of_lt h)]

lemma rowFault_append_right : a.RowFault (rows ++ more) (i + rows.length) cause ↔
    (a.insertAll (described rows)).RowFault more i cause := by
  unfold RowFault
  rw [List.getElem?_append_right (Nat.le_add_left _ _), Nat.add_sub_cancel, Nat.add_comm i,
    List.take_length_add_append, described_append, insertAll_append]

/-- A fault in the first rows is the first one of all. -/
lemma FirstFault.append_left (h : a.FirstFault rows i cause) (more : List (List String)) :
    a.FirstFault (rows ++ more) i cause := by
  obtain ⟨⟨fields, hfields, hfault⟩, hbefore⟩ := h
  have hi := (List.getElem?_eq_some_iff.mp hfields).1
  refine ⟨(rowFault_append_left hi).mpr ⟨fields, hfields, hfault⟩, fun j hj other hother => ?_⟩
  exact hbefore j hj other ((rowFault_append_left (hj.trans hi)).mp hother)

/-- Behind rows without a fault, the first one is that of the rows that follow. -/
lemma Stores.firstFault_append (h : a.Stores rows b) (hmore : b.FirstFault more i cause) :
    a.FirstFault (rows ++ more) (i + rows.length) cause := by
  rw [h.eq_fitted, (SameEntries.of_fitted _).firstFault_iff] at hmore
  refine ⟨rowFault_append_right.mpr hmore.1, fun j hj other hother => ?_⟩
  by_cases hlt : j < rows.length
  · exact h.not_rowFault ((rowFault_append_left hlt).mp hother)
  · obtain ⟨k, rfl⟩ := Nat.exists_eq_add_of_le' (Nat.not_lt.mp hlt)
    exact hmore.2 k (Nat.lt_of_add_lt_add_right hj) other (rowFault_append_right.mp hother)

/-- A load of a first file, and of a second one behind it. -/
def ofParts (first second : List UInt8) : Except LoadFault Atlas :=
  (ofPlain first).result.bind fun a => (a.extendPlain second).result

lemma ofParts_eq_ok_iff {first second : List UInt8} (hfirst : items { bytes := first } = rows.map .ok)
    (hsecond : items { bytes := second } = more.map .ok) :
    ofParts first second = .ok b ↔ empty.Stores (rows ++ more) b := by
  have hbind : ofParts first second = .ok b ↔
      ∃ a, (ofPlain first).result = .ok a ∧ (a.extendPlain second).result = .ok b := by
    unfold ofParts
    cases (ofPlain first).result with
    | error f => simp [Except.bind]
    | ok a => simp [Except.bind]
  rw [hbind, stores_append_iff]
  simp only [ofPlain, result_extendPlain_eq_ok_iff hfirst, result_extendPlain_eq_ok_iff hsecond]

/-- A file of two parts is loaded as the parts are. A fault in the first part is the same, and one in the
second part is reported by a number that counts the `n` rows of the first one. -/
structure LoadsInParts (first second : List UInt8) (n : Nat) : Prop where
  ok_iff : ∀ a, (ofPlain (first ++ second)).result = .ok a ↔ ofParts first second = .ok a
  first_error : ∀ f, (ofPlain first).result = .error f → (ofPlain (first ++ second)).result = .error f
  second_error : ∀ a f, (ofPlain first).result = .ok a → (a.extendPlain second).result = .error f →
    ∃ i cause, f = .geo (.record i cause) ∧
      (ofPlain (first ++ second)).result = .error (.geo (.record (i + n) cause))

/-- Two files, each row of the first of which has its line end, are loaded one behind the other as one file.
If the records of one are narrow and those of the other wide, either may be the first. -/
theorem loads_in_parts {rows more : List (List String)} {first second : List UInt8}
    (hfirst : items { bytes := first } = rows.map .ok) (hend : Terminated (unmarked first))
    (hsecond : items { bytes := second } = more.map .ok) (hmark : ¬byteOrderMark.isPrefixOf second) :
    LoadsInParts first second rows.length ∧
      ((∀ r ∈ described rows, r.IsNarrow) → (∀ r ∈ described more, ¬r.IsNarrow) →
        ∀ a, ofParts first second = .ok a ↔ ofParts second first = .ok a) := by
  have hjoined := items_append hfirst hend hsecond hmark
  refine ⟨⟨?_, ?_, ?_⟩, ?_⟩
  · intro a
    rw [ofParts_eq_ok_iff hfirst hsecond, ofPlain, result_extendPlain_eq_ok_iff hjoined]
  · intro f hf
    obtain ⟨i, cause, rfl, hfault⟩ := (result_extendPlain_eq_error_iff hfirst).mp hf
    exact (result_extendPlain_eq_error_iff hjoined).mpr ⟨i, cause, rfl, hfault.append_left more⟩
  · intro a f ha hf
    have hstores := (result_extendPlain_eq_ok_iff hfirst).mp ha
    obtain ⟨i, cause, rfl, hfault⟩ := (result_extendPlain_eq_error_iff hsecond).mp hf
    refine ⟨i, cause, rfl, (result_extendPlain_eq_error_iff hjoined).mpr ?_⟩
    exact ⟨_, cause, rfl, hstores.firstFault_append hfault⟩
  · intro hnarrow hwide a
    rw [ofParts_eq_ok_iff hfirst hsecond, ofParts_eq_ok_iff hsecond hfirst,
      stores_append_comm hnarrow hwide]

def narrowRows : List (List String) :=
  [["0", "9", "AU", "", "", "", "", "1", "2"], ["8", "9", "AU", "", "", "", "", "", ""]]

/-- A mark, a row that is stored, an empty line, and a row without coordinates. -/
def narrowFile : List Char :=
  "\uFEFF0,9,AU,,,,,1,2\r\n\n8,9,AU,,,,,,\n".toList

def wideRows : List (List String) :=
  [["4294967290", "4294967300", "JP", "", "", "", "", "1", "2"]]

def wideFile : List Char :=
  "4294967290,4294967300,JP,,,,,1,2\n".toList

theorem narrowFile_then_wideFile :
    ∃ a, (ofPlain (encodeUtf8 narrowFile ++ encodeUtf8 wideFile)).result = .ok a ∧
      ofParts (encodeUtf8 wideFile) (encodeUtf8 narrowFile) = .ok a ∧ a.narrow.size = 1 ∧ a.wide.size = 1 := by
  have hplain : ∀ row ∈ narrowRows ++ wideRows, ∀ field ∈ row, IsPlain field := by decide
  have hstored := spellsRow_bareText (hplain _ (List.mem_of_getElem? (i := 0) rfl))
  have hskipped := spellsRow_bareText (hplain _ (List.mem_of_getElem? (i := 1) rfl))
  have hwide := spellsRow_bareText (hplain _ (List.mem_of_getElem? (i := 2) rfl))
  have hnarrowLines : SpellsLines narrowRows _ := .cons emptyLines_nil hstored (.inr (.inr rfl))
    (.cons (IsLineEnd.emptyLines (.inl rfl)) hskipped (.inl rfl) (.nil emptyLines_nil))
  have hwideLines : SpellsLines wideRows _ := .cons emptyLines_nil hwide (.inl rfl) (.nil emptyLines_nil)
  have hnarrowFile : SpellsFile narrowRows narrowFile := .inr ⟨_, by decide +kernel, hnarrowLines.spellsRows⟩
  have hwideFile : SpellsFile wideRows wideFile := .inl hwideLines.spellsRows
  have hend : Terminated (unmarked (encodeUtf8 narrowFile)) := hnarrowLines.terminated.2
  have hmark : ¬byteOrderMark.isPrefixOf (encodeUtf8 wideFile) := fun hmark =>
    hwideLines.spellsRows.head?_ne_mark (head?_of_mark_isPrefixOf hmark)
  obtain ⟨hparts, hswap⟩ := loads_in_parts (items_of_spells hnarrowFile) hend (items_of_spells hwideFile) hmark
  have hstores : empty.Stores (narrowRows ++ wideRows)
      (empty.insertAll (described (narrowRows ++ wideRows))).fitted := by
    have hfault : (Load.addRows ⟨empty, 0, 0⟩ (narrowRows ++ wideRows)).fault = none := by decide
    obtain ⟨hreadable, haccepted⟩ := Load.fault_addRows_eq_none_iff.mp hfault
    exact ⟨hreadable, haccepted, rfl⟩
  have hok := (ofParts_eq_ok_iff (items_of_spells hnarrowFile) (items_of_spells hwideFile)).mpr hstores
  exact ⟨_, (hparts.ok_iff _).mpr hok, (hswap (by decide) (by decide) _).mp hok, by decide, by decide⟩

end Atlas

end AddressAtlas

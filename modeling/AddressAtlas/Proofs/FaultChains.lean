import AddressAtlas.Proofs.PartialLoads
import AddressAtlas.Proofs.RowReading
import AddressAtlas.Proofs.WidthIndependence

/-!
# Faults and where they come from

Reading a row, inserting a record and loading many of them each have faults of their own kind; only a load
puts the number of a record around a fault, and it does so once. A fault that comes from another one ends
with the text of that one, whatever its kind, so the chain of a fault runs through shorter and shorter endings
of its message.
-/

namespace AddressAtlas

open Delimited

/-- What a fault comes from. -/
inductive Cause where
  | address (f : AddressFault)
  | coordinate (f : CoordinateFault)
  | narrow (v : Violation .narrow)
  | wide (v : Violation .wide)
  | geo (f : GeoFault)

/-- The cause of a fault. -/
def GeoFault.source? : GeoFault → Option Cause
  | invalidCountry _ | missingField _ => none
  | invalidAddress f => some (.address f)
  | invalidCoordinate f => some (.coordinate f)
  | narrowOrdering v => some (.narrow v)
  | wideOrdering v => some (.wide v)
  | record _ f => some (.geo f)

namespace Cause

def message : Cause → String
  | address f => f.message
  | coordinate f => f.message
  | narrow v => v.message
  | wide v => v.message
  | geo f => f.message

/-- The messages of the causes of a cause; only a fault of records has any. -/
def chain : Cause → List String
  | geo f => f.chain
  | address _ | coordinate _ | narrow _ | wide _ => []

end Cause

/-- The text closes with another one. -/
def EndsWith (text ending : String) : Prop :=
  ∃ front, text = front ++ ending

namespace GeoFault

/-- The fault lies in a row itself, not in the order of records, and is not that of a record in a load. -/
def IsOfRow : GeoFault → Prop
  | invalidCountry _ | missingField _ | invalidAddress _ | invalidCoordinate _ => True
  | narrowOrdering _ | wideOrdering _ | record _ _ => False

/-- A record in a load is at fault, for a reason that names no record again. -/
def IsOfRecord (f : GeoFault) : Prop :=
  ∃ i cause, f = .record i cause ∧ ∀ j other, cause ≠ .record j other

lemma IsOfRow.ne_record {f : GeoFault} (h : f.IsOfRow) (j : ℕ) (other : GeoFault) : f ≠ .record j other := by
  rintro rfl
  exact h

/-- The chain starts with the message of the cause and goes on with the chain of the cause. -/
theorem chain_eq (f : GeoFault) : f.chain = f.source?.elim [] fun c => c.message :: c.chain := by
  cases f with
  | _ => rfl

lemma source?_eq_none_iff {f : GeoFault} :
    f.source? = none ↔ (∃ text, f = .invalidCountry text) ∨ ∃ index, f = .missingField index := by
  cases f with
  | _ => simp [source?]

lemma chain_eq_nil_iff {f : GeoFault} : f.chain = [] ↔ f.source? = none := by
  rw [chain_eq]
  cases f.source? with
  | none => simp
  | some c => simp

/-- A fault says of itself what it adds, and then what its cause says. -/
theorem endsWith_source {f : GeoFault} {c : Cause} (h : f.source? = some c) : EndsWith f.message c.message := by
  cases f with
  | invalidCountry text => cases h
  | missingField index => cases h
  | invalidAddress f =>
    obtain rfl := Option.some.inj h
    exact ⟨"invalid address: ", rfl⟩
  | invalidCoordinate f =>
    obtain rfl := Option.some.inj h
    exact ⟨"invalid coordinate: ", rfl⟩
  | narrowOrdering v =>
    obtain rfl := Option.some.inj h
    exact ⟨"", String.empty_append.symm⟩
  | wideOrdering v =>
    obtain rfl := Option.some.inj h
    exact ⟨"", String.empty_append.symm⟩
  | record i f =>
    obtain rfl := Option.some.inj h
    exact ⟨"failed to load record " ++ Text.decimal i ++ ": ", rfl⟩

lemma endsWith_head? {f : GeoFault} {text : String} (h : text ∈ f.chain.head?) : EndsWith f.message text := by
  rw [chain_eq] at h
  cases hsource : f.source? with
  | none =>
    rw [hsource] at h
    cases h
  | some c =>
    rw [hsource] at h
    obtain rfl := Option.some.inj h
    exact endsWith_source hsource

/-- Each message of a chain closes the one before it, however deep records are nested. -/
theorem isChain_message_chain (f : GeoFault) : (f.message :: f.chain).IsChain EndsWith := by
  induction f with
  | invalidCountry | missingField => exact .singleton _
  | invalidAddress | invalidCoordinate | narrowOrdering | wideOrdering =>
    exact .cons_cons (endsWith_head? rfl) (.singleton _)
  | record i f ih =>
    have hcause : EndsWith (record i f).message f.message := endsWith_head? rfl
    exact .cons_cons hcause ih

/-- What a fault shows of where it comes from, and what a load shows of the fault that stops it. -/
structure Explained (f : GeoFault) : Prop where
  chain : f.chain = f.source?.elim [] fun c => c.message :: c.chain
  chain_eq_nil_iff : f.chain = [] ↔ (∃ text, f = .invalidCountry text) ∨ ∃ index, f = .missingField index
  ends : ∀ text ∈ f.chain.head?, EndsWith f.message text
  nested : (f.message :: f.chain).IsChain EndsWith
  load : (LoadFault.geo f).message = f.message ∧ (LoadFault.geo f).chain = f.message :: f.chain

lemma explained (f : GeoFault) : f.Explained where
  chain := f.chain_eq
  chain_eq_nil_iff := f.chain_eq_nil_iff.trans source?_eq_none_iff
  ends := fun _ => endsWith_head?
  nested := f.isChain_message_chain
  load := ⟨rfl, rfl⟩

/-- A row that cannot be read, for a reason that is nested twice around it. -/
example : (record 7 (record 0 (invalidAddress .empty))).chain =
    ["failed to load record 0: invalid address: cannot parse integer from empty string",
      "invalid address: cannot parse integer from empty string", "cannot parse integer from empty string"] := by
  decide +kernel

end GeoFault

/-- A reading has no faults but such as `p` holds of. -/
def FaultsOnly {α : Type} (p : GeoFault → Prop) (x : Except GeoFault α) : Prop :=
  ∀ f, x = .error f → p f

namespace FaultsOnly

variable {α β : Type} {p : GeoFault → Prop}

lemma ok (a : α) : FaultsOnly p (.ok a) := by
  intro f h
  cases h

lemma bind {x : Except GeoFault α} {k : α → Except GeoFault β} (hx : FaultsOnly p x)
    (hk : ∀ a, FaultsOnly p (k a)) : FaultsOnly p (x >>= k) := by
  intro f h
  rcases bind_eq_error_iff.mp h with h | ⟨a, -, h⟩
  · exact hx f h
  · exact hk a f h

end FaultsOnly

namespace Record

open GeoFault

lemma faultsOnly_field (fields : List String) (i : ℕ) : FaultsOnly IsOfRow (field fields i) := by
  intro f h
  unfold field at h
  split at h
  · cases h
  · obtain rfl := Except.error.inj h
    trivial

lemma faultsOnly_address (fields : List String) (i : ℕ) : FaultsOnly IsOfRow (address fields i) := by
  refine (faultsOnly_field fields i).bind fun text f h => ?_
  obtain ⟨cause, -, rfl⟩ := mapError_parseNumber_eq_error_iff.mp h
  trivial

lemma faultsOnly_coordinate (text : String) : FaultsOnly IsOfRow (coordinate text) := by
  intro f h
  obtain ⟨cause, -, rfl⟩ := coordinate_eq_error_iff.mp h
  trivial

lemma faultsOnly_located (country : String) (point : Point) : FaultsOnly IsOfRow (located country point) := by
  intro f h
  obtain ⟨-, rfl⟩ := located_eq_error_iff.mp h
  trivial

/-- Reading a row stops at faults of the row alone. -/
theorem faultsOnly_ofFields (fields : List String) : FaultsOnly IsOfRow (ofFields fields) := by
  unfold ofFields
  refine (faultsOnly_field fields _).bind fun latitudeText => ?_
  refine (faultsOnly_field fields _).bind fun longitudeText => ?_
  split
  · exact .ok none
  · refine (faultsOnly_address fields _).bind fun start => ?_
    refine (faultsOnly_address fields _).bind fun stop => ?_
    refine (faultsOnly_coordinate latitudeText).bind fun latitude => ?_
    refine (faultsOnly_coordinate longitudeText).bind fun longitude => ?_
    refine (faultsOnly_field fields _).bind fun country => ?_
    refine (faultsOnly_located country _).bind fun place => ?_
    exact .ok _

end Record

namespace Atlas

open GeoFault Record

variable {a : Atlas} {r : Record} {f cause : GeoFault} {fields : List String} {rows : List (List String)}
  {records : List Record} {items : List Item} {i n : ℕ}

lemma exists_part (r : Record) : (r.IsNarrow ∧ ∃ e, narrowPart? r = some e) ∨
    ¬r.IsNarrow ∧ ∃ e, widePart? r = some e := by
  rw [← Option.isSome_iff_exists, ← Option.isSome_iff_exists, isSome_narrowPart?_iff, isSome_widePart?_iff,
    and_self, and_self]
  exact em r.IsNarrow

/-- A record is refused by the table of its own width, and the fault says by which. -/
theorem ordering_of_fault_insert (h : (a.insert r).fault = some f) :
    (r.IsNarrow ∧ ∃ v, f = .narrowOrdering v) ∨ ¬r.IsNarrow ∧ ∃ v, f = .wideOrdering v := by
  rcases exists_part r with ⟨hr, e, he⟩ | ⟨hr, e, he⟩
  · rw [(insert_narrow he).1] at h
    obtain ⟨v, -, rfl⟩ := Option.map_eq_some_iff.mp h
    exact .inl ⟨hr, v, rfl⟩
  · rw [(insert_wide he).1] at h
    obtain ⟨v, -, rfl⟩ := Option.map_eq_some_iff.mp h
    exact .inr ⟨hr, v, rfl⟩

lemma ne_record_of_fault_insert (h : (a.insert r).fault = some cause) (j : ℕ) (other : GeoFault) :
    cause ≠ .record j other := by
  rcases ordering_of_fault_insert h with ⟨-, v, rfl⟩ | ⟨-, v, rfl⟩
  · simp
  · simp

lemma ne_record_of_rowFault? (h : a.rowFault? fields = some cause) (j : ℕ) (other : GeoFault) :
    cause ≠ .record j other := by
  unfold rowFault? at h
  cases hfields : ofFields fields with
  | error reason =>
    rw [hfields] at h
    obtain rfl := Option.some.inj h
    exact (faultsOnly_ofFields fields reason hfields).ne_record j other
  | ok described? =>
    rw [hfields] at h
    cases described? with
    | none => cases h
    | some r => exact ne_record_of_fault_insert h j other

lemma isOfRecord_of_itemFault? {item : Item} (h : a.itemFault? i item = some (.geo f)) : f.IsOfRecord := by
  cases item with
  | error reason => cases h
  | ok fields =>
    obtain ⟨cause, hcause, hf⟩ := Option.map_eq_some_iff.mp h
    obtain rfl := LoadFault.geo.inj hf
    exact ⟨i, cause, rfl, ne_record_of_rowFault? hcause⟩

lemma isOfRecord_of_extend {source : ByteSource} (h : (a.extend source).fault = some (.geo f)) :
    f.IsOfRecord := by
  rw [fault_extend, Load.fault_addItems_eq_some_iff] at h
  obtain ⟨k, ⟨item, -, hitem⟩, -⟩ := h
  exact isOfRecord_of_itemFault? hitem

lemma isOfRecord_of_ofRows (h : (ofRows rows).fault = some f) : f.IsOfRecord := by
  rw [fault_ofRows, Load.fault_addRows_eq_some_iff] at h
  obtain ⟨i, cause, rfl, ⟨fields, -, hcause⟩, -⟩ := h
  exact ⟨_, cause, rfl, ne_record_of_rowFault? hcause⟩

lemma isOfRecord_of_insertMany (h : (insertMany n a records).fault = some f) : f.IsOfRecord := by
  induction records generalizing n a with
  | nil => cases h
  | cons r records ih =>
    rw [insertMany] at h
    cases hfault : ((a.insert r).mapFault (GeoFault.record n)).fault with
    | some other =>
      rw [Outcome.andThen_of_fault hfault, hfault] at h
      obtain rfl := Option.some.inj h
      obtain ⟨cause, hcause, rfl⟩ := Option.map_eq_some_iff.mp hfault
      exact ⟨n, cause, rfl, ne_record_of_fault_insert hcause⟩
    | none =>
      rw [Outcome.andThen_of_none hfault] at h
      exact ih h

lemma isOfRecord_of_ofRecords (h : (ofRecords records).fault = some f) : f.IsOfRecord := by
  unfold ofRecords at h
  cases hfault : (insertMany 0 empty records).fault with
  | some other =>
    rw [Outcome.andThen_of_fault hfault] at h
    exact isOfRecord_of_insertMany h
  | none =>
    rw [Outcome.andThen_of_none hfault, trim_eq] at h
    cases h

end Atlas

open Atlas in
/-- Which faults each operation has: those of a row, those of the order of one table, and, around either of
these, the number of a record in a load. Files are loaded by `extend`, plain or compressed. -/
structure GeoFault.Reported : Prop where
  reading : ∀ fields f, Record.ofFields fields = .error f → f.IsOfRow
  insertion : ∀ (a : Atlas) (r : Record) f, (a.insert r).fault = some f →
    (r.IsNarrow ∧ ∃ v, f = .narrowOrdering v) ∨ ¬r.IsNarrow ∧ ∃ v, f = .wideOrdering v
  rows : ∀ rows f, (ofRows rows).result = .error f → f.IsOfRecord
  records : ∀ records f, (ofRecords records).result = .error f → f.IsOfRecord
  source : ∀ (a : Atlas) (source : ByteSource) f, (a.extend source).result = .error (.geo f) → f.IsOfRecord

lemma GeoFault.reported : Reported where
  reading := Record.faultsOnly_ofFields
  insertion := fun _ _ _ => Atlas.ordering_of_fault_insert
  rows := fun _ _ h => Atlas.isOfRecord_of_ofRows (Outcome.result_eq_error_iff.mp h)
  records := fun _ _ h => Atlas.isOfRecord_of_ofRecords (Outcome.result_eq_error_iff.mp h)
  source := fun _ _ _ h => Atlas.isOfRecord_of_extend (Outcome.result_eq_error_iff.mp h)

/-- Each operation has faults of its own kind, with the number of a record around them in loads and nowhere
else, and every fault that there is shows in its message and its chain what it comes from. -/
theorem GeoFault.reported_and_explained : Reported ∧ ∀ f : GeoFault, f.Explained :=
  ⟨reported, explained⟩

end AddressAtlas

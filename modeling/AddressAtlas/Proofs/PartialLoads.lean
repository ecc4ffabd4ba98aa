import AddressAtlas.Proofs.FileLoading

/-!
# Loads that stop

A load from a source is a load of rows up to the first item at fault, which is a failure of the reader or a
row that cannot be stored. A load that stops leaves the atlas as plain insertions would leave it, with the
room that they made, and one that comes to its end gives spare room back.
-/

namespace AddressAtlas

open Delimited Ledger RangeTable Record Text

/-- Room that is given back, or the counts at the end of a load. -/
def Event.IsOfEnd : Event → Prop
  | .trimmed _ | .loaded .. => True
  | _ => False

lemma Event.IsOfRow.not_isOfEnd {e : Event} (h : e.IsOfRow) : ¬e.IsOfEnd := by
  rcases h with ⟨index, rfl⟩ | ⟨capacity, rfl⟩
  · exact not_false
  · exact not_false

/-- The rows among the items of a source. -/
def Delimited.rowsOf (items : List Item) : List (List String) :=
  items.filterMap Except.toOption

lemma RangeTable.not_isOfEnd_of_mem_events_insert {w : Width} {t : RangeTable w} {e : Entry w} {event : Event}
    (h : event ∈ (t.insert e).events) : ¬event.IsOfEnd := by
  cases hobstacle : t.obstacle? e with
  | some last =>
    rw [insert_of_obstacle hobstacle] at h
    obtain rfl := List.mem_singleton.mp h
    exact not_false
  | none =>
    have hfault : (t.insert e).fault = none := by rw [insert_of_free hobstacle]
    exact Event.IsOfRow.not_isOfEnd (.inr (exists_grew_of_mem_events hfault event h))

namespace Atlas

/-- What is wrong with item `i` by itself, or with its record in an atlas. -/
def itemFault? (a : Atlas) (i : Nat) : Item → Option LoadFault
  | .error cause => some (.delimited cause)
  | .ok fields => (a.rowFault? fields).map fun cause => .geo (.record i cause)

/-- What is wrong with item `i` once the records of the rows before it are stored. -/
def ItemFault (a : Atlas) (items : List Item) (i : Nat) (f : LoadFault) : Prop :=
  ∃ item, items[i]? = some item ∧
    (a.insertAll (described (rowsOf (items.take i)))).itemFault? i item = some f

/-- What is wrong with item `i` when nothing is wrong with the items before it. -/
def FirstItemFault (a : Atlas) (items : List Item) (i : Nat) (f : LoadFault) : Prop :=
  a.ItemFault items i f ∧ ∀ j < i, ∀ other, ¬a.ItemFault items j other

/-- A load stops at item `k`: the records of the rows before it have been inserted one after the other, and
that is all. -/
structure StopsAt (a : Atlas) (items : List Item) (k : Nat) (o : Outcome Atlas LoadFault) : Prop where
  stored : ∀ other ∈ a.faults (described (rowsOf (items.take k))), other = none
  state : o.state = a.insertAll (described (rowsOf (items.take k)))
  events : ∀ event ∈ o.events, ¬event.IsOfEnd

variable {a : Atlas} {r : Record} {items : List Item} {k : Nat} {f : LoadFault}

lemma FirstItemFault.unique {k' : Nat} {f' : LoadFault} (h : a.FirstItemFault items k f)
    (h' : a.FirstItemFault items k' f') : k' = k ∧ f' = f := by
  rcases Nat.lt_trichotomy k' k with hlt | rfl | hgt
  · exact absurd h'.1 (h.2 k' hlt f')
  · obtain ⟨item, hitem, hf⟩ := h.1
    obtain ⟨item', hitem', hf'⟩ := h'.1
    obtain rfl := Option.some.inj (hitem.symm.trans hitem')
    exact ⟨rfl, Option.some.inj (hf'.symm.trans hf)⟩
  · exact absurd h.1 (h'.2 k hgt f)

/-- A row at fault is reported by its own number. -/
lemma ItemFault.index_eq {i : Nat} {cause : GeoFault} (h : a.ItemFault items k (.geo (.record i cause))) :
    k = i := by
  obtain ⟨item, -, hf⟩ := h
  cases item with
  | error other => cases hf
  | ok fields =>
    obtain ⟨other, -, hother⟩ := Option.map_eq_some_iff.mp hf
    cases hother
    rfl

/-- The items from `k` on have no part in what is wrong with the one at `i`. -/
lemma itemFault_take {i : Nat} (h : i < k) : a.ItemFault (items.take k) i f ↔ a.ItemFault items i f := by
  unfold ItemFault
  rw [List.getElem?_take_of_lt h, List.take_take, Nat.min_eq_left (Nat.le_of_lt h)]

lemma state_insert_of_refused (h : (a.insert r).fault ≠ none) : (a.insert r).state = a := by
  rcases parts_cases r with ⟨e, he, -⟩ | ⟨e, he, -⟩
  · rw [(insert_narrow he).1, Ne, Option.map_eq_none_iff, fault_insert_eq_none_iff_follows] at h
    rw [(insert_narrow he).2, (insert_of_not_follows h).2]
  · rw [(insert_wide he).1, Ne, Option.map_eq_none_iff, fault_insert_eq_none_iff_follows] at h
    rw [(insert_wide he).2, (insert_of_not_follows h).2]

lemma not_isOfEnd_of_mem_events_insert {event : Event} (h : event ∈ (a.insert r).events) :
    ¬event.IsOfEnd := by
  rcases parts_cases r with ⟨e, he, -⟩ | ⟨e, he, -⟩
  · rw [insert_of_narrow he] at h
    exact RangeTable.not_isOfEnd_of_mem_events_insert h
  · rw [insert_of_wide he] at h
    exact RangeTable.not_isOfEnd_of_mem_events_insert h

end Atlas

namespace Load

variable {l : Load} {fields : List String} {item : Item} {items : List Item} {k : Nat} {f : LoadFault}

/-- What a row may do to a load. -/
lemma addRow_cases (l : Load) (fields : List String) :
    (∃ cause, l.addRow fields = { state := l, fault := some (.record l.rows cause) }) ∨
      l.addRow fields =
        { state := { l with rows := l.rows + 1, skipped := l.skipped + 1 }, events := [.skipped l.rows] } ∨
      ∃ r, l.addRow fields =
        ((l.atlas.insert r).map fun a => { l with atlas := a, rows := l.rows + 1 }).mapFault
          (.record l.rows) := by
  unfold addRow
  cases ofFields fields with
  | error cause => exact .inl ⟨cause, rfl⟩
  | ok described? =>
    cases described? with
    | none => exact .inr (.inl rfl)
    | some r => exact .inr (.inr ⟨r, rfl⟩)

lemma atlas_addRow_of_fault (h : (l.addRow fields).fault ≠ none) :
    (l.addRow fields).state.atlas = l.atlas := by
  rcases l.addRow_cases fields with ⟨cause, hadd⟩ | hadd | ⟨r, hadd⟩
  · rw [hadd]
  · rw [hadd]
  · rw [hadd, Outcome.fault_mapFault, Ne, Option.map_eq_none_iff] at h
    rw [hadd]
    exact Atlas.state_insert_of_refused h

lemma not_isOfEnd_of_mem_events_addRow {event : Event} (h : event ∈ (l.addRow fields).events) :
    ¬event.IsOfEnd := by
  rcases l.addRow_cases fields with ⟨cause, hadd⟩ | hadd | ⟨r, hadd⟩
  · rw [hadd] at h
    cases h
  · rw [hadd] at h
    obtain rfl := List.mem_singleton.mp h
    exact not_false
  · rw [hadd] at h
    exact Atlas.not_isOfEnd_of_mem_events_insert h

lemma fault_addItem (l : Load) (item : Item) :
    (l.addItem item).fault = l.atlas.itemFault? l.rows item := by
  cases item with
  | error cause => rfl
  | ok fields =>
    unfold addItem Atlas.itemFault?
    rw [Outcome.fault_mapFault, fault_addRow, Option.map_map]
    rfl

/-- An item at fault leaves the atlas as it was. -/
lemma atlas_addItem_of_fault (h : (l.addItem item).fault = some f) :
    (l.addItem item).state.atlas = l.atlas := by
  cases item with
  | error cause => rfl
  | ok fields =>
    apply atlas_addRow_of_fault
    intro hnone
    rw [addItem, Outcome.fault_mapFault, hnone] at h
    cases h

lemma not_isOfEnd_of_mem_events_addItem {event : Event} (h : event ∈ (l.addItem item).events) :
    ¬event.IsOfEnd := by
  cases item with
  | error cause => cases h
  | ok fields => exact not_isOfEnd_of_mem_events_addRow h

lemma eq_map_rowsOf (h : (l.addItems items).fault = none) : items = (rowsOf items).map .ok := by
  have hok : ∀ item ∈ items, (Except.toOption item).map .ok = some item := by
    intro item hitem
    obtain ⟨k, hk⟩ := List.getElem?_of_mem hitem
    have hstep := (Outcome.fault_step_eq_none h hk).2
    cases item with
    | error cause => cases hstep
    | ok fields => rfl
  unfold rowsOf
  rw [List.map_filterMap, List.filterMap_congr hok, List.filterMap_some]

/-- Items that meet no fault are rows, and a load takes them in like rows. -/
theorem passes_addItems (h : (l.addItems items).fault = none) :
    Passes l (rowsOf items) (l.addRows (rowsOf items)) ∧
      l.addItems items = (l.addRows (rowsOf items)).mapFault .geo := by
  have hitems := eq_map_rowsOf h
  have hload : l.addItems items = (l.addRows (rowsOf items)).mapFault .geo := by
    rw [← addItems_map_ok, ← hitems]
  rw [hload, Outcome.fault_mapFault, Option.map_eq_none_iff] at h
  exact ⟨passes_addRows h, hload⟩

/-- Behind items that meet no fault, the next one is judged by the records of the rows before it. -/
lemma fault_addItem_behind {a : Atlas} (h : (addItems ⟨a, 0, 0⟩ (items.take k)).fault = none)
    (hitem : items[k]? = some item) :
    ((addItems ⟨a, 0, 0⟩ (items.take k)).state.addItem item).fault =
      (a.insertAll (described (rowsOf (items.take k)))).itemFault? k item := by
  have hlength : (rowsOf (items.take k)).length = k := by
    have hmap := congrArg List.length (eq_map_rowsOf h)
    have hk := (List.getElem?_eq_some_iff.mp hitem).1
    rw [List.length_map, List.length_take, Nat.min_eq_left (Nat.le_of_lt hk)] at hmap
    exact hmap.symm
  obtain ⟨hpasses, hload⟩ := passes_addItems h
  rw [hload, Outcome.state_mapFault, hpasses.state, fault_addItem, through, hlength, Nat.zero_add]

lemma not_itemFault_of_passes {a : Atlas} (h : (addItems ⟨a, 0, 0⟩ items).fault = none) :
    ¬a.ItemFault items k f := by
  rintro ⟨item, hitem, hf⟩
  obtain ⟨hbefore, hstep⟩ := Outcome.fault_step_eq_none h hitem
  rw [← fault_addItem_behind hbefore hitem] at hf
  exact Option.some_ne_none f (hf.symm.trans hstep)

lemma exists_stopping_item (h : (l.addItems items).fault = some f) : ∃ k item, items[k]? = some item ∧
    (l.addItems (items.take k)).fault = none ∧ ((l.addItems (items.take k)).state.addItem item).fault = some f ∧
      l.addItems items = (l.addItems (items.take k)).andThen (addItem · item) :=
  Outcome.exists_fold_eq_of_fault h

/-- The item that stops a load is the first one at fault, and the records of the rows before it are kept. -/
theorem exists_stopsAt {a : Atlas} (h : (addItems ⟨a, 0, 0⟩ items).fault = some f) :
    ∃ k, a.FirstItemFault items k f ∧ a.StopsAt items k ((addItems ⟨a, 0, 0⟩ items).map Load.atlas) := by
  obtain ⟨k, item, hitem, hbefore, hstep, hload⟩ := exists_stopping_item h
  obtain ⟨hpasses, hrows⟩ := passes_addItems hbefore
  refine ⟨k, ⟨⟨item, hitem, ?_⟩, ?_⟩, hpasses.stored, ?_, ?_⟩
  · exact (fault_addItem_behind hbefore hitem).symm.trans hstep
  · intro j hj other hother
    exact not_itemFault_of_passes hbefore ((Atlas.itemFault_take hj).mpr hother)
  · change (addItems ⟨a, 0, 0⟩ items).state.atlas = _
    rw [hload, Outcome.state_andThen_of_none hbefore, atlas_addItem_of_fault hstep, hrows,
      Outcome.state_mapFault, hpasses.state, through]
  · intro event hevent
    change event ∈ (addItems ⟨a, 0, 0⟩ items).events at hevent
    rw [hload, Outcome.andThen_of_none hbefore, hrows] at hevent
    rcases List.mem_append.mp hevent with hrow | hlast
    · exact (hpasses.events event hrow).not_isOfEnd
    · exact not_isOfEnd_of_mem_events_addItem hlast

/-- A load from a source stops at the first item at fault. -/
theorem fault_addItems_eq_some_iff {a : Atlas} :
    (addItems ⟨a, 0, 0⟩ items).fault = some f ↔ ∃ k, a.FirstItemFault items k f := by
  constructor
  · intro h
    obtain ⟨k, hfirst, -⟩ := exists_stopsAt h
    exact ⟨k, hfirst⟩
  · rintro ⟨k, hk⟩
    cases hfault : (addItems ⟨a, 0, 0⟩ items).fault with
    | none => exact absurd hk.1 (not_itemFault_of_passes hfault)
    | some g =>
      obtain ⟨j, hj, -⟩ := exists_stopsAt hfault
      rw [(hk.unique hj).2]

end Load

namespace Atlas

variable {a b : Atlas} {source : ByteSource} {items : List Item} {rows : List (List String)} {k : Nat}
  {f : LoadFault}

/-- Adds rows and gives spare room back. -/
def extendRows (a : Atlas) (rows : List (List String)) : Outcome Atlas GeoFault :=
  ((Load.addRows ⟨a, 0, 0⟩ rows).andThen Load.finish).map Load.atlas

lemma fault_extendRows (a : Atlas) (rows : List (List String)) :
    (a.extendRows rows).fault = (Load.addRows ⟨a, 0, 0⟩ rows).fault :=
  Load.fault_andThen_finish _

lemma state_extendRows (h : (Load.addRows ⟨a, 0, 0⟩ rows).fault = none) :
    (a.extendRows rows).state = (a.insertAll (described rows)).fitted := by
  rw [extendRows, Load.andThen_finish_of_passes (Load.passes_addRows h) h]
  rfl

/-- Where the reader yields rows and nothing else, a source is loaded like the rows. -/
theorem extend_eq_extendRows (h : Delimited.items source = rows.map .ok) :
    a.extend source = (a.extendRows rows).mapFault .geo := by
  have hload : ((Load.addItems ⟨a, 0, 0⟩ (rows.map .ok)).andThen Load.finish) =
      ((Load.addRows ⟨a, 0, 0⟩ rows).andThen Load.finish).mapFault .geo := by
    rw [Load.addItems_map_ok, Outcome.mapFault_andThen]
    simp only [Load.mapFault_finish]
  rw [extend, h, hload]
  rfl

/-- A load of items behind the records of an atlas fails exactly if the reader fails, a row cannot be read,
or its record is out of order behind those of the atlas and of the rows before. The first such item is
reported, by its number in this load if it is a row. -/
structure LoadsItems (a : Atlas) (items : List Item) (o : Outcome Atlas LoadFault) : Prop where
  fails_iff : (∃ f, o.result = .error f) ↔ ∃ k item, items[k]? = some item ∧
    ((∃ cause, item = .error cause) ∨ ∃ fields, item = .ok fields ∧
      ((∃ cause, ofFields fields = .error cause) ∨ ∃ r, ofFields fields = .ok (some r) ∧
        (a.insertAll (described (rowsOf (items.take k)))).OutOfOrder r))
  error_iff : ∀ f, o.result = .error f ↔ ∃ k, a.FirstItemFault items k f
  stops : ∀ k f, a.FirstItemFault items k f → a.StopsAt items k o
  stores : ∀ b, o.result = .ok b → (∀ f ∈ a.faults (described (rowsOf items)), f = none) ∧
    b = (a.insertAll (described (rowsOf items))).fitted ∧ b.narrow.capacity = b.narrow.size ∧
      b.wide.capacity = b.wide.size

lemma itemFault?_ne_none_iff {item : Item} : a.itemFault? k item ≠ none ↔ (∃ cause, item = .error cause) ∨
    ∃ fields, item = .ok fields ∧ ((∃ cause, ofFields fields = .error cause) ∨
      ∃ r, ofFields fields = .ok (some r) ∧ a.OutOfOrder r) := by
  cases item with
  | error cause => simp [itemFault?]
  | ok fields => simp [itemFault?, ← rowFault?_ne_none_iff]

lemma exists_itemFault_iff : (∃ k f, a.ItemFault items k f) ↔ ∃ k item, items[k]? = some item ∧
    ((∃ cause, item = .error cause) ∨ ∃ fields, item = .ok fields ∧
      ((∃ cause, ofFields fields = .error cause) ∨ ∃ r, ofFields fields = .ok (some r) ∧
        (a.insertAll (described (rowsOf (items.take k)))).OutOfOrder r)) := by
  unfold ItemFault
  refine exists_congr fun k => ?_
  rw [exists_comm]
  refine exists_congr fun item => ?_
  rw [exists_and_left, ← itemFault?_ne_none_iff, Option.ne_none_iff_exists']

lemma fault_extend (a : Atlas) (source : ByteSource) :
    (a.extend source).fault = (Load.addItems ⟨a, 0, 0⟩ (Delimited.items source)).fault :=
  Load.fault_andThen_finish _

lemma extend_of_fault (h : (a.extend source).fault = some f) :
    a.extend source = (Load.addItems ⟨a, 0, 0⟩ (Delimited.items source)).map Load.atlas := by
  rw [fault_extend] at h
  rw [extend, Outcome.andThen_of_fault h]

lemma state_extend_of_passes (h : (a.extend source).fault = none) :
    (∀ f ∈ a.faults (described (rowsOf (Delimited.items source))), f = none) ∧
      (a.extend source).state = (a.insertAll (described (rowsOf (Delimited.items source)))).fitted := by
  rw [fault_extend] at h
  have hrows := extend_eq_extendRows (a := a) (Load.eq_map_rowsOf h)
  obtain ⟨hpasses, hload⟩ := Load.passes_addItems h
  rw [hload, Outcome.fault_mapFault, Option.map_eq_none_iff] at h
  rw [hrows, Outcome.state_mapFault, state_extendRows h]
  exact ⟨hpasses.stored, rfl⟩

/-- A source is loaded up to the first item at fault, or as a whole. -/
theorem loadsItems_extend (a : Atlas) (source : ByteSource) :
    LoadsItems a (Delimited.items source) (a.extend source) := by
  have herror : ∀ f, (a.extend source).result = .error f ↔
      ∃ k, a.FirstItemFault (Delimited.items source) k f := by
    intro f
    rw [Outcome.result_eq_error_iff, fault_extend, Load.fault_addItems_eq_some_iff]
  refine ⟨?_, herror, ?_, ?_⟩
  · rw [← exists_itemFault_iff]
    constructor
    · rintro ⟨f, hf⟩
      obtain ⟨k, hk⟩ := (herror f).mp hf
      exact ⟨k, f, hk.1⟩
    · rintro ⟨k, f, hk⟩
      simp only [Outcome.result_eq_error_iff]
      rw [← Option.ne_none_iff_exists', fault_extend]
      intro hnone
      exact Load.not_itemFault_of_passes hnone hk
  · intro k f hk
    have hfault := Outcome.result_eq_error_iff.mp ((herror f).mpr ⟨k, hk⟩)
    have hload := extend_of_fault hfault
    rw [fault_extend] at hfault
    obtain ⟨j, hj, hstops⟩ := Load.exists_stopsAt hfault
    obtain ⟨rfl, -⟩ := hk.unique hj
    rwa [hload]
  · intro b hb
    obtain ⟨hfault, rfl⟩ := Outcome.result_eq_ok_iff.mp hb
    obtain ⟨hstored, hstate⟩ := state_extend_of_passes hfault
    refine ⟨hstored, hstate, ?_, ?_⟩
    · rw [hstate]
      rfl
    · rw [hstate]
      rfl

/-- A load that fails stops at the first item at fault, which is counted among the rows of this load without
the empty lines, and has no effect but that the records before are inserted. A load of a new atlas that fails
results in the fault alone. -/
theorem extend_stops_at_first_fault (a : Atlas) (source : ByteSource) :
    LoadsItems a (Delimited.items source) (a.extend source) ∧
      (∀ rows text, SpellsFile rows text → source = { bytes := encodeUtf8 text } →
        Delimited.items source = rows.map .ok) ∧
      ∀ bytes f, (ofPlain bytes).result = .error f ↔
        ∃ k, empty.FirstItemFault (Delimited.items { bytes }) k f := by
  refine ⟨loadsItems_extend a source, ?_, ?_⟩
  · rintro rows text htext rfl
    exact items_of_spells htext
  · intro bytes
    exact (loadsItems_extend empty { bytes }).error_iff

/-- A row without coordinates, a row that is stored, and a row that is too short. -/
def brokenRows : List (List String) :=
  [["7", "9", "AU", "", "", "", "", "", ""], ["7", "9", "AU", "", "", "", "", "1", "2"], ["7", "9", "AU"]]

/-- Empty lines stand before, between and behind the rows. -/
def brokenFile : List Char :=
  "\n7,9,AU,,,,,,\n\r\n\n7,9,AU,,,,,1,2\n\n7,9,AU\n\n".toList

theorem brokenFile_stops : SpellsFile brokenRows brokenFile ∧
    (empty.extendPlain (encodeUtf8 brokenFile)).result = .error (.geo (.record 2 (.missingField 7))) ∧
    (empty.extendPlain (encodeUtf8 brokenFile)).state.narrow.size = 1 ∧
    (empty.extendPlain (encodeUtf8 brokenFile)).state.narrow.capacity = 16 ∧
    (ofPlain (encodeUtf8 brokenFile)).result = .error (.geo (.record 2 (.missingField 7))) := by
  have hplain : ∀ row ∈ brokenRows, ∀ field ∈ row, IsPlain field := by decide
  have hskipped := spellsRow_bareText (hplain _ (List.mem_of_getElem? (i := 0) rfl))
  have hstored := spellsRow_bareText (hplain _ (List.mem_of_getElem? (i := 1) rfl))
  have hshort := spellsRow_bareText (hplain _ (List.mem_of_getElem? (i := 2) rfl))
  have hempty : EmptyLines ['\n'] := IsLineEnd.emptyLines (.inl rfl)
  have hreturn : EmptyLines ['\r', '\n'] := IsLineEnd.emptyLines (.inr (.inr rfl))
  have hrows := SpellsRows.cons hempty hskipped (.inl rfl) (.cons (hreturn.append hempty) hstored (.inl rfl)
    (.cons hempty hshort (.inl rfl) (.nil hempty)))
  have hfile : SpellsFile brokenRows brokenFile := .inl hrows
  obtain ⟨hloads, hitems, hnew⟩ :=
    extend_stops_at_first_fault empty { bytes := encodeUtf8 brokenFile }
  have hitems := hitems brokenRows brokenFile hfile rfl
  have herror : (empty.extend { bytes := encodeUtf8 brokenFile }).result =
      .error (.geo (.record 2 (.missingField 7))) := by
    rw [Outcome.result_eq_error_iff, extend_eq_extendRows hitems]
    decide
  obtain ⟨k, hk⟩ := (hloads.error_iff _).mp herror
  obtain rfl := hk.1.index_eq
  have hstate := (hloads.stops 2 _ hk).state
  rw [hitems] at hstate
  refine ⟨hfile, herror, ?_, ?_, (hnew _ _).mpr ⟨2, hk⟩⟩
  · rw [extendPlain, hstate]
    decide
  · rw [extendPlain, hstate]
    decide

end Atlas

end AddressAtlas

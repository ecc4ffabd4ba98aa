import AddressAtlas.Atlas.Rows
import AddressAtlas.Proofs.Insertions
import Mathlib.Data.Nat.Find

/-!
# Loads of rows

A row describes a record, lacks coordinates, or is at fault, by itself or by where it stands. A load
stores the records in order, reports the rows that lack coordinates, and stops at the first fault.
-/

namespace AddressAtlas

open Ledger RangeTable

namespace Record

/-- Both coordinates are there, and one of them is empty. -/
def LacksCoordinates (fields : List String) : Prop :=
  ∃ latitude ∈ fields[latitudeField]?, ∃ longitude ∈ fields[longitudeField]?,
    latitude = "" ∨ longitude = ""

instance : DecidablePred LacksCoordinates := fun fields =>
  inferInstanceAs (Decidable (∃ latitude ∈ fields[latitudeField]?,
    ∃ longitude ∈ fields[longitudeField]?, latitude = "" ∨ longitude = ""))

/-- The records that rows describe. -/
def described (rows : List (List String)) : List Record :=
  rows.filterMap fun fields => (ofFields fields).toOption.join

/-- The positions of the rows without coordinates, the first row being number `n`. -/
def passedOver (n : Nat) (rows : List (List String)) : List Nat :=
  ((rows.zipIdx n).filter fun row => LacksCoordinates row.1).map Prod.snd

variable {fields : List String} {rows : List (List String)} {r : Record} {n : Nat}

lemma bind_ne_ok {ε α β : Type} {x : Except ε α} {f : α → Except ε β} {b : β} (h : ∀ a, f a ≠ .ok b) :
    (x >>= f) ≠ .ok b := by
  cases x with
  | error e =>
    intro heq
    cases heq
  | ok a => exact h a

theorem ofFields_eq_none_iff : ofFields fields = .ok none ↔ LacksCoordinates fields := by
  have hbind : ∀ (text : String) (f : String → Except GeoFault (Option Record)),
      ((.ok text : Except GeoFault String) >>= f) = f text := fun _ _ => rfl
  unfold ofFields LacksCoordinates field
  cases fields[latitudeField]? with
  | none => simp [bind, Except.bind]
  | some latitude =>
    cases fields[longitudeField]? with
    | none => simp [bind, Except.bind]
    | some longitude =>
      simp only [hbind, Option.mem_def, Option.some.injEq, exists_eq_left']
      by_cases hempty : latitude = "" ∨ longitude = ""
      · simp [hempty, pure, Except.pure]
      · have hne : ¬(latitude.isEmpty || longitude.isEmpty) = true := by simpa using hempty
        rw [if_neg hne, iff_false_intro hempty, iff_false]
        -- A row whose coordinates are not empty is at fault, or ends in a record.
        refine bind_ne_ok fun start => bind_ne_ok fun stop => bind_ne_ok fun x => bind_ne_ok fun y =>
          bind_ne_ok fun country => bind_ne_ok fun place => ?_
        intro heq
        cases heq

lemma described_append (rows more : List (List String)) :
    described (rows ++ more) = described rows ++ described more :=
  List.filterMap_append

lemma described_cons (fields : List String) (rows : List (List String)) :
    described (fields :: rows) = described [fields] ++ described rows :=
  described_append [fields] rows

lemma described_singleton_of_none (h : ofFields fields = .ok none) : described [fields] = [] := by
  simp [described, h, Except.toOption]

lemma described_singleton_of_some (h : ofFields fields = .ok (some r)) : described [fields] = [r] := by
  simp [described, h, Except.toOption]

lemma passedOver_cons (n : Nat) (fields : List String) (rows : List (List String)) :
    passedOver n (fields :: rows) = passedOver n [fields] ++ passedOver (n + 1) rows := by
  unfold passedOver
  rw [← List.singleton_append, List.zipIdx_append, List.filter_append, List.map_append]
  rfl

lemma passedOver_singleton (n : Nat) (fields : List String) :
    passedOver n [fields] = if LacksCoordinates fields then [n] else [] := by
  unfold passedOver
  by_cases h : LacksCoordinates fields
  · simp [h]
  · simp [h]

lemma length_passedOver (n : Nat) (rows : List (List String)) :
    (passedOver n rows).length = rows.countP (LacksCoordinates ·) := by
  induction rows generalizing n with
  | nil => rfl
  | cons fields rows ih =>
    rw [passedOver_cons, passedOver_singleton, List.length_append, ih, List.countP_cons, Nat.add_comm]
    by_cases h : LacksCoordinates fields
    · simp [h]
    · simp [h]

lemma pairwise_passedOver (n : Nat) (rows : List (List String)) :
    (passedOver n rows).Pairwise (· < ·) := by
  have hsub : (passedOver n rows).Sublist ((rows.zipIdx n).map Prod.snd) :=
    (List.filter_sublist).map Prod.snd
  rw [List.zipIdx_map_snd] at hsub
  exact List.Pairwise.sublist hsub List.pairwise_lt_range'

lemma mem_passedOver_iff {i : Nat} : i ∈ passedOver 0 rows ↔
    ∃ fields, rows[i]? = some fields ∧ LacksCoordinates fields := by
  unfold passedOver
  simp only [List.mem_map, List.mem_filter, List.mem_zipIdx_iff_getElem?, decide_eq_true_eq]
  constructor
  · rintro ⟨⟨fields, j⟩, ⟨hget, hlacks⟩, rfl⟩
    exact ⟨fields, hget, hlacks⟩
  · rintro ⟨fields, hget, hlacks⟩
    exact ⟨(fields, i), ⟨hget, hlacks⟩, rfl⟩

end Record

namespace Atlas

open Record

/-- The range of a record does not start behind the last one of its own table. -/
def OutOfOrder (a : Atlas) (r : Record) : Prop :=
  (∃ e, narrowPart? r = some e ∧ ¬Follows a.narrow.entries e) ∨
    ∃ e, widePart? r = some e ∧ ¬Follows a.wide.entries e

/-- What is wrong with a row by itself, or with its record in an atlas. -/
def rowFault? (a : Atlas) (fields : List String) : Option GeoFault :=
  match ofFields fields with
  | .error cause => some cause
  | .ok none => none
  | .ok (some r) => (a.insert r).fault

/-- What is wrong with row `i` once the records of the rows before it are stored. -/
def RowFault (a : Atlas) (rows : List (List String)) (i : Nat) (cause : GeoFault) : Prop :=
  ∃ fields, rows[i]? = some fields ∧
    (a.insertAll (described (rows.take i))).rowFault? fields = some cause

/-- What is wrong with row `i` when nothing is wrong with the rows before it. -/
def FirstFault (a : Atlas) (rows : List (List String)) (i : Nat) (cause : GeoFault) : Prop :=
  a.RowFault rows i cause ∧ ∀ j < i, ∀ other, ¬a.RowFault rows j other

variable {a : Atlas} {r : Record} {fields : List String} {rows : List (List String)} {i : Nat}
  {cause : GeoFault}

lemma fault_insert_eq_none_iff : (a.insert r).fault = none ↔ ¬a.OutOfOrder r := by
  unfold OutOfOrder
  rcases parts_cases r with ⟨e, he, hnone⟩ | ⟨e, he, hnone⟩
  · rw [(insert_narrow he).1, Option.map_eq_none_iff, RangeTable.fault_insert_eq_none_iff_follows]
    simp [he, hnone]
  · rw [(insert_wide he).1, Option.map_eq_none_iff, RangeTable.fault_insert_eq_none_iff_follows]
    simp [he, hnone]

lemma rowFault?_ne_none_iff : a.rowFault? fields ≠ none ↔
    (∃ cause, ofFields fields = .error cause) ∨
      ∃ r, ofFields fields = .ok (some r) ∧ a.OutOfOrder r := by
  unfold rowFault?
  cases ofFields fields with
  | error cause => simp
  | ok described? =>
    cases described? with
    | none => simp
    | some r => simp [fault_insert_eq_none_iff]

lemma rowFault?_eq_none_iff : a.rowFault? fields = none ↔
    (∃ described?, ofFields fields = .ok described?) ∧ ∀ f ∈ a.faults (described [fields]), f = none := by
  unfold rowFault?
  cases hfields : ofFields fields with
  | error cause => simp
  | ok described? =>
    cases described? with
    | none => simp [described_singleton_of_none hfields, faults]
    | some r => simp [described_singleton_of_some hfields, faults]

lemma rowFault_zero : a.RowFault (fields :: rows) 0 cause ↔ a.rowFault? fields = some cause := by
  unfold RowFault
  simp [described, insertAll]

lemma rowFault_succ : a.RowFault (fields :: rows) (i + 1) cause ↔
    (a.insertAll (described [fields])).RowFault rows i cause := by
  unfold RowFault
  rw [List.getElem?_cons_succ, List.take_succ_cons, described_cons, insertAll_append]

lemma firstFault_zero : a.FirstFault (fields :: rows) 0 cause ↔ a.rowFault? fields = some cause := by
  unfold FirstFault
  simp [rowFault_zero]

lemma firstFault_succ : a.FirstFault (fields :: rows) (i + 1) cause ↔
    a.rowFault? fields = none ∧ (a.insertAll (described [fields])).FirstFault rows i cause := by
  unfold FirstFault
  rw [rowFault_succ, Nat.forall_lt_succ_left]
  simp only [rowFault_zero, rowFault_succ, ← Option.eq_none_iff_forall_ne_some]
  exact and_left_comm

lemma firstFault_cons_of_some {other : GeoFault} (h : a.rowFault? fields = some cause) :
    a.FirstFault (fields :: rows) i other ↔ i = 0 ∧ other = cause := by
  cases i with
  | zero => rw [firstFault_zero, h, Option.some_inj, eq_comm, and_iff_right rfl]
  | succ i => simp [firstFault_succ, h]

lemma firstFault_cons_of_none (h : a.rowFault? fields = none) : a.FirstFault (fields :: rows) i cause ↔
    ∃ j, i = j + 1 ∧ (a.insertAll (described [fields])).FirstFault rows j cause := by
  cases i with
  | zero => simp [firstFault_zero, h]
  | succ i => simp [firstFault_succ, h]

lemma exists_firstFault (h : ∃ i cause, a.RowFault rows i cause) :
    ∃ i cause, a.FirstFault rows i cause := by
  classical
  obtain ⟨cause, hcause⟩ := Nat.find_spec h
  exact ⟨Nat.find h, cause, hcause, fun j hj other hother => Nat.find_min h hj ⟨other, hother⟩⟩

end Atlas

/-- The number of a row that is reported as passed over. -/
def Event.skippedRow? : Event → Option Nat
  | .skipped index => some index
  | _ => none

/-- Rows that are taken in report no more than that they are passed over, or that a table grows. -/
def Event.IsOfRow (e : Event) : Prop :=
  (∃ index, e = .skipped index) ∨ ∃ capacity, e = .grew capacity

namespace Load

open Record

variable {l : Load} {fields : List String} {rows : List (List String)}

/-- A load after rows that meet no fault. -/
def through (l : Load) (rows : List (List String)) : Load :=
  ⟨l.atlas.insertAll (described rows), l.rows + rows.length, l.skipped + (passedOver l.rows rows).length⟩

lemma fault_addRow (l : Load) (fields : List String) :
    (l.addRow fields).fault = (l.atlas.rowFault? fields).map (.record l.rows) := by
  unfold addRow Atlas.rowFault?
  cases ofFields fields with
  | error cause => rfl
  | ok described? =>
    cases described? with
    | none => rfl
    | some r => rfl

/-- What becomes of a load when rows meet no fault. -/
structure Passes (l : Load) (rows : List (List String)) (o : Outcome Load GeoFault) : Prop where
  state : o.state = l.through rows
  skipped : o.events.filterMap Event.skippedRow? = passedOver l.rows rows
  events : ∀ event ∈ o.events, event.IsOfRow
  stored : ∀ f ∈ l.atlas.faults (described rows), f = none
  size : (l.through rows).atlas.size + (passedOver l.rows rows).length = l.atlas.size + rows.length

lemma passes_addRow_of_none (h : ofFields fields = .ok none) : Passes l [fields] (l.addRow fields) := by
  have hdescribed := described_singleton_of_none h
  have hpassed : passedOver l.rows [fields] = [l.rows] := by
    rw [passedOver_singleton, if_pos (ofFields_eq_none_iff.mp h)]
  rw [addRow, h]
  exact {
    state := by rw [through, hdescribed, hpassed]; rfl
    skipped := hpassed.symm
    events := fun event hevent => .inl ⟨_, List.mem_singleton.mp hevent⟩
    stored := by
      rw [hdescribed]
      exact fun f hf => absurd hf List.not_mem_nil
    size := by rw [through, hdescribed, hpassed]; rfl }

lemma passes_addRow_of_some {r : Record} (h : ofFields fields = .ok (some r))
    (hfault : (l.atlas.insert r).fault = none) : Passes l [fields] (l.addRow fields) := by
  have hdescribed := described_singleton_of_some h
  have hpassed : passedOver l.rows [fields] = [] := by
    rw [passedOver_singleton, if_neg]
    rw [← ofFields_eq_none_iff, h]
    simp
  have hgrew := Atlas.exists_grew_of_mem_events hfault
  rw [addRow, h]
  exact {
    state := by rw [through, hdescribed, hpassed]; rfl
    skipped := by
      rw [hpassed, List.filterMap_eq_nil_iff]
      intro event hevent
      obtain ⟨capacity, rfl⟩ := hgrew event hevent
      rfl
    events := fun event hevent => .inr (hgrew event hevent)
    stored := by
      rw [hdescribed]
      exact fun f hf => (List.mem_singleton.mp hf).trans hfault
    size := by
      rw [through, hdescribed, hpassed]
      exact Atlas.size_insert hfault }

lemma passes_addRow (h : (l.addRow fields).fault = none) : Passes l [fields] (l.addRow fields) := by
  rw [fault_addRow, Option.map_eq_none_iff, Atlas.rowFault?] at h
  cases hfields : ofFields fields with
  | error cause =>
    rw [hfields] at h
    cases h
  | ok described? =>
    rw [hfields] at h
    cases described? with
    | none => exact passes_addRow_of_none hfields
    | some r => exact passes_addRow_of_some hfields h

lemma through_cons (l : Load) (fields : List String) (rows : List (List String)) :
    l.through (fields :: rows) = (l.through [fields]).through rows := by
  unfold through
  rw [described_cons, Atlas.insertAll_append, passedOver_cons, List.length_append, List.length_cons,
    List.length_singleton, Nat.add_comm rows.length, Nat.add_assoc, Nat.add_assoc]

lemma Passes.cons {o o' : Outcome Load GeoFault} (h : Passes l [fields] o)
    (h' : Passes (l.through [fields]) rows o') :
    Passes l (fields :: rows) { o' with events := o.events ++ o'.events } where
  state := h'.state.trans (through_cons l fields rows).symm
  skipped := by
    rw [List.filterMap_append, h.skipped, h'.skipped, passedOver_cons l.rows fields rows]
    rfl
  events := fun event hevent => (List.mem_append.mp hevent).elim (h.events event) (h'.events event)
  stored := by
    rw [described_cons, Atlas.faults_append]
    exact fun f hf => (List.mem_append.mp hf).elim (h.stored f) (h'.stored f)
  size := by
    have hfirst := h.size
    have hrest := h'.size
    have hrows : (l.through [fields]).rows = l.rows + 1 := rfl
    rw [hrows] at hrest
    rw [through_cons, passedOver_cons, List.length_append, List.length_cons]
    rw [List.length_singleton] at hfirst
    omega

/-- Row by row, a load passes through rows that meet no fault. -/
theorem passes_addRows (h : (l.addRows rows).fault = none) : Passes l rows (l.addRows rows) := by
  unfold addRows at h ⊢
  induction rows generalizing l with
  | nil =>
    exact {
      state := rfl
      skipped := rfl
      events := fun event hevent => absurd hevent List.not_mem_nil
      stored := fun f hf => absurd hf List.not_mem_nil
      size := rfl }
  | cons fields rows ih =>
    rw [Outcome.fold_cons] at h ⊢
    obtain ⟨hfirst, hrest⟩ := Outcome.fault_andThen_eq_none_iff.mp h
    have hstep := passes_addRow hfirst
    rw [Outcome.andThen_of_none hfirst, hstep.state]
    rw [hstep.state] at hrest
    exact hstep.cons (ih hrest)

/-- A load meets no fault exactly if all rows can be read and none of their records is refused. -/
theorem fault_addRows_eq_none_iff : (l.addRows rows).fault = none ↔
    (∀ fields ∈ rows, ∃ described?, ofFields fields = .ok described?) ∧
      ∀ f ∈ l.atlas.faults (described rows), f = none := by
  unfold addRows
  induction rows generalizing l with
  | nil => simp [described, Atlas.faults, Outcome.idle]
  | cons fields rows ih =>
    have hrest : ∀ h : (l.addRow fields).fault = none,
        (Outcome.fold addRow (l.addRow fields).state rows).fault = none ↔
          (∀ fields ∈ rows, ∃ described?, ofFields fields = .ok described?) ∧
            ∀ f ∈ (l.atlas.insertAll (described [fields])).faults (described rows), f = none := by
      intro h
      rw [(passes_addRow h).state, ih]
      rfl
    rw [Outcome.fold_cons, Outcome.fault_andThen_eq_none_iff, and_congr_right hrest, fault_addRow,
      Option.map_eq_none_iff, Atlas.rowFault?_eq_none_iff, List.forall_mem_cons, described_cons fields rows,
      Atlas.faults_append, List.forall_mem_append, and_and_and_comm]

/-- A load stops at the first row at fault. -/
theorem fault_addRows_eq_some_iff {f : GeoFault} : (l.addRows rows).fault = some f ↔
    ∃ i cause, f = .record (l.rows + i) cause ∧ l.atlas.FirstFault rows i cause := by
  unfold addRows
  induction rows generalizing l with
  | nil =>
    simp only [Outcome.fold_nil, Outcome.idle, reduceCtorEq, false_iff]
    rintro ⟨i, cause, -, ⟨fields, hfields, -⟩, -⟩
    cases hfields
  | cons fields rows ih =>
    have hfirst := fault_addRow l fields
    rw [Outcome.fold_cons]
    -- A fault in the first row is the first one; behind any other row positions move up by one.
    cases hfault : l.atlas.rowFault? fields with
    | some cause =>
      rw [hfault, Option.map_some] at hfirst
      rw [Outcome.andThen_of_fault hfirst, hfirst]
      simp only [Atlas.firstFault_cons_of_some hfault]
      constructor
      · intro hf
        exact ⟨0, cause, (Option.some.inj hf).symm, rfl, rfl⟩
      · rintro ⟨i, other, rfl, rfl, rfl⟩
        rfl
    | none =>
      rw [hfault, Option.map_none] at hfirst
      have hrows : ∀ i, (l.through [fields]).rows + i = l.rows + (i + 1) := fun i =>
        Nat.add_right_comm l.rows 1 i
      rw [Outcome.andThen_of_none hfirst, (passes_addRow hfirst).state]
      refine ih.trans ⟨?_, ?_⟩
      · rintro ⟨i, cause, rfl, hi⟩
        exact ⟨i + 1, cause, by rw [hrows], (Atlas.firstFault_cons_of_none hfault).mpr ⟨i, rfl, hi⟩⟩
      · rintro ⟨i, cause, rfl, hi⟩
        obtain ⟨j, rfl, hj⟩ := (Atlas.firstFault_cons_of_none hfault).mp hi
        exact ⟨j, cause, by rw [hrows], hj⟩

lemma finish_eq {ε : Type} (l : Load) : (l.finish : Outcome Load ε) =
    { state := { l with atlas := l.atlas.fitted }
      events := l.atlas.trimEvents ++ [.loaded l.atlas.narrow.size l.atlas.wide.size l.skipped] } := by
  unfold finish
  rw [Atlas.trim_eq]
  rfl

lemma fault_andThen_finish {ε : Type} (o : Outcome Load ε) : (o.andThen finish).fault = o.fault := by
  cases h : o.fault with
  | some f => rw [Outcome.andThen_of_fault h, h]
  | none => rw [Outcome.andThen_of_none h, finish_eq]

lemma andThen_finish_of_passes {o : Outcome Load GeoFault} (h : Passes l rows o) (hfault : o.fault = none) :
    o.andThen finish =
      { state := { l.through rows with atlas := (l.through rows).atlas.fitted }
        events := o.events ++ ((l.through rows).atlas.trimEvents ++
          [.loaded (l.through rows).atlas.narrow.size (l.through rows).atlas.wide.size
            (l.through rows).skipped]) } := by
  rw [Outcome.andThen_of_none hfault, h.state, finish_eq]

end Load

namespace Atlas

open Record

/-- An atlas holds the records of rows without spare room, and the events say so: rows that are passed
over are named, then comes the room that is given back, and the counts at the end. -/
structure StoresRows (rows : List (List String)) (a : Atlas) (events : List Event) : Prop where
  made : (ofRecords (described rows)).result = .ok a
  fitted : a.narrow.capacity = a.narrow.size ∧ a.wide.capacity = a.wide.size
  reported : ∃ before : List Event, (∀ event ∈ before, event.IsOfRow) ∧
    events = before ++ (empty.insertAll (described rows)).trimEvents ++
      [.loaded a.narrow.size a.wide.size (rows.countP (LacksCoordinates ·))]
  counted : a.narrow.size + a.wide.size + rows.countP (LacksCoordinates ·) = rows.length
  ascending : (events.filterMap Event.skippedRow?).Pairwise (· < ·)
  skipped_iff : ∀ i, .skipped i ∈ events ↔ ∃ fields, rows[i]? = some fields ∧ LacksCoordinates fields

/-- A load of rows fails exactly if a row cannot be read or its record is out of order behind the records
of the rows before it; the first such row is reported. -/
structure LoadsRows (rows : List (List String)) (o : Outcome Atlas GeoFault) : Prop where
  fails_iff : (∃ f, o.result = .error f) ↔ ∃ i fields, rows[i]? = some fields ∧
    ((∃ cause, ofFields fields = .error cause) ∨
      ∃ r, ofFields fields = .ok (some r) ∧ (empty.insertAll (described (rows.take i))).OutOfOrder r)
  error_iff : ∀ f, o.result = .error f ↔
    ∃ i cause, f = .record i cause ∧ empty.FirstFault rows i cause
  stores : ∀ a, o.result = .ok a → StoresRows rows a o.events

variable {a : Atlas} {rows : List (List String)}

lemma fault_ofRows (rows : List (List String)) :
    (ofRows rows).fault = (Load.addRows ⟨.empty, 0, 0⟩ rows).fault :=
  Load.fault_andThen_finish _

lemma exists_rowFault_iff : (∃ i cause, a.RowFault rows i cause) ↔
    ∃ i fields, rows[i]? = some fields ∧ ((∃ cause, ofFields fields = .error cause) ∨
      ∃ r, ofFields fields = .ok (some r) ∧ (a.insertAll (described (rows.take i))).OutOfOrder r) := by
  simp only [← rowFault?_ne_none_iff, Option.ne_none_iff_exists']
  unfold RowFault
  refine exists_congr fun i => ?_
  rw [exists_comm]
  exact exists_congr fun fields => exists_and_left

lemma mem_filterMap_skippedRow?_iff {events : List Event} {i : Nat} :
    i ∈ events.filterMap Event.skippedRow? ↔ .skipped i ∈ events := by
  rw [List.mem_filterMap]
  constructor
  · rintro ⟨event, hevent, hi⟩
    cases event with
    | skipped index =>
      obtain rfl := Option.some.inj hi
      exact hevent
    | _ => cases hi
  · exact fun h => ⟨_, h, rfl⟩

lemma filterMap_skippedRow?_trimEvents (a : Atlas) : a.trimEvents.filterMap Event.skippedRow? = [] := by
  unfold trimEvents
  split <;> split <;> rfl

lemma storesRows_of_ok (h : (ofRows rows).result = .ok a) : StoresRows rows a (ofRows rows).events := by
  obtain ⟨hfault, hstate⟩ := Outcome.result_eq_ok_iff.mp h
  rw [fault_ofRows] at hfault
  have hpasses := Load.passes_addRows hfault
  have hfinish := Load.andThen_finish_of_passes hpasses hfault
  have hatlas : a = (empty.insertAll (described rows)).fitted := by
    rw [← hstate, ofRows, hfinish]
    rfl
  have hevents : (ofRows rows).events = (Load.addRows ⟨.empty, 0, 0⟩ rows).events ++
      ((empty.insertAll (described rows)).trimEvents ++
        [.loaded a.narrow.size a.wide.size (rows.countP (LacksCoordinates ·))]) := by
    rw [ofRows, hfinish, ← length_passedOver 0, hatlas, ← Nat.zero_add (passedOver 0 rows).length]
    rfl
  have hskipped : (ofRows rows).events.filterMap Event.skippedRow? = passedOver 0 rows := by
    rw [hevents, List.filterMap_append, List.filterMap_append, hpasses.skipped,
      filterMap_skippedRow?_trimEvents]
    exact List.append_nil _
  exact {
    made := result_ofRecords_eq_ok_iff.mpr ⟨hpasses.stored, hatlas⟩
    fitted := by
      rw [hatlas]
      exact ⟨rfl, rfl⟩
    reported := ⟨_, hpasses.events, by rw [hevents, List.append_assoc]⟩
    counted := by
      rw [← length_passedOver 0, hatlas]
      refine hpasses.size.trans ?_
      exact Nat.zero_add _
    ascending := by
      rw [hskipped]
      exact pairwise_passedOver 0 rows
    skipped_iff := by
      intro i
      rw [← mem_filterMap_skippedRow?_iff, hskipped, mem_passedOver_iff] }

/-- An atlas made of rows holds the records that they describe, or the first row at fault is reported. -/
theorem loadsRows_ofRows (rows : List (List String)) : LoadsRows rows (ofRows rows) := by
  have herror : ∀ f, (ofRows rows).result = .error f ↔
      ∃ i cause, f = .record i cause ∧ empty.FirstFault rows i cause := by
    intro f
    rw [Outcome.result_eq_error_iff, fault_ofRows, Load.fault_addRows_eq_some_iff]
    simp only [Nat.zero_add]
  refine ⟨?_, herror, fun a ha => storesRows_of_ok ha⟩
  simp only [herror]
  rw [← exists_rowFault_iff]
  constructor
  · rintro ⟨f, i, cause, -, hfirst⟩
    exact ⟨i, cause, hfirst.1⟩
  · intro h
    obtain ⟨i, cause, hfirst⟩ := exists_firstFault h
    exact ⟨_, i, cause, rfl, hfirst⟩

/-- A row without coordinates counts as a row, whatever else stands in it. -/
example : (ofRows [["x", "", "?", "", "", "", "", "", "!"], ["0", "9", "AU"]]).fault =
    some (.record 1 (.missingField 7)) := by
  decide

end Atlas

end AddressAtlas

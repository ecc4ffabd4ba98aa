import AddressAtlas.Proofs.History
import AddressAtlas.Proofs.Insertions
import AddressAtlas.Proofs.Refusals
import AddressAtlas.Proofs.Sessions

/-!
# Room

A table makes room only when it is full and takes an entry in, by half of the room there is and by one at
least. So room beyond what was set aside at first is at most half of what is stored, and all entries that
are moved on such occasions are together no more than four times as many as those taken in. A table that is
made of entries keeps to the room it starts with exactly if it starts with room for all of them, which takes
a source that announces so many.
-/

namespace AddressAtlas

open Ledger

variable {w : Width}

namespace RangeTable

/-- An insertion changes the room exactly if it takes an entry in that does not fit. -/
theorem capacity_insert (t : RangeTable w) (e : Entry w) : (t.insert e).state.capacity =
    if (t.insert e).fault = none ∧ t.size = t.capacity then t.capacity + max (t.capacity / 2) 1
    else t.capacity := by
  cases h : t.obstacle? e with
  | some last =>
    rw [insert_of_obstacle h]
    rfl
  | none =>
    rw [insert_of_free h]
    simp only [append, nextCapacity, true_and]

lemma insert_of_room {t : RangeTable w} (h : t.size < t.capacity) (e : Entry w) :
    (t.insert e).state.capacity = t.capacity ∧ ∀ c, Event.grew c ∉ (t.insert e).events := by
  refine ⟨?_, fun c => ?_⟩
  · rw [capacity_insert, if_neg fun hfull => Nat.ne_of_lt h hfull.2]
  · cases hobstacle : t.obstacle? e with
    | some last =>
      rw [insert_of_obstacle hobstacle]
      simp
    | none =>
      rw [insert_of_free hobstacle, if_neg (Nat.ne_of_lt h)]
      exact List.not_mem_nil

/-- Where there is room for all entries, none is made. -/
theorem insertMany_of_room {t : RangeTable w} {es : List (Entry w)} (h : t.size + es.length ≤ t.capacity) :
    (t.insertMany es).state.capacity = t.capacity ∧ ∀ c, Event.grew c ∉ (t.insertMany es).events := by
  induction es generalizing t with
  | nil => exact ⟨rfl, fun c => List.not_mem_nil⟩
  | cons e es ih =>
    rw [List.length_cons] at h
    obtain ⟨hcapacity, hquiet⟩ := insert_of_room (t := t) (by omega) e
    rw [insertMany]
    cases hfault : (t.insert e).fault with
    | some v =>
      rw [Outcome.andThen_of_fault hfault]
      exact ⟨hcapacity, hquiet⟩
    | none =>
      have hsize := size_insert hfault
      obtain ⟨hcapacity', hquiet'⟩ := ih (t := (t.insert e).state) (by omega)
      rw [Outcome.andThen_of_none hfault]
      refine ⟨hcapacity'.trans hcapacity, fun c hc => ?_⟩
      rcases List.mem_append.mp hc with hc | hc
      · exact hquiet c hc
      · exact hquiet' c hc

/-- Where there is no room for all entries, some is made if all are taken in. -/
theorem exists_grew_of_no_room {t : RangeTable w} {es : List (Entry w)} (h : (t.insertMany es).fault = none)
    (hroom : t.capacity < t.size + es.length) : ∃ c, Event.grew c ∈ (t.insertMany es).events := by
  induction es generalizing t with
  | nil => exact absurd t.size_le_capacity (Nat.not_le.mpr hroom)
  | cons e es ih =>
    rw [insertMany] at h ⊢
    obtain ⟨hfault, hrest⟩ := Outcome.fault_andThen_eq_none_iff.mp h
    rw [Outcome.andThen_of_none hfault]
    by_cases hfull : t.size = t.capacity
    · have hfree : t.obstacle? e = none := obstacle?_eq_none_iff.mpr (fault_insert_eq_none_iff_follows.mp hfault)
      refine ⟨t.nextCapacity, List.mem_append_left _ ?_⟩
      rw [insert_of_free hfree, if_pos hfull]
      exact List.mem_singleton_self _
    · have hsize := size_insert hfault
      have hcapacity := (insert_of_room (Nat.lt_of_le_of_ne t.size_le_capacity hfull) e).1
      rw [List.length_cons] at hroom
      obtain ⟨c, hc⟩ := ih hrest (by omega)
      exact ⟨c, List.mem_append_right _ hc⟩

/-- There is no more room than was set aside for `c` entries, or than for the entries there are and half as
many again. -/
def Frugal (c : Nat) (t : RangeTable w) : Prop :=
  t.capacity ≤ max c (t.size + t.size / 2)

lemma Frugal.insert {c : Nat} {t : RangeTable w} (h : Frugal c t) (e : Entry w) : Frugal c (t.insert e).state := by
  have hcapacity := t.capacity_insert e
  unfold Frugal at *
  cases hfault : (t.insert e).fault with
  | some v =>
    rw [(insert_of_fault hfault).1]
    exact h
  | none =>
    have hsize := size_insert hfault
    simp only [hfault, true_and] at hcapacity
    split at hcapacity <;> omega

lemma Frugal.insertMany {c : Nat} {t : RangeTable w} (h : Frugal c t) (es : List (Entry w)) :
    Frugal c (t.insertMany es).state := by
  induction es generalizing t with
  | nil => exact h
  | cons e es ih =>
    rw [RangeTable.insertMany]
    cases hfault : (t.insert e).fault with
    | some v =>
      rw [Outcome.andThen_of_fault hfault]
      exact h.insert e
    | none =>
      rw [Outcome.state_andThen_of_none hfault]
      exact ih (h.insert e)

lemma frugal_fitted (c : Nat) (t : RangeTable w) : Frugal c t.fitted :=
  Nat.le_trans (Nat.le_add_right _ _) (Nat.le_max_right _ _)

/-- The entries that are moved when room is made while entries are inserted one after the other: all that
there are each time. -/
def moved (t : RangeTable w) : List (Entry w) → Nat
  | [] => 0
  | e :: es =>
    (if (t.insert e).state.capacity = t.capacity then 0 else t.size) + moved (t.insert e).state es

/-- Moving is paid for in advance: three for each place, and four for each entry taken in. -/
lemma add_moved_le {t : RangeTable w} {m : Nat} (hcapacity : m ≤ 3 * t.capacity) (hsize : m ≤ 4 * t.size)
    (es : List (Entry w)) : m + t.moved es ≤ 4 * (t.insertAll es).size := by
  induction es generalizing t m with
  | nil => exact hsize
  | cons e es ih =>
    have hnext := t.capacity_insert e
    rw [moved, insertAll_cons, ← Nat.add_assoc]
    cases hfault : (t.insert e).fault with
    | some v =>
      obtain ⟨hsame, -⟩ := insert_of_fault hfault
      rw [hsame, if_pos rfl]
      exact ih hcapacity hsize
    | none =>
      have hgrown := size_insert hfault
      simp only [hfault, true_and] at hnext
      apply ih <;> split <;> split at hnext <;> omega

lemma entries_insertAll (t : RangeTable w) (es : List (Entry w)) :
    (t.insertAll es).entries = es.foldl offer t.entries := by
  induction es generalizing t with
  | nil => rfl
  | cons e es ih => rw [insertAll_cons, List.foldl_cons, ih, entries_insert]

end RangeTable

open RangeTable

lemma Request.frugal_serve {c : Nat} {t : RangeTable w} (h : Frugal c t) (q : Request w) :
    Frugal c (q.serve t).table := by
  cases q with
  | insert e => exact h.insert e
  | insertMany es => exact h.insertMany es
  | _ => exact h

/-- Whatever is done to a table that was made empty, it has little room to spare. -/
lemma Session.frugal_table {c : Nat} {t : RangeTable w} (h : Frugal c t) (p : Session w) : Frugal c (p.table t) := by
  unfold table
  induction p generalizing t with
  | nil => exact h
  | cons step p ih =>
    cases step with
    | request q => exact ih (q.frugal_serve h)
    | trim =>
      have htrim : Step.trim.onTable t = t.fitted := t.state_trim
      exact ih (htrim ▸ frugal_fitted c t)
    | copy => exact ih (frugal_fitted c t)

/-- An empty table is made exactly if the keys of so many entries can be stored. -/
structure Reserved (w : Width) (capacity : Nat) : Prop where
  fails_iff : (ofCapacity capacity : Except _ (RangeTable w)) = .error .capacityOverflow ↔
    2 ^ 63 - 1 < w.entryBytes * capacity
  made : w.entryBytes * capacity ≤ 2 ^ 63 - 1 → (ofCapacity capacity : Except _ (RangeTable w)) = .ok (vacant capacity)

/-- A source may announce entries exactly if the keys of so many, and of 16 at least, can be stored. -/
structure Announced (w : Width) (lower : Nat) : Prop where
  fails_iff : (Hint.ofLower lower : Except _ (Hint w)) = .error .capacityOverflow ↔
    2 ^ 63 - 1 < w.entryBytes * max lower 16
  made : w.entryBytes * max lower 16 ≤ 2 ^ 63 - 1 →
    ∃ hint : Hint w, Hint.ofLower lower = .ok hint ∧ hint.lower = lower

/-- The room of an empty table stays the same while entries are taken in. -/
structure KeepsRoom (capacity : Nat) (es : List (Entry w)) (o : Outcome (RangeTable w) (Violation w)) : Prop where
  made : ∀ t, o.result = .ok t → t.capacity = capacity
  unchanged : ∀ n, ((vacant capacity).insertMany (es.take n)).state.capacity = capacity
  quiet : ∀ c, Event.grew c ∉ o.events

/-- A table that is made of entries has room from the start for as many as are announced, and for 16 at least.
There is such a table if the entries ascend. If all of them fit, as where their number is announced, the room
stays the same; if they do not, room is made as by any other insertions. -/
structure MadeAtOnce (hint : Hint w) (es : List (Entry w)) : Prop where
  made_iff : (∃ t, (ofEntries hint es).result = .ok t) ↔ Entry.Ascending es
  start : (ofCapacity (max hint.lower 16) : Except _ (RangeTable w)) = .ok (vacant (max hint.lower 16))
  filled : ofEntries hint es = (vacant (max hint.lower 16)).insertMany es
  of_exact : hint.lower = es.length → KeepsRoom (max es.length 16) es (ofEntries hint es)
  fits : es.length ≤ max hint.lower 16 → KeepsRoom (max hint.lower 16) es (ofEntries hint es)
  outgrown : max hint.lower 16 < es.length → ∀ t, (ofEntries hint es).result = .ok t →
    es.length ≤ t.capacity ∧ t.capacity ≤ es.length + es.length / 2 ∧ ∃ c, Event.grew c ∈ (ofEntries hint es).events

/-- What becomes of the room of a table. -/
structure Roomy (t : RangeTable w) : Prop where
  size_le : t.size ≤ t.capacity
  grows : ∀ e, (t.insert e).fault = none → t.size = t.capacity →
    (t.insert e).state.capacity = t.capacity + max (t.capacity / 2) 1
  of_grown : ∀ e, (t.insert e).state.capacity ≠ t.capacity → (t.insert e).fault = none ∧ t.size = t.capacity
  trimmed : (t.trim : Outcome _ Empty).state.capacity = t.size ∧ (t.trim : Outcome _ Empty).state.entries = t.entries
  copied : t.copy.capacity = t.size ∧ t.copy.entries = t.entries

lemma reserved (w : Width) (capacity : Nat) : Reserved w capacity := by
  have hbytes : w.entryBytes * capacity ≤ maxArrayBytes ↔ w.entryBytes * capacity ≤ 2 ^ 63 - 1 := Iff.rfl
  constructor
  · rw [ofCapacity_eq, ← not_le, ← hbytes]
    split <;> simp_all
  · intro h
    rw [ofCapacity_eq, if_pos (hbytes.mpr h)]

lemma announced (w : Width) (lower : Nat) : Announced w lower := by
  have hbytes : w.entryBytes * max lower defaultCapacity ≤ maxArrayBytes ↔
      w.entryBytes * max lower 16 ≤ 2 ^ 63 - 1 := Iff.rfl
  constructor
  · rw [Hint.ofLower, ← not_le, ← hbytes]
    split <;> simp_all
  · intro h
    exact ⟨⟨lower, hbytes.mpr h⟩, dif_pos (hbytes.mpr h), rfl⟩

lemma keepsRoom {capacity : Nat} {es : List (Entry w)} (h : es.length ≤ capacity) :
    KeepsRoom capacity es ((vacant capacity).insertMany es) := by
  have hroom : ∀ n, (vacant capacity : RangeTable w).size + (es.take n).length ≤ capacity := by
    intro n
    have hlength := List.length_take_le' n es
    change 0 + (es.take n).length ≤ _
    omega
  have hunchanged := fun n => insertMany_of_room (hroom n)
  have hall := hunchanged es.length
  rw [List.take_length] at hall
  exact {
    made := fun t ht => Outcome.state_of_result ht ▸ hall.1
    unchanged := fun n => (hunchanged n).1
    quiet := hall.2 }

lemma size_of_result_insertMany_vacant {capacity : Nat} {es : List (Entry w)} {t : RangeTable w}
    (h : ((vacant capacity).insertMany es).result = .ok t) : t.size = es.length := by
  obtain ⟨hfault, rfl⟩ := Outcome.result_eq_ok_iff.mp h
  rw [fault_insertMany, entries_vacant, firstViolation?_nil_eq_none_iff] at hfault
  rw [← length_entries, entries_insertMany, entries_vacant, offerMany_of_ascending (l := []) hfault, List.nil_append]

lemma madeAtOnce (hint : Hint w) (es : List (Entry w)) : MadeAtOnce hint es where
  made_iff := exists_ofEntries_iff hint
  start := hint.ofCapacity_room
  filled := rfl
  of_exact := by
    intro hexact
    rw [← hexact]
    exact keepsRoom (hexact ▸ Nat.le_max_left hint.lower 16)
  fits := keepsRoom
  outgrown := by
    intro hlength t ht
    have hsize := size_of_result_insertMany_vacant ht
    obtain ⟨hfault, hstate⟩ := Outcome.result_eq_ok_iff.mp ht
    have hcapacity := t.size_le_capacity
    have hfrugal : Frugal (max hint.lower 16) t :=
      hstate ▸ Frugal.insertMany (t := vacant hint.room) (Nat.le_max_left _ _) es
    refine ⟨hsize ▸ hcapacity, ?_, exists_grew_of_no_room hfault ?_⟩
    · unfold Frugal at hfrugal
      omega
    · change max hint.lower 16 < 0 + es.length
      omega

lemma roomy (t : RangeTable w) : Roomy t where
  size_le := t.size_le_capacity
  grows := fun e hfault hfull => by rw [capacity_insert, if_pos ⟨hfault, hfull⟩]
  of_grown := by
    intro e hgrown
    rw [capacity_insert] at hgrown
    by_contra hnot
    exact hgrown (if_neg hnot)
  trimmed := by
    rw [state_trim]
    exact ⟨rfl, t.entries_fitted⟩
  copied := ⟨rfl, t.entries_fitted⟩

/-- The law of room, for tables of both widths: what is set aside at first, what an insertion, a trim and a
copy make of it, and how much room and how much moving this comes to over a whole run. -/
theorem History.room_law (w : Width) :
    (Width.narrow.entryBytes = 8 ∧ Width.wide.entryBytes = 32) ∧
    (∀ capacity, Reserved w capacity ∧ (vacant capacity : RangeTable w).capacity = capacity) ∧
    (∀ lower, Announced w lower) ∧
    (∀ (hint : Hint w) (es : List (Entry w)), MadeAtOnce hint es) ∧
    (∀ h : History w, Roomy h.table) ∧
    (∀ capacity (p : Session w), (p.table (vacant capacity)).capacity ≤
      max capacity ((p.table (vacant capacity)).size + (p.table (vacant capacity)).size / 2)) ∧
    ∀ capacity (es : List (Entry w)), moved (vacant capacity) es ≤ 4 * (es.foldl offer []).length := by
  refine ⟨⟨rfl, rfl⟩, fun capacity => ⟨reserved w capacity, rfl⟩, announced w, madeAtOnce, fun h => roomy h.table,
    ?_, ?_⟩
  · intro capacity p
    exact p.frugal_table (Nat.le_max_left capacity _)
  · intro capacity es
    have hmoved := add_moved_le (t := vacant capacity) (Nat.zero_le _) (Nat.zero_le _) es
    rw [Nat.zero_add, ← length_entries, entries_insertAll, entries_vacant] at hmoved
    exact hmoved

def twentyPoints : List (Entry .narrow) :=
  (List.range 20).map fun i => ⟨BitVec.ofNat 32 i, BitVec.ofNat 32 i, 0⟩

def fallingPair : List (Entry .narrow) :=
  [⟨10, 20, 1⟩, ⟨5, 6, 2⟩]

/-- Twenty entries of which none is announced lead to room for 24, some of it made on the way. Two that do not
ascend lead to no table. -/
theorem room_of_twentyPoints_and_fallingPair :
    (twentyPoints.length = 20 ∧
      (ofEntries (Hint.mk 0 (by decide)) twentyPoints).fault = none ∧
      (ofEntries (Hint.mk 0 (by decide)) twentyPoints).state.size = 20 ∧
      (ofEntries (Hint.mk 0 (by decide)) twentyPoints).state.capacity = 24 ∧
      (ofEntries (Hint.mk 0 (by decide)) twentyPoints).events = [.grew 24]) ∧
    (ofEntries (Hint.mk 2 (by decide)) fallingPair).fault = some ⟨5, 6, 10, 20⟩ := by
  decide +kernel

end AddressAtlas

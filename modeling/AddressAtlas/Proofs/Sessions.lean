import AddressAtlas.Proofs.CursorWindow
import AddressAtlas.Proofs.Ledger
import AddressAtlas.Proofs.Storage
import AddressAtlas.RangeTable.Lookup
import AddressAtlas.RangeTable.Text

/-!
# Sessions with a table

A session is a sequence of requests, and between them the table may be trimmed or give way to its copy at
any moment. Tables with the same entries answer every request alike and hold the same entries afterwards,
so what a session shows does not depend on how its storage is kept.
-/

namespace AddressAtlas

variable {w : Width}

inductive Request (w : Width) where
  | insert (e : Entry w)
  | insertMany (es : List (Entry w))
  | find (key : Key w)
  | findEntry (key : Key w)
  | contains (key : Key w)
  | first
  | last
  | size
  | isEmpty
  | entries
  | reversed
  | walk (calls : List Cursor.Call)
  | display
  | describe
  | encode

inductive Answer (w : Width) where
  | stored (fault : Option (Violation w))
  | value (v : Option Int32)
  | entry (e : Option (Entry w))
  | entries (es : List (Entry w))
  | replies (rs : List (Cursor.Reply w))
  | truth (b : Bool)
  | count (n : Nat)
  | text (s : String)
  deriving DecidableEq

/-- The table behind a request, the answer, and what has been reported. -/
structure Served (w : Width) where
  table : RangeTable w
  answer : Answer w
  events : List Event := []

namespace Request

def stored (o : Outcome (RangeTable w) (Violation w)) : Served w :=
  ⟨o.state, .stored o.fault, o.events⟩

def serve (t : RangeTable w) : Request w → Served w
  | insert e => stored (t.insert e)
  | insertMany es => stored (t.insertMany es)
  | find key => { table := t, answer := .value (t.find? key) }
  | findEntry key => { table := t, answer := .entry (t.findEntry? key) }
  | contains key => { table := t, answer := .truth (t.contains key) }
  | first => { table := t, answer := .entry t.first? }
  | last => { table := t, answer := .entry t.last? }
  | size => { table := t, answer := .count t.size }
  | isEmpty => { table := t, answer := .truth t.isEmpty }
  | entries => { table := t, answer := .entries t.cursor.drain }
  | reversed => { table := t, answer := .entries t.cursor.drainBack }
  | walk calls => { table := t, answer := .replies (t.cursor.replies calls) }
  | display => { table := t, answer := .text t.display }
  | describe => { table := t, answer := .text t.describe }
  | encode => { table := t, answer := .text t.encode }

end Request

/-- The event tells of room that a table has made or given back. -/
def Event.IsOfRoom : Event → Prop
  | grew _ | trimmed _ => True
  | rejected .. | skipped _ | loaded .. => False

instance : DecidablePred Event.IsOfRoom
  | .grew _ | .trimmed _ => isTrue trivial
  | .rejected .. | .skipped _ | .loaded .. => isFalse id

/-- The events that do not tell of room. -/
def Event.apartFromRoom (events : List Event) : List Event :=
  events.filter fun event => ¬event.IsOfRoom

/-- What is reported of a violation. -/
def Violation.event (v : Violation w) : Event :=
  .rejected v.start.toNat v.stop.toNat v.previousStop.toNat

inductive Session.Step (w : Width) where
  | request (q : Request w)
  | trim
  | copy

abbrev Session (w : Width) := List (Session.Step w)

namespace Session

def Step.request? : Step w → Option (Request w)
  | request q => some q
  | trim | copy => none

/-- The table behind a step. -/
def Step.onTable (t : RangeTable w) : Step w → RangeTable w
  | request q => (q.serve t).table
  | trim => (t.trim : Outcome _ Empty).state
  | copy => t.copy

def requests (p : Session w) : List (Request w) :=
  p.filterMap Step.request?

/-- The table behind a session that starts with the table `t`. -/
def table (t : RangeTable w) (p : Session w) : RangeTable w :=
  p.foldl Step.onTable t

/-- The answers to the requests of a session, each with the events that do not tell of room. -/
def answers (t : RangeTable w) : Session w → List (Answer w × List Event)
  | [] => []
  | .request q :: p =>
    ((q.serve t).answer, Event.apartFromRoom (q.serve t).events) :: answers (q.serve t).table p
  | .trim :: p => answers (Step.trim.onTable t) p
  | .copy :: p => answers (Step.copy.onTable t) p

end Session

namespace RangeTable

open Ledger

variable {s t : RangeTable w}

lemma eq_with_capacity (h : s.entries = t.entries) :
    ∃ capacity hsize, s = { t with capacity := capacity, size_le_capacity := hsize } := by
  obtain ⟨words, values, capacity, hwords, hcapacity, hascending⟩ := s
  obtain rfl : words = t.words := by
    rw [← Array.toList_inj, toList_words t, ← h]
    exact toList_words ⟨words, values, capacity, hwords, hcapacity, hascending⟩
  obtain rfl : values = t.values := by
    rw [← Array.toList_inj, toList_values t, ← h]
    exact toList_values ⟨t.words, values, capacity, hwords, hcapacity, hascending⟩
  exact ⟨capacity, hcapacity, rfl⟩

/-- Apart from room, an insertion reports no more than that the entry is refused. -/
theorem apartFromRoom_events_insert (t : RangeTable w) (e : Entry w) :
    Event.apartFromRoom (t.insert e).events = ((t.insert e).fault.map Violation.event).toList := by
  cases h : t.obstacle? e with
  | some last =>
    rw [insert_of_obstacle h]
    rfl
  | none =>
    rw [insert_of_free h]
    by_cases hfull : t.size = t.capacity
    · rw [if_pos hfull]
      rfl
    · rw [if_neg hfull]
      rfl

theorem apartFromRoom_events_insertMany (t : RangeTable w) (es : List (Entry w)) :
    Event.apartFromRoom (t.insertMany es).events = ((t.insertMany es).fault.map Violation.event).toList := by
  induction es generalizing t with
  | nil => rfl
  | cons e es ih =>
    have hfirst := t.apartFromRoom_events_insert e
    rw [insertMany]
    cases hfault : (t.insert e).fault with
    | some v => rw [Outcome.andThen_of_fault hfault, hfirst]
    | none =>
      rw [hfault] at hfirst
      rw [Outcome.andThen_of_none hfault, Event.apartFromRoom, List.filter_append]
      exact congrArg₂ (· ++ ·) hfirst (ih (t.insert e).state)

end RangeTable

open RangeTable

/-- Two tables have served a request alike, whatever room they have. -/
structure Served.Alike (a b : Served w) : Prop where
  answer : a.answer = b.answer
  events : Event.apartFromRoom a.events = Event.apartFromRoom b.events
  entries : a.table.entries = b.table.entries

namespace Request

variable {s t : RangeTable w}

lemma alike_stored {o o' : Outcome (RangeTable w) (Violation w)} (hfault : o.fault = o'.fault)
    (hevents : Event.apartFromRoom o.events = Event.apartFromRoom o'.events)
    (hentries : o.state.entries = o'.state.entries) : (stored o).Alike (stored o') :=
  ⟨congrArg Answer.stored hfault, hevents, hentries⟩

/-- Tables with the same entries serve a request alike. -/
theorem alike_serve (h : s.entries = t.entries) (q : Request w) : (q.serve s).Alike (q.serve t) := by
  cases q with
  | insert e =>
    apply alike_stored
    · rw [fault_insert, fault_insert, h]
    · rw [apartFromRoom_events_insert, apartFromRoom_events_insert, fault_insert, fault_insert, h]
    · rw [entries_insert, entries_insert, h]
  | insertMany es =>
    apply alike_stored
    · rw [fault_insertMany, fault_insertMany, h]
    · rw [apartFromRoom_events_insertMany, apartFromRoom_events_insertMany, fault_insertMany, fault_insertMany, h]
    · rw [entries_insertMany, entries_insertMany, h]
  | entries =>
    have hdrain : s.cursor.drain = t.cursor.drain := by
      rw [Cursor.drain_eq, Cursor.drain_eq, Cursor.window_cursor, Cursor.window_cursor, h]
    exact ⟨congrArg Answer.entries hdrain, rfl, h⟩
  | reversed =>
    have hdrain : s.cursor.drainBack = t.cursor.drainBack := by
      rw [Cursor.drainBack_eq, Cursor.drainBack_eq, Cursor.window_cursor, Cursor.window_cursor, h]
    exact ⟨congrArg Answer.entries hdrain, rfl, h⟩
  | walk calls =>
    have hwindow : s.cursor.window = t.cursor.window := by
      rw [Cursor.window_cursor, Cursor.window_cursor, h]
    exact ⟨congrArg Answer.replies (Cursor.replies_congr hwindow calls), rfl, h⟩
  | _ =>
    -- The other answers are read off the two arrays.
    obtain ⟨capacity, hsize, rfl⟩ := eq_with_capacity h
    exact ⟨rfl, rfl, rfl⟩

end Request

namespace Session

variable {s t : RangeTable w} {p q : Session w}

lemma entries_trim (t : RangeTable w) : (Step.trim.onTable t).entries = t.entries := by
  have htrim : Step.trim.onTable t = t.fitted := t.state_trim
  rw [htrim, entries_fitted]

lemma entries_copy (t : RangeTable w) : (Step.copy.onTable t).entries = t.entries :=
  t.entries_fitted

/-- The answers are those to the requests alone, given by any table with the same entries. -/
theorem answers_eq_requests (h : s.entries = t.entries) (p : Session w) :
    p.answers s = answers t (p.requests.map .request) := by
  induction p generalizing s t with
  | nil => rfl
  | cons step p ih =>
    cases step with
    | request q =>
      have halike := q.alike_serve h
      have hrest := ih halike.entries
      change (_, _) :: _ = (_, _) :: _
      rw [halike.answer, halike.events, hrest]
      rfl
    | trim => exact ih ((entries_trim s).trans h)
    | copy => exact ih ((entries_copy s).trans h)

/-- The entries behind a session are those behind its requests alone. -/
theorem entries_table_eq_requests (h : s.entries = t.entries) (p : Session w) :
    (p.table s).entries = (table t (p.requests.map .request)).entries := by
  unfold table
  induction p generalizing s t with
  | nil => exact h
  | cons step p ih =>
    cases step with
    | request q => exact ih (q.alike_serve h).entries
    | trim => exact ih ((entries_trim s).trans h)
    | copy => exact ih ((entries_copy s).trans h)

/-- Sessions with the same requests show the same, and their tables are equal wherever the same requests
have been served. -/
structure Indistinguishable (s t : RangeTable w) (p q : Session w) : Prop where
  answers : p.answers s = q.answers t
  tables : ∀ i j, requests (p.take i) = requests (q.take j) →
    (table s (p.take i) == table t (q.take j)) = true ∧ (table t (q.take j) == table s (p.take i)) = true

lemma indistinguishable_of_entries_eq (h : s.entries = t.entries) (hrequests : p.requests = q.requests) :
    Indistinguishable s t p q where
  answers := by
    rw [answers_eq_requests h p, answers_eq_requests rfl q, hrequests]
  tables := by
    intro i j hij
    have hentries : (table s (p.take i)).entries = (table t (q.take j)).entries := by
      rw [entries_table_eq_requests h (p.take i), entries_table_eq_requests rfl (q.take j), hij]
    exact ⟨beq_iff_entries_eq.mpr hentries, beq_iff_entries_eq.mpr hentries.symm⟩

lemma trim_trim {ε : Type} (t : RangeTable w) :
    ((t.trim : Outcome _ ε).state.trim : Outcome _ ε) = .idle (t.trim : Outcome _ ε).state := by
  rw [trim_eq t]
  exact if_pos rfl

lemma isOfRoom_of_mem_trim {ε : Type} (t : RangeTable w) :
    ∀ event ∈ (t.trim : Outcome _ ε).events, event.IsOfRoom := by
  intro event hevent
  rw [trim_eq] at hevent
  by_cases hfull : t.size = t.capacity
  · simp [hfull] at hevent
  · simp only [if_neg hfull, List.mem_singleton] at hevent
    rw [hevent]
    trivial

/-- Where the room of an empty table is set aside, where it is trimmed and where it gives way to its copy
cannot be told from what a session shows. A table that has been trimmed is left as it is by a second trim,
and a trim tells of room only. -/
theorem storage_unobservable {capacity capacity' : Nat} (hs : ofCapacity capacity = .ok s)
    (ht : ofCapacity capacity' = .ok t) (hrequests : p.requests = q.requests) :
    Indistinguishable s t p q ∧
      ∀ u : RangeTable w, (∀ event ∈ (u.trim : Outcome _ Empty).events, event.IsOfRoom) ∧
        (u.trim : Outcome _ Empty).state.trim = Outcome.idle (ε := Empty) (u.trim : Outcome _ Empty).state := by
  refine ⟨indistinguishable_of_entries_eq ?_ hrequests, fun u => ⟨isOfRoom_of_mem_trim u, trim_trim u⟩⟩
  have hempty : ∀ {n : Nat} {u : RangeTable w}, ofCapacity n = .ok u → u.entries = [] := by
    intro n u hu
    rw [ofCapacity_eq] at hu
    split at hu
    · obtain rfl := Except.ok.inj hu
      exact entries_vacant n
    · cases hu
  rw [hempty hs, hempty ht]

/-- Requests that store one entry, are refused another, and store one of two. -/
def bareSession : Session .narrow :=
  [.request (.insert ⟨1, 5, 7⟩), .request (.insert ⟨5, 9, -1⟩),
    .request (.insertMany [⟨6, 9, -1⟩, ⟨3, 4, 0⟩]), .request (.find 7), .request (.walk [.nextBack, .remaining])]

/-- The same requests with two trims at once, before a table without room has to grow, and copies. -/
def maintainedSession : Session .narrow :=
  [.copy, .request (.insert ⟨1, 5, 7⟩), .trim, .trim, .request (.insert ⟨5, 9, -1⟩),
    .request (.insertMany [⟨6, 9, -1⟩, ⟨3, 4, 0⟩]), .copy, .request (.find 7), .trim,
    .request (.walk [.nextBack, .remaining])]

theorem maintainedSession_answers :
    ofCapacity 0 = .ok (vacant 0 : RangeTable .narrow) ∧
      ofCapacity 100 = .ok (vacant 100 : RangeTable .narrow) ∧
      maintainedSession.requests = bareSession.requests ∧
      maintainedSession.answers (vacant 0) =
        [(.stored none, []), (.stored (some ⟨5, 9, 1, 5⟩), [.rejected 5 9 5]),
          (.stored (some ⟨3, 4, 6, 9⟩), [.rejected 3 4 9]), (.value (some (-1)), []),
          (.replies [.entry (some ⟨6, 9, -1⟩), .remaining 1], [])] := by
  have hnone : ofCapacity 0 = .ok (vacant 0 : RangeTable .narrow) := rfl
  have hmuch : ofCapacity 100 = .ok (vacant 100 : RangeTable .narrow) := rfl
  have hrequests : maintainedSession.requests = bareSession.requests := rfl
  have hshown := (storage_unobservable hnone hmuch hrequests).1
  exact ⟨hnone, hmuch, hrequests, hshown.answers.trans (by decide +kernel)⟩

end Session

end AddressAtlas

import AddressAtlas.Proofs.ReadingOrder
import AddressAtlas.Proofs.Room

/-!
# What the events of a table say

The events of an operation are those of the insertions that it is made of, in order, and of the trim if there
is one. Nothing else is reported and nothing is left out: of a whole run the events alone say how many
operations failed and how much room there is in the end.
-/

namespace AddressAtlas

open Entry Json Ledger

variable {w : Width}

/-- Room is made or given back, and this is the capacity from then on. -/
def Event.capacity? : Event → Option Nat
  | grew capacity => some capacity
  | trimmed entries => some entries
  | rejected .. | skipped _ | loaded .. => none

def Event.IsRejection : Event → Prop
  | rejected .. => True
  | grew _ | trimmed _ | skipped _ | loaded .. => False

instance : DecidablePred Event.IsRejection
  | .rejected .. => isTrue trivial
  | .grew _ | .trimmed _ | .skipped _ | .loaded .. => isFalse id

/-- The capacity that events lead to from the capacity `c`. -/
def Event.lead (c : Nat) (events : List Event) : Nat :=
  events.foldl (fun c event => event.capacity?.getD c) c

lemma Event.lead_append (c : Nat) (events more : List Event) :
    lead c (events ++ more) = lead (lead c events) more :=
  List.foldl_append

lemma Event.IsRejection.not_isOfRoom {event : Event} (h : event.IsRejection) : ¬event.IsOfRoom := by
  cases event with
  | rejected => exact id
  | _ => exact h.elim

lemma Event.countP_apartFromRoom (events : List Event) :
    (apartFromRoom events).countP IsRejection = events.countP IsRejection := by
  rw [apartFromRoom, List.countP_filter]
  refine List.countP_congr fun event _ => ?_
  simp only [Bool.and_eq_true, decide_eq_true_iff]
  exact and_iff_left_of_imp IsRejection.not_isOfRoom

/-- A trim and insertions in any number are what changes a table. -/
inductive Update (w : Width) where
  | insert (e : Entry w)
  | insertMany (es : List (Entry w))
  | trim

namespace Update

/-- What becomes of a table. -/
def outcome (t : RangeTable w) : Update w → Outcome (RangeTable w) (Violation w)
  | insert e => t.insert e
  | insertMany es => t.insertMany es
  | trim => t.trim

/-- What becomes of a table each time it is changed; a failure does not end the run. -/
def outcomes (t : RangeTable w) : List (Update w) → List (Outcome (RangeTable w) (Violation w))
  | [] => []
  | u :: us => u.outcome t :: outcomes (u.outcome t).state us

/-- The table behind a run. -/
def table (t : RangeTable w) (us : List (Update w)) : RangeTable w :=
  us.foldl (fun t u => (u.outcome t).state) t

/-- All events of a run. -/
def log (t : RangeTable w) (us : List (Update w)) : List Event :=
  (outcomes t us).flatMap Outcome.events

end Update

namespace RangeTable

/-- What becomes of each entry that is offered, up to the first that is refused. -/
def attempts (t : RangeTable w) : List (Entry w) → List (Outcome (RangeTable w) (Violation w))
  | [] => []
  | e :: es =>
    t.insert e ::
      match (t.insert e).fault with
      | some _ => []
      | none => attempts (t.insert e).state es

variable {t : RangeTable w} {e : Entry w} {es : List (Entry w)} {v : Violation w}

lemma events_insert_of_fault (h : (t.insert e).fault = some v) : ∃ last, t.last? = some last ∧
    (t.insert e).events = [.rejected e.start.toNat e.stop.toNat last.stop.toNat] := by
  cases hobstacle : t.obstacle? e with
  | some last =>
    have hlast : t.last? = some last := (Option.filter_eq_some_iff.mp hobstacle).1
    rw [insert_of_obstacle hobstacle]
    exact ⟨last, hlast, rfl⟩
  | none =>
    rw [insert_of_free hobstacle] at h
    cases h

lemma events_insert_of_none (h : (t.insert e).fault = none) : (t.insert e).events =
    if t.size = t.capacity then [.grew (t.insert e).state.capacity] else [] := by
  rw [fault_insert_eq_none_iff_follows, ← obstacle?_eq_none_iff] at h
  rw [insert_of_free h]
  rfl

lemma events_trim {ε : Type} (t : RangeTable w) : (t.trim : Outcome _ ε).events =
    if t.size = t.capacity then [] else [.trimmed t.size] := by
  rw [trim_eq]

/-- Nothing is reported of several insertions but what is reported of each. -/
theorem events_insertMany (t : RangeTable w) (es : List (Entry w)) :
    (t.insertMany es).events = (t.attempts es).flatMap Outcome.events := by
  induction es generalizing t with
  | nil => rfl
  | cons e es ih =>
    rw [insertMany, attempts, List.flatMap_cons]
    cases hfault : (t.insert e).fault with
    | some v => rw [Outcome.andThen_of_fault hfault, List.flatMap_nil, List.append_nil]
    | none => rw [Outcome.andThen_of_none hfault, ih]

lemma capacity_insert_eq_lead (t : RangeTable w) (e : Entry w) :
    (t.insert e).state.capacity = Event.lead t.capacity (t.insert e).events := by
  cases hfault : (t.insert e).fault with
  | some v =>
    obtain ⟨last, -, hevents⟩ := events_insert_of_fault hfault
    rw [hevents, (insert_of_fault hfault).1]
    rfl
  | none =>
    rw [events_insert_of_none hfault]
    by_cases hfull : t.size = t.capacity
    · rw [if_pos hfull]
      rfl
    · rw [if_neg hfull, capacity_insert, if_neg fun h => hfull h.2]
      rfl

lemma capacity_insertMany_eq_lead (t : RangeTable w) (es : List (Entry w)) :
    (t.insertMany es).state.capacity = Event.lead t.capacity (t.insertMany es).events := by
  induction es generalizing t with
  | nil => rfl
  | cons e es ih =>
    have hfirst := t.capacity_insert_eq_lead e
    rw [insertMany]
    cases hfault : (t.insert e).fault with
    | some v => rw [Outcome.andThen_of_fault hfault, hfirst]
    | none => rw [Outcome.andThen_of_none hfault, Event.lead_append, ← hfirst, ih]

lemma capacity_trim_eq_lead {ε : Type} (t : RangeTable w) :
    (t.trim : Outcome _ ε).state.capacity = Event.lead t.capacity (t.trim : Outcome _ ε).events := by
  rw [state_trim, events_trim]
  by_cases hfull : t.size = t.capacity
  · rw [if_pos hfull]
    exact hfull
  · rw [if_neg hfull]
    rfl

end RangeTable

open RangeTable

namespace Update

lemma capacity_outcome (t : RangeTable w) (u : Update w) :
    (u.outcome t).state.capacity = Event.lead t.capacity (u.outcome t).events := by
  cases u with
  | insert e => exact t.capacity_insert_eq_lead e
  | insertMany es => exact t.capacity_insertMany_eq_lead es
  | trim => exact t.capacity_trim_eq_lead

/-- What fails reports one rejection, however much of it has been done before. -/
lemma countP_events_outcome (t : RangeTable w) (u : Update w) :
    (u.outcome t).events.countP Event.IsRejection = if (u.outcome t).fault.isSome then 1 else 0 := by
  have happart : Event.apartFromRoom (u.outcome t).events = ((u.outcome t).fault.map Violation.event).toList := by
    cases u with
    | insert e => exact t.apartFromRoom_events_insert e
    | insertMany es => exact t.apartFromRoom_events_insertMany es
    | trim =>
      change Event.apartFromRoom t.trim.events = ((t.trim : Outcome _ (Violation w)).fault.map _).toList
      rw [trim_eq]
      by_cases hfull : t.size = t.capacity
      · simp [hfull, Event.apartFromRoom]
      · simp [hfull, Event.apartFromRoom, Event.IsOfRoom]
  rw [← Event.countP_apartFromRoom, happart]
  cases (u.outcome t).fault with
  | none => rfl
  | some v => rfl

/-- As many rejections are reported of a run as there are failures in it. -/
theorem countP_log (t : RangeTable w) (us : List (Update w)) :
    (log t us).countP Event.IsRejection = (outcomes t us).countP (·.fault.isSome) := by
  unfold log
  induction us generalizing t with
  | nil => rfl
  | cons u us ih =>
    rw [outcomes, List.flatMap_cons, List.countP_append, ih, countP_events_outcome, List.countP_cons, Nat.add_comm]

/-- The room behind a run can be told from the room before it and the events alone. -/
theorem capacity_table (t : RangeTable w) (us : List (Update w)) :
    (table t us).capacity = Event.lead t.capacity (log t us) := by
  unfold table log
  induction us generalizing t with
  | nil => rfl
  | cons u us ih => rw [List.foldl_cons, ih, outcomes, List.flatMap_cons, Event.lead_append, capacity_outcome]

end Update

namespace RangeTable

variable {es : List (Entry w)}

/-- A text has these entries at its front. -/
def StartsWith (text : List Char) (es : List (Entry w)) : Prop :=
  ∃ front more, text = front ++ more ∧ OpensWith es front

/-- The entries that can be read one after the other at the front of a text, as many as there are. -/
structure LongestStart (text : List Char) (es : List (Entry w)) : Prop where
  starts : es = [] ∨ StartsWith text es
  longest : ∀ es', StartsWith text es' → es' <+: es

/-- The text goes on to the closing bracket behind these entries, and perhaps beyond. -/
def Closes (text : List Char) (es : List (Entry w)) : Prop :=
  ∃ array more, text = array ++ more ∧ SpellsEntries es array

lemma readItems_run (fuel : Nat) (isFirst : Bool) (text : List Char) : ∃ s more, text = s ++ more ∧
    Run isFirst ((readItems (w := w) fuel isFirst text).1.map SpellsEntry) s := by
  induction fuel generalizing isFirst text with
  | zero => exact ⟨[], text, rfl, rfl⟩
  | succ fuel ih =>
    unfold readItems
    split
    · exact ⟨[], text, rfl, rfl⟩
    · exact ⟨[], text, rfl, rfl⟩
    · rename_i rest hseparator
      split
      · exact ⟨[], text, rfl, rfl⟩
      · rename_i e rest' hentry
        obtain ⟨g, rfl, hg⟩ := readSeparator_eq_true hseparator
        -- The reader of an entry takes blanks in front of it, which belong to the separator.
        obtain ⟨b, t, rfl, hb, ht⟩ := takes_readEntry.sound hentry
        obtain ⟨s, more, rfl, hs⟩ := ih false rest'
        refine ⟨g ++ b ++ t ++ s, more, by simp only [List.append_assoc], ?_⟩
        exact ⟨g ++ b, t, s, rfl, hg.append_blanks hb, ht, hs⟩

lemma skipBlanks_of_startsWith {text : List Char} (h : StartsWith text es) : ∃ s more,
    skipBlanks text = '[' :: (s ++ more) ∧ Run true (es.map SpellsEntry) s := by
  obtain ⟨front, more, rfl, b, s, rfl, hb, hs⟩ := h
  refine ⟨s, more, ?_, hs⟩
  rw [List.append_assoc, List.cons_append, skipBlanks_append hb, skipBlanks_cons (by decide)]

lemma skipBlanks_of_closes {text : List Char} (h : Closes text es) : ∃ body more,
    skipBlanks text = '[' :: (body ++ ']' :: more) ∧ Items true (es.map SpellsEntry) body := by
  obtain ⟨array, more, rfl, b, t, b', rfl, hb, ⟨body, rfl, hbody⟩, -⟩ := h
  refine ⟨body, b' ++ more, ?_, hbody⟩
  simp only [List.append_assoc, List.cons_append, List.nil_append]
  rw [skipBlanks_append hb, skipBlanks_cons (by decide)]

lemma length_lt_of_skipBlanks {text rest : List Char} (h : skipBlanks text = '[' :: rest) :
    rest.length < text.length := by
  have hlength : (skipBlanks text).length ≤ text.length := (List.dropWhile_sublist isBlank).length_le
  rw [h] at hlength
  exact hlength

lemma longestStart_readItems {text rest : List Char} (hskip : skipBlanks text = '[' :: rest) :
    LongestStart text (readItems (w := w) (text.length + 1) true rest).1 where
  starts := by
    obtain ⟨b, htext, hb, -⟩ := skipBlanks_eq_cons hskip
    obtain ⟨s, more, hrest, hs⟩ := readItems_run (w := w) (text.length + 1) true rest
    refine .inr ⟨b ++ '[' :: s, more, ?_, b, s, rfl, hb, hs⟩
    rw [htext, List.append_assoc, List.cons_append, ← hrest]
  longest := by
    intro es hes
    obtain ⟨s, more, hskip', hs⟩ := skipBlanks_of_startsWith hes
    obtain rfl : rest = s ++ more := (List.cons.inj (hskip.symm.trans hskip')).2
    have hfuel : es.length ≤ text.length + 1 := by
      have hitems := hs.items.length_le
      have hlength := length_lt_of_skipBlanks hskip
      rw [List.length_append] at hlength
      omega
    obtain ⟨es', hread⟩ := readItems_run_append hs hfuel more
    rw [hread]
    exact List.prefix_append es es'

lemma closes_iff {text rest : List Char} {ending : Reading (Refusal w) (List Char)}
    (hskip : skipBlanks text = '[' :: rest) (hread : readItems (text.length + 1) true rest = (es, ending)) :
    Closes text es ↔ ∃ rest', ending = .ok rest' := by
  constructor
  · intro hclosed
    obtain ⟨body, more, hskip', hbody⟩ := skipBlanks_of_closes hclosed
    obtain rfl : rest = body ++ ']' :: more := (List.cons.inj (hskip.symm.trans hskip')).2
    have hfuel : es.length < text.length + 1 := by
      have hitems := hbody.length_le
      have hlength := length_lt_of_skipBlanks hskip
      rw [List.length_append] at hlength
      omega
    rw [readItems_append hbody hfuel] at hread
    exact ⟨_, (Prod.mk.inj hread).2.symm⟩
  · rintro ⟨rest', rfl⟩
    obtain ⟨b, rfl, hb, -⟩ := skipBlanks_eq_cons hskip
    obtain ⟨body, tail, rfl, -, hbody⟩ := readItems_eq_ok hread
    refine ⟨b ++ ('[' :: body ++ [']']) ++ [], tail, ?_, b, _, [], rfl, hb, ⟨body, rfl, hbody⟩, blanks_nil⟩
    simp only [List.append_assoc, List.cons_append, List.nil_append]

/-- What is reported while a text is decoded: what is reported of the entries at its front, which a table without
room is offered, and of the trim once all of them are in and the bracket behind them is there. -/
structure ToldOfText (text : String) (es : List (Entry w)) : Prop where
  longest : LongestStart text.toList es
  closed : Closes text.toList es → ((vacant 0).insertMany es).fault = none →
    (decode text : Outcome (RangeTable w) _).events = ((vacant 0).attempts es).flatMap Outcome.events ++
      (((vacant 0).insertMany es).state.trim : Outcome _ (Violation w)).events
  stopped : ¬(Closes text.toList es ∧ ((vacant 0).insertMany es).fault = none) →
    (decode text : Outcome (RangeTable w) _).events = ((vacant 0).attempts es).flatMap Outcome.events
  of_ok : (∃ t : RangeTable w, (decode text).result = .ok t) →
    Closes text.toList es ∧ ((vacant 0).insertMany es).fault = none
  of_closed : Closes text.toList es → ((vacant 0).insertMany es).fault = none →
    (∃ t : RangeTable w, (decode text).result = .ok t) ∨
      (decode text : Outcome (RangeTable w) _).result = .error .malformed

lemma toldOfText_readItems {text : String} {rest : List Char} (hskip : skipBlanks text.toList = '[' :: rest) :
    ToldOfText text (readItems (w := w) (text.toList.length + 1) true rest).1 := by
  have hlongest := longestStart_readItems (w := w) hskip
  have hresult := result_decodeText (w := w) hskip
  obtain ⟨es, ending, hread⟩ : ∃ es ending, readItems (w := w) (text.toList.length + 1) true rest = (es, ending) :=
    ⟨_, _, rfl⟩
  have hcloses := closes_iff hskip hread
  rw [hread] at hlongest hresult ⊢
  simp only at hlongest hresult ⊢
  exact {
    longest := hlongest
    closed := by
      intro hclosed haccepted
      obtain ⟨rest', rfl⟩ := hcloses.mp hclosed
      rw [decode, events_decodeText_of_closed hskip hread haccepted, events_insertMany]
    stopped := by
      intro hstopped
      rw [decode, events_decodeText_of_stopped hskip hread, events_insertMany]
      exact fun h => hstopped ⟨hcloses.mpr h.2, h.1⟩
    of_ok := by
      rintro ⟨t, ht⟩
      rw [decode, hresult] at ht
      obtain ⟨t', hmany, hrest⟩ := bind_eq_ok.mp ht
      obtain ⟨rest', hending, -⟩ := bind_eq_ok.mp hrest
      refine ⟨hcloses.mpr ⟨rest', hending⟩, ?_⟩
      rw [← Outcome.exists_result_eq_ok_iff]
      cases hinserted : ((vacant 0).insertMany es).result with
      | error v =>
        rw [hinserted] at hmany
        cases hmany
      | ok t => exact ⟨t, rfl⟩
    of_closed := by
      intro hclosed haccepted
      obtain ⟨rest', rfl⟩ := hcloses.mp hclosed
      obtain ⟨body, tail, -, rfl, -⟩ := readItems_eq_ok hread
      rw [Outcome.result_eq_ok_iff.mpr ⟨haccepted, rfl⟩] at hresult
      simp only [Except.mapError, Except.bind, result_readEnd] at hresult
      rw [decode, hresult]
      by_cases hblanks : skipBlanks tail = []
      · rw [if_pos hblanks]
        exact .inl ⟨_, rfl⟩
      · rw [if_neg hblanks]
        exact .inr rfl }

lemma toldOfText_of_no_bracket {text : String} (h : ∀ rest, skipBlanks text.toList ≠ '[' :: rest) :
    ToldOfText text ([] : List (Entry w)) := by
  have hstart : ∀ es : List (Entry w), ¬StartsWith text.toList es := by
    intro es hes
    obtain ⟨s, more, hskip, -⟩ := skipBlanks_of_startsWith hes
    exact h _ hskip
  have hopen : ¬Closes text.toList ([] : List (Entry w)) := by
    intro hclosed
    obtain ⟨body, more, hskip, -⟩ := skipBlanks_of_closes hclosed
    exact h _ hskip
  obtain ⟨fault, hfault⟩ := result_decodeText_of_no_bracket (w := w) h
  exact {
    longest := ⟨.inl rfl, fun es hes => absurd hes (hstart es)⟩
    closed := fun hclosed => absurd hclosed hopen
    stopped := fun _ => events_decodeText_of_no_bracket h
    of_ok := by
      rintro ⟨t, ht⟩
      rw [decode, hfault] at ht
      cases ht
    of_closed := fun hclosed => absurd hclosed hopen }

theorem exists_toldOfText (text : String) : ∃ es : List (Entry w), ToldOfText text es := by
  by_cases hbracket : ∃ rest, skipBlanks text.toList = '[' :: rest
  · obtain ⟨rest, hskip⟩ := hbracket
    exact ⟨_, toldOfText_readItems hskip⟩
  · exact ⟨[], toldOfText_of_no_bracket fun rest hskip => hbracket ⟨rest, hskip⟩⟩

/-- What is reported of each change to a table. -/
structure Told (t : RangeTable w) : Prop where
  refused : ∀ e v, (t.insert e).fault = some v → ∃ last, t.last? = some last ∧
    (t.insert e).events = [.rejected e.start.toNat e.stop.toNat last.stop.toNat]
  accepted : ∀ e, (t.insert e).fault = none → (t.insert e).events =
    if t.size = t.capacity then [.grew (t.insert e).state.capacity] else []
  several : ∀ es, (t.insertMany es).events = (t.attempts es).flatMap Outcome.events
  trimmed : (t.trim : Outcome _ (Violation w)).events = if t.size = t.capacity then [] else [.trimmed t.size]

lemma told (t : RangeTable w) : Told t where
  refused := fun _ _ => events_insert_of_fault
  accepted := fun _ => events_insert_of_none
  several := t.events_insertMany
  trimmed := t.events_trim

end RangeTable

/-- The events say what has been done: of each change to a table, of a table that is made of entries or read from
a text, and of a whole run, of which they give the number of failures and the room behind it. -/
theorem Update.events_account_for_run (w : Width) :
    (∀ t : RangeTable w, Told t) ∧
    (∀ (hint : Hint w) (es : List (Entry w)),
      (ofEntries hint es).events = ((vacant (max hint.lower 16)).attempts es).flatMap Outcome.events) ∧
    (∀ text : String, ∃ es : List (Entry w), ToldOfText text es) ∧
    ∀ (t : RangeTable w) (us : List (Update w)),
      (log t us).countP Event.IsRejection = (outcomes t us).countP (·.fault.isSome) ∧
        (table t us).capacity = Event.lead t.capacity (log t us) :=
  ⟨told, fun _ => events_insertMany _, exists_toldOfText, fun t us => ⟨countP_log t us, capacity_table t us⟩⟩

def fivePoints : List (Entry .narrow) :=
  [⟨1, 1, 0⟩, ⟨2, 2, 0⟩, ⟨3, 3, 0⟩, ⟨4, 4, 0⟩, ⟨5, 5, 0⟩]

/-- A text that goes on behind its array is refused, but not before room has been given back. -/
theorem fivePoints_trimmed_before_garbage :
    (decode "[[1,1,0],[2,2,0],[3,3,0],[4,4,0],[5,5,0]]x" : Outcome (RangeTable .narrow) _).result = .error .malformed ∧
    ((vacant 0).attempts fivePoints).flatMap Outcome.events = [.grew 1, .grew 2, .grew 3, .grew 4, .grew 6] ∧
    (decode "[[1,1,0],[2,2,0],[3,3,0],[4,4,0],[5,5,0]]x" : Outcome (RangeTable .narrow) _).events =
      ((vacant 0).attempts fivePoints).flatMap Outcome.events ++ [.trimmed 5] := by
  refine ⟨?_, ?_, ?_⟩
  · rw [Outcome.result_eq_error_iff]
    decide +kernel
  · decide +kernel
  · decide +kernel

end AddressAtlas

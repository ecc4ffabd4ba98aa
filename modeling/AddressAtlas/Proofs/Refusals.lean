import AddressAtlas.Proofs.Ledger

/-!
# Refused entries

An entry that is refused changes nothing, and the report names it together with the entry that it does
not follow. Of many entries a table stores the longest run from the first one on that goes on in order
behind its last entry, and the entry behind that run is the one that is reported.
-/

namespace AddressAtlas

variable {w : Width}

namespace Entry

/-- The longest beginning of `es` that goes on in ascending order behind the entry `before`, if there is one. -/
structure LongestRun (before : Option (Entry w)) (es run : List (Entry w)) : Prop where
  initial : run <+: es
  ascending : Ascending (before.toList ++ run)
  longest : ∀ other, other <+: es → Ascending (before.toList ++ other) → other.length ≤ run.length

/-- The neighbours at `i` and `i + 1`, the second of which does not start behind the end of the first. -/
structure Overlap (es : List (Entry w)) (i : Nat) (a b : Entry w) : Prop where
  left : es[i]? = some a
  right : es[i + 1]? = some b
  start_le_stop : b.start ≤ a.stop

lemma ascending_append_iff {l es : List (Entry w)} :
    Ascending (l ++ es) ↔ Ascending l ∧ Ascending (l.getLast?.toList ++ es) := by
  induction l with
  | nil => simp [Ascending]
  | cons a rest ih =>
    cases rest with
    | nil => simp [Ascending]
    | cons b rest =>
      have hlast : (a :: b :: rest).getLast? = (b :: rest).getLast? := List.getLast?_cons_cons
      rw [hlast]
      change a.stop < b.start ∧ Ascending (b :: rest ++ es) ↔ _
      rw [ih, ← and_assoc]
      rfl

lemma exists_overlap_of_not_ascending {es : List (Entry w)} (h : ¬Ascending es) :
    ∃ i a b, Overlap es i a b := by
  rw [ascending_iff_getElem?] at h
  push Not at h
  obtain ⟨i, a, b, ha, hb, hle⟩ := h
  exact ⟨i, a, b, ha, hb, BitVec.not_lt.mp hle⟩

lemma Overlap.not_ascending {es : List (Entry w)} {i : Nat} {a b : Entry w} (h : Overlap es i a b) :
    ¬Ascending es := by
  intro hes
  have hlt := ascending_iff_getElem?.mp hes i a b h.left h.right
  exact BitVec.not_le.mpr hlt h.start_le_stop

end Entry

open Entry

namespace Ledger

variable {l es run rest : List (Entry w)} {e : Entry w}

lemma violation?_of_not_follows (h : ¬Follows l e) : ∃ last, l.getLast? = some last ∧
    violation? l e = some ⟨e.start, e.stop, last.start, last.stop⟩ := by
  unfold violation?
  cases hlast : l.getLast? with
  | none =>
    refine absurd ?_ h
    intro last hmem
    rw [hlast] at hmem
    cases hmem
  | some last =>
    refine ⟨last, rfl, ?_⟩
    have hle : e.start ≤ last.stop := by
      rw [← BitVec.not_lt]
      intro hlt
      apply h
      intro other hother
      obtain rfl := Option.some.inj (hlast.symm.trans hother)
      exact hlt
    simp [hle]

/-- What is reported of entries is reported whatever follows them. -/
lemma firstViolation?_append (l es more : List (Entry w)) :
    firstViolation? l (es ++ more) = (firstViolation? l es).or (firstViolation? (l ++ es) more) := by
  induction es generalizing l with
  | nil => rw [List.nil_append, List.append_nil, firstViolation?, Option.none_or]
  | cons e es ih => rw [List.cons_append, firstViolation?, firstViolation?, ih, Option.or_assoc, ← List.append_cons]

/-- The ledger takes in a run of entries, and what stands behind the run does not follow. -/
structure Splits (l es run rest : List (Entry w)) : Prop where
  eq_append : es = run ++ rest
  ascending : Ascending (l ++ run)
  offerMany : offerMany l es = l ++ run
  firstViolation? : firstViolation? l es = rest.head?.bind (violation? (l ++ run))
  not_follows : ∀ e ∈ rest.head?, ¬Follows (l ++ run) e

lemma exists_splits (hl : Ascending l) (es : List (Entry w)) : ∃ run rest, Splits l es run rest := by
  induction es generalizing l with
  | nil =>
    refine ⟨[], [], rfl, ?_, ?_, rfl, ?_⟩
    · rwa [List.append_nil]
    · rw [Ledger.offerMany, List.append_nil]
    · intro e he
      cases he
  | cons e es ih =>
    by_cases hfollows : Follows l e
    · have hnone := violation?_eq_none_iff.mpr hfollows
      obtain ⟨run, rest, hsplits⟩ := ih (ascending_append_singleton.mpr ⟨hl, hfollows⟩)
      have hcons : l ++ e :: run = l ++ [e] ++ run := List.append_cons l e run
      refine ⟨e :: run, rest, ?_, ?_, ?_, ?_, ?_⟩
      · rw [hsplits.eq_append, List.cons_append]
      · rw [hcons]
        exact hsplits.ascending
      · rw [Ledger.offerMany, if_pos hfollows, hsplits.offerMany, hcons]
      · rw [Ledger.firstViolation?, hnone, Option.none_or, hsplits.firstViolation?, hcons]
      · rw [hcons]
        exact hsplits.not_follows
    · refine ⟨[], e :: es, rfl, ?_, ?_, ?_, ?_⟩
      · rwa [List.append_nil]
      · rw [Ledger.offerMany, if_neg hfollows, List.append_nil]
      · obtain ⟨last, -, hviolation⟩ := violation?_of_not_follows hfollows
        rw [Ledger.firstViolation?, hviolation, List.append_nil, List.head?_cons, Option.bind_some, hviolation,
          Option.some_or]
      · intro other hother
        obtain rfl := Option.some.inj hother
        rwa [List.append_nil]

lemma Splits.firstViolation?_eq_none_iff (h : Splits l es run rest) :
    Ledger.firstViolation? l es = none ↔ run = es := by
  rw [h.firstViolation?, h.eq_append, List.self_eq_append_right]
  cases hrest : rest with
  | nil => simp
  | cons e more =>
    have hfollows := h.not_follows e (by rw [hrest]; rfl)
    simp [violation?_eq_none_iff, hfollows]

lemma Splits.reports (h : Splits l es run (e :: rest)) :
    ∃ previous, (l ++ run).getLast? = some previous ∧
      Ledger.firstViolation? l es = some ⟨e.start, e.stop, previous.start, previous.stop⟩ := by
  obtain ⟨previous, hlast, hviolation⟩ := violation?_of_not_follows (h.not_follows e rfl)
  exact ⟨previous, hlast, h.firstViolation?.trans hviolation⟩

lemma Splits.longestRun (h : Splits l es run rest) : LongestRun l.getLast? es run where
  initial := ⟨rest, h.eq_append.symm⟩
  ascending := (ascending_append_iff.mp h.ascending).2
  longest := by
    intro other hother hascending
    by_contra hlong
    -- A longer run would hold the first entry behind this one.
    obtain ⟨more, hmore⟩ : run <+: other := by
      refine List.prefix_of_prefix_length_le ⟨rest, h.eq_append.symm⟩ hother ?_
      omega
    cases more with
    | nil =>
      rw [List.append_nil] at hmore
      rw [hmore] at hlong
      exact hlong (Nat.le_refl _)
    | cons e more =>
      obtain ⟨behind, hbehind⟩ := hother
      rw [← hmore, h.eq_append, List.append_assoc, List.append_cancel_left_eq] at hbehind
      have hl : Ascending l := h.ascending.of_append_left
      have hrun : Ascending (l ++ (run ++ e :: more)) := by
        rw [ascending_append_iff]
        refine ⟨hl, ?_⟩
        rwa [hmore]
      rw [List.append_cons run e more, ← List.append_assoc, ← List.append_assoc] at hrun
      refine h.not_follows e ?_ (ascending_append_singleton.mp hrun.of_append_left).2
      rw [← hbehind]
      rfl

lemma Overlap.eq_of_first {i j : Nat} {a b c d : Entry w} (h : Overlap es i a b) (h' : Overlap es j c d)
    (hfirst : ∀ k < i, ∀ c d, ¬Overlap es k c d) (hfirst' : ∀ k < j, ∀ c d, ¬Overlap es k c d) :
    a = c ∧ b = d := by
  obtain rfl : i = j := by
    rcases Nat.lt_trichotomy i j with hlt | heq | hlt
    · exact absurd h (hfirst' i hlt a b)
    · exact heq
    · exact absurd h' (hfirst j hlt c d)
  exact ⟨Option.some.inj (h.left.symm.trans h'.left), Option.some.inj (h.right.symm.trans h'.right)⟩

lemma Splits.exists_firstOverlap (h : Splits [] es run (e :: rest)) : ∃ i previous, Overlap es i previous e ∧
    (∀ j < i, ∀ c d, ¬Overlap es j c d) ∧
    Ledger.firstViolation? [] es = some ⟨e.start, e.stop, previous.start, previous.stop⟩ := by
  obtain ⟨previous, hlast, hviolation⟩ := h.reports
  obtain ⟨init, rfl⟩ : ∃ init, run = init ++ [previous] := List.getLast?_eq_some_iff.mp hlast
  have hnot := h.not_follows e rfl
  have hrun : ∀ j ≤ init.length, es[j]? = (init ++ [previous])[j]? := by
    intro j hj
    rw [h.eq_append, List.getElem?_append_left (by simp; omega)]
  refine ⟨init.length, previous, ⟨?_, ?_, ?_⟩, ?_, hviolation⟩
  · rw [hrun _ (Nat.le_refl _)]
    simp
  · rw [h.eq_append, List.getElem?_append_right (by simp)]
    simp
  · rw [← BitVec.not_lt]
    intro hlt
    apply hnot
    intro last hmem
    obtain rfl := Option.some.inj (hlast.symm.trans hmem)
    exact hlt
  · intro j hj c d hoverlap
    have hc := hoverlap.left
    have hd := hoverlap.right
    rw [hrun _ (by omega)] at hc hd
    exact (Overlap.mk hc hd hoverlap.start_le_stop).not_ascending h.ascending

/-- What is reported of a whole list is its first overlap. -/
theorem firstViolation?_nil_eq_some_iff {v : Violation w} : firstViolation? [] es = some v ↔
    ∃ i a b, Overlap es i a b ∧ (∀ j < i, ∀ c d, ¬Overlap es j c d) ∧
      v = ⟨b.start, b.stop, a.start, a.stop⟩ := by
  obtain ⟨run, rest, hsplits⟩ := exists_splits (l := []) trivial es
  cases rest with
  | nil =>
    have hnone : Ledger.firstViolation? [] es = none := hsplits.firstViolation?
    rw [hnone]
    simp only [reduceCtorEq, false_iff]
    rintro ⟨i, a, b, hoverlap, -⟩
    exact hoverlap.not_ascending (firstViolation?_nil_eq_none_iff.mp hnone)
  | cons e rest =>
    obtain ⟨i, previous, hoverlap, hfirst, hviolation⟩ := hsplits.exists_firstOverlap
    rw [hviolation]
    constructor
    · intro hv
      exact ⟨i, previous, e, hoverlap, hfirst, (Option.some.inj hv).symm⟩
    · rintro ⟨j, a, b, hother, hotherFirst, rfl⟩
      obtain ⟨rfl, rfl⟩ := Overlap.eq_of_first hoverlap hother hfirst hotherFirst
      rfl

end Ledger

open Ledger

namespace RangeTable

variable {t : RangeTable w} {es more : List (Entry w)} {e : Entry w}

lemma last?_append_getLast? (t : RangeTable w) (run : List (Entry w)) :
    (t.last?.toList ++ run).getLast? = (t.entries ++ run).getLast? := by
  rw [List.getLast?_append, List.getLast?_append, ← getLast?_entries]
  cases t.entries.getLast? with
  | none => rfl
  | some last => rfl

lemma insert_of_fault {v : Violation w} (h : (t.insert e).fault = some v) : (t.insert e).state = t ∧
    ∃ last, t.last? = some last ∧ v = ⟨e.start, e.stop, last.start, last.stop⟩ := by
  rw [fault_insert] at h
  have hfollows : ¬Follows t.entries e := by
    rw [← violation?_eq_none_iff, h]
    simp
  obtain ⟨last, hlast, hviolation⟩ := violation?_of_not_follows hfollows
  refine ⟨(insert_of_not_follows hfollows).2, last, ?_, ?_⟩
  · rw [← getLast?_entries, hlast]
  · exact Option.some.inj (h.symm.trans hviolation)

theorem insertMany_append (t : RangeTable w) (es more : List (Entry w)) :
    t.insertMany (es ++ more) = (t.insertMany es).andThen (insertMany · more) := by
  induction es generalizing t with
  | nil => rw [List.nil_append, insertMany, Outcome.idle_andThen]
  | cons e es ih => simp only [List.cons_append, insertMany, Outcome.andThen_assoc, ih]

/-- What a table does with entries that are offered to it one by one or many at once. -/
structure Offered (t : RangeTable w) : Prop where
  unchanged : ∀ e v, (t.insert e).fault = some v → (t.insert e).state.words = t.words ∧
    (t.insert e).state.values = t.values ∧ (t.insert e).state.capacity = t.capacity
  reported : ∀ e v, (t.insert e).fault = some v →
    ∃ last, t.last? = some last ∧ v = ⟨e.start, e.stop, last.start, last.stop⟩
  stored : ∀ es, ∃ run, LongestRun t.last? es run ∧
    (t.insertMany es).state.entries = t.entries ++ run ∧
    ((t.insertMany es).fault = none ↔ run = es) ∧
    ∀ e rest, es = run ++ e :: rest → ∃ previous, (t.last?.toList ++ run).getLast? = some previous ∧
      (t.insertMany es).fault = some ⟨e.start, e.stop, previous.start, previous.stop⟩
  append : ∀ es more, t.insertMany (es ++ more) = (t.insertMany es).andThen (insertMany · more)

/-- A table is made of entries that do not overlap, or the first overlap is reported. -/
structure Made (es : List (Entry w)) (o : Outcome (RangeTable w) (Violation w)) : Prop where
  fails_iff : (∃ v, o.result = .error v) ↔ ∃ i a b, Overlap es i a b
  error_iff : ∀ v, o.result = .error v ↔ ∃ i a b, Overlap es i a b ∧
    (∀ j < i, ∀ c d, ¬Overlap es j c d) ∧ v = ⟨b.start, b.stop, a.start, a.stop⟩
  made : (∀ i a b, ¬Overlap es i a b) → ∃ t, o.result = .ok t ∧ t.entries = es

lemma offered (t : RangeTable w) : Offered t where
  unchanged := by
    intro e v h
    rw [(insert_of_fault h).1]
    exact ⟨rfl, rfl, rfl⟩
  reported := fun e v h => (insert_of_fault h).2
  stored := by
    intro es
    obtain ⟨run, rest, hsplits⟩ := exists_splits t.ascending es
    refine ⟨run, ?_, ?_, ?_, ?_⟩
    · rw [← getLast?_entries]
      exact hsplits.longestRun
    · rw [entries_insertMany]
      exact hsplits.offerMany
    · rw [fault_insertMany]
      exact hsplits.firstViolation?_eq_none_iff
    · intro e behind hes
      have hrest : rest = e :: behind := List.append_cancel_left (hsplits.eq_append.symm.trans hes)
      rw [hrest] at hsplits
      rw [last?_append_getLast?, fault_insertMany]
      exact hsplits.reports
  append := t.insertMany_append

lemma result_ofEntries_eq_error_iff {hint : Hint w} {v : Violation w} :
    (ofEntries hint es).result = .error v ↔ firstViolation? [] es = some v := by
  rw [Outcome.result_eq_error_iff, ofEntries, fault_insertMany, entries_vacant]

lemma made_ofEntries (hint : Hint w) (es : List (Entry w)) : Made es (ofEntries hint es) where
  fails_iff := by
    simp only [result_ofEntries_eq_error_iff]
    constructor
    · rintro ⟨v, hv⟩
      apply exists_overlap_of_not_ascending
      rw [← firstViolation?_nil_eq_none_iff, hv]
      simp
    · rintro ⟨i, a, b, hoverlap⟩
      exact exists_violation_of_not_ascending hoverlap.not_ascending
  error_iff := by
    intro v
    rw [result_ofEntries_eq_error_iff]
    exact firstViolation?_nil_eq_some_iff
  made := by
    intro h
    have hes : Ascending es := by
      by_contra hdescends
      obtain ⟨i, a, b, hoverlap⟩ := exists_overlap_of_not_ascending hdescends
      exact h i a b hoverlap
    exact (result_insertMany_vacant _ es).1 hes

/-- An entry that is refused leaves the table as it is and is reported with the last entry; of many entries
the longest run in order is stored and the entry behind it is reported, whether the table holds others or
is made of them. -/
theorem refusals_reported (t : RangeTable w) :
    Offered t ∧ ∀ (hint : Hint w) (es : List (Entry w)), Made es (ofEntries hint es) :=
  ⟨t.offered, made_ofEntries⟩

end RangeTable

end AddressAtlas

import AddressAtlas.Proofs.EntryGrammar
import AddressAtlas.Proofs.Storage
import AddressAtlas.Proofs.Ledger

/-!
# Decoding tables

`SpellsEntries` says which texts spell which entries, and `spelled?` finds the entries that a text
spells. Decoding reads and inserts in turns; it comes to the same as finding all entries first and
inserting them afterwards, except that a fault in the order of the entries hides what is wrong with the
text behind it.
-/

namespace AddressAtlas

open Json Ledger

variable {w : Width}

/-- The text of a table: an array of entries, with blanks around it. -/
def SpellsEntries (es : List (Entry w)) (text : List Char) : Prop :=
  ∃ b t b', text = b ++ t ++ b' ∧ Blanks b ∧ IsArray (es.map SpellsEntry) t ∧ Blanks b'

lemma Json.Items.length_le {es : List (Entry w)} {isFirst : Bool} {body : List Char}
    (h : Items isFirst (es.map SpellsEntry) body) : es.length ≤ body.length := by
  induction es generalizing isFirst body with
  | nil => exact Nat.zero_le _
  | cons e es ih =>
    obtain ⟨g, t, rest, rfl, -, ⟨inner, rfl, -⟩, hrest⟩ := h
    have hle := ih hrest
    simp only [List.length_cons, List.length_append]
    omega

namespace RangeTable

/-- Reads entries up to the closing bracket of the array, and keeps those in front of a fault. -/
def readItems (fuel : Nat) (isFirst : Bool) (text : List Char) :
    List (Entry w) × Reading (Refusal w) (List Char) :=
  match fuel with
  | 0 => ([], .error .truncated)
  | fuel + 1 =>
    match readSeparator isFirst text with
    | .error fault => ([], .error fault)
    | .ok (false, rest) => ([], .ok rest)
    | .ok (true, rest) =>
      match readEntry rest with
      | .error fault => ([], .error fault)
      | .ok (e, rest) => (e :: (readItems fuel false rest).1, (readItems fuel false rest).2)

/-- The entries that a text spells, if it spells any. -/
def spelled? (text : List Char) : Option (List (Entry w)) :=
  match skipBlanks text with
  | '[' :: rest =>
    match readItems (text.length + 1) true rest with
    | (es, .ok (_ :: tail)) => if skipBlanks tail = [] then some es else none
    | _ => none
  | _ => none

lemma readItems_eq_ok {fuel : Nat} {isFirst : Bool} {text rest : List Char} {es : List (Entry w)}
    (h : readItems fuel isFirst text = (es, .ok rest)) :
    ∃ body tail, text = body ++ ']' :: tail ∧ rest = ']' :: tail ∧
      Items isFirst (es.map SpellsEntry) body := by
  induction fuel generalizing isFirst text es with
  | zero => cases h
  | succ fuel ih =>
    unfold readItems at h
    split at h
    · cases h
    · rename_i rest' hseparator
      obtain ⟨rfl, hrest⟩ := Prod.mk.inj h
      obtain rfl : rest' = rest := Except.ok.inj hrest
      obtain ⟨b, tail, rfl, hb, rfl⟩ := readSeparator_eq_false hseparator
      exact ⟨b, tail, rfl, rfl, hb⟩
    · rename_i rest' hseparator
      split at h
      · cases h
      · rename_i e rest'' hentry
        obtain ⟨rfl, hrest⟩ := Prod.mk.inj h
        obtain ⟨g, rfl, hg⟩ := readSeparator_eq_true hseparator
        obtain ⟨b, s, rfl, hb, hs⟩ := takes_readEntry.sound hentry
        obtain ⟨body, tail, rfl, rfl, hitems⟩ := ih (Prod.ext rfl hrest)
        refine ⟨g ++ b ++ s ++ body, tail, by simp only [List.append_assoc], rfl, ?_⟩
        exact ⟨g ++ b, s, body, rfl, hg.append_blanks hb, hs, hitems⟩

lemma readItems_cons (fuel : Nat) {isFirst : Bool} {g s : List Char} {e : Entry w} (hg : Separator isFirst g)
    (hs : SpellsEntry e s) (rest : List Char) : readItems (fuel + 1) isFirst (g ++ (s ++ rest)) =
      (e :: (readItems fuel false rest).1, (readItems fuel false rest).2) := by
  have hseparator : (readSeparator isFirst (g ++ (s ++ rest)) : Reading (Refusal w) _) = .ok (true, s ++ rest) :=
    readSeparator_append hg (takes_readEntry.starts hs).append
  rw [readItems, hseparator]
  simp only
  rw [readEntry_append hs]

lemma readItems_append {fuel : Nat} {isFirst : Bool} {body : List Char} {es : List (Entry w)}
    (h : Items isFirst (es.map SpellsEntry) body) (hfuel : es.length < fuel) (rest : List Char) :
    readItems fuel isFirst (body ++ ']' :: rest) = (es, .ok (']' :: rest)) := by
  induction fuel generalizing isFirst body es with
  | zero => cases hfuel
  | succ fuel ih =>
    cases es with
    | nil => rw [readItems, readSeparator_close h]
    | cons e es =>
      obtain ⟨g, s, tail, rfl, hg, hs, htail⟩ := h
      simp only [List.append_assoc]
      rw [readItems_cons fuel hg hs, ih htail (Nat.lt_of_succ_lt_succ hfuel)]

lemma spellsEntries_of_spelled? {text : List Char} {es : List (Entry w)} (h : spelled? text = some es) :
    SpellsEntries es text := by
  unfold spelled? at h
  split at h
  · rename_i rest hskip
    obtain ⟨b, rfl, hb, -⟩ := skipBlanks_eq_cons hskip
    split at h
    · rename_i es' c tail hitems
      split at h
      · rename_i hblanks
        obtain rfl : es' = es := Option.some.inj h
        obtain ⟨body, tail', rfl, hrest, hbody⟩ := readItems_eq_ok hitems
        obtain rfl : tail = tail' := (List.cons.inj hrest).2
        refine ⟨b, '[' :: body ++ [']'], tail, ?_, hb, ⟨body, rfl, hbody⟩, ?_⟩
        · simp only [List.append_assoc, List.cons_append, List.nil_append]
        · exact skipBlanks_eq_nil_iff.mp hblanks
      · cases h
    · cases h
  · cases h

lemma spelled?_of_spellsEntries {text : List Char} {es : List (Entry w)} (h : SpellsEntries es text) :
    spelled? text = some es := by
  obtain ⟨b, t, b', rfl, hb, ⟨body, rfl, hbody⟩, hb'⟩ := h
  have hskip : skipBlanks (b ++ ('[' :: body ++ [']']) ++ b') = '[' :: (body ++ ']' :: b') := by
    simp only [List.append_assoc, List.cons_append, List.nil_append]
    rw [skipBlanks_append hb, skipBlanks_cons (by decide)]
  have hfuel : es.length < (b ++ ('[' :: body ++ [']']) ++ b').length + 1 := by
    have hle := hbody.length_le
    simp only [List.length_append, List.length_cons]
    omega
  unfold spelled?
  rw [hskip]
  simp only
  rw [readItems_append hbody hfuel]
  simp only
  rw [if_pos (skipBlanks_eq_nil_iff.mpr hb')]

/-- The texts in which entries are found are those that spell them. -/
theorem spelled?_eq_some_iff {text : List Char} {es : List (Entry w)} :
    spelled? text = some es ↔ SpellsEntries es text :=
  ⟨spellsEntries_of_spelled?, spelled?_of_spellsEntries⟩

/-- A violation as a fault of the text. -/
def refusal (v : Violation w) : Fault (Refusal w) :=
  .refused (.violation v)

/-- Reading and inserting in turns comes to the same as reading first and inserting then, except that a
violation comes before what is wrong with the text behind it; the same is reported too. -/
theorem readEntries_eq_insertMany (fuel : Nat) (isFirst : Bool) (t : RangeTable w) (text : List Char) :
    (readEntries fuel isFirst (t, text)).result =
      ((t.insertMany (readItems fuel isFirst text).1).result.mapError refusal).bind (fun t' =>
        (readItems fuel isFirst text).2.map fun rest => (t', rest)) ∧
    (readEntries fuel isFirst (t, text)).events = (t.insertMany (readItems fuel isFirst text).1).events := by
  induction fuel generalizing isFirst t text with
  | zero => exact ⟨rfl, rfl⟩
  | succ fuel ih =>
    unfold readEntries readItems
    cases hseparator : (readSeparator isFirst text : Reading (Refusal w) _) with
    | error fault =>
      simp only [hseparator]
      exact ⟨rfl, rfl⟩
    | ok separated =>
      obtain ⟨more, rest⟩ := separated
      simp only [hseparator]
      cases more with
      | false => exact ⟨rfl, rfl⟩
      | true =>
        simp only
        cases hentry : (readEntry rest : Reading (Refusal w) _) with
        | error fault => exact ⟨rfl, rfl⟩
        | ok read =>
          obtain ⟨e, rest'⟩ := read
          simp only [insertMany]
          rcases hinsert : t.insert e with ⟨t', _ | v, events⟩
          · obtain ⟨hresult, hevents⟩ := ih false t' rest'
            exact ⟨hresult, congrArg (events ++ ·) hevents⟩
          · exact ⟨rfl, rfl⟩

lemma result_trim {ε : Type} (t : RangeTable w) : (t.trim : Outcome _ ε).result = .ok t.fitted := by
  rw [trim_eq]
  rfl

lemma result_readEnd (t : RangeTable w) (tail : List Char) :
    (readEnd (t, ']' :: tail)).result =
      if skipBlanks tail = [] then .ok (t, []) else .error .malformed := by
  have hclose : (readClose (']' :: tail) : Reading (Refusal w) _) = .ok tail :=
    readClose_append blanks_nil tail
  unfold readEnd
  simp only [hclose]
  split
  · rename_i hblanks
    rw [if_pos hblanks]
    rfl
  · rename_i hblanks
    rw [if_neg hblanks]
    rfl

/-- Behind its opening bracket a text is decoded by inserting the entries that are read from it, up to the
closing bracket, behind which only blanks may stand. -/
lemma result_decodeText {text rest : List Char} (hskip : skipBlanks text = '[' :: rest) :
    (decodeText text : Outcome (RangeTable w) _).result =
      (((vacant 0).insertMany (readItems (text.length + 1) true rest).1).result.mapError refusal).bind
        fun t => (readItems (text.length + 1) true rest).2.bind fun rest' =>
          (readEnd (t.fitted, rest')).result.map Prod.fst := by
  unfold decodeText
  rw [hskip]
  simp only
  rw [Outcome.result_map, Outcome.result_andThen, Outcome.result_andThen, (readEntries_eq_insertMany _ _ _ _).1]
  cases ((vacant 0).insertMany (readItems (text.length + 1) true rest).1).result with
  | error v => rfl
  | ok t =>
    cases (readItems (text.length + 1) true rest).2 with
    | error fault => rfl
    | ok rest' =>
      simp only [Except.mapError, Except.map, Except.bind]
      rw [Outcome.result_map, result_trim]
      rfl

lemma result_decodeText_of_no_bracket {text : List Char} (h : ∀ rest, skipBlanks text ≠ '[' :: rest) :
    ∃ fault, (decodeText text : Outcome (RangeTable w) _).result = .error fault := by
  unfold decodeText
  split
  · exact ⟨_, rfl⟩
  · rename_i rest hskip
    exact absurd hskip (h rest)
  · exact ⟨_, rfl⟩

lemma events_readEnd (state : Progress w) : (readEnd state).events = [] := by
  unfold readEnd
  split
  · rfl
  · split
    · rfl
    · rfl

/-- Room is given back behind the last entry. Whether the text ends there is looked at afterwards. -/
lemma events_decodeText_of_closed {text rest rest' : List Char} {es : List (Entry w)}
    (hskip : skipBlanks text = '[' :: rest) (hread : readItems (text.length + 1) true rest = (es, .ok rest'))
    (haccepted : ((vacant 0).insertMany es).fault = none) :
    (decodeText text : Outcome (RangeTable w) _).events = ((vacant 0).insertMany es).events ++
      (((vacant 0).insertMany es).state.trim : Outcome _ (Violation w)).events := by
  obtain ⟨hresult, hevents⟩ := readEntries_eq_insertMany (w := w) (text.length + 1) true (vacant 0) rest
  rw [hread, Outcome.result_eq_ok_iff.mpr ⟨haccepted, rfl⟩] at hresult
  rw [hread] at hevents
  obtain ⟨hfault, hstate⟩ := Outcome.result_eq_ok_iff.mp hresult
  unfold decodeText
  rw [hskip]
  simp only
  rw [Outcome.andThen_of_none hfault, hstate, trim_eq, trim_eq, hevents]
  change ((_ : Outcome (Progress w) _).andThen readEnd).events = _
  rw [Outcome.andThen_of_none rfl, events_readEnd, List.append_nil]
  rfl

/-- Without a closing bracket, or behind an entry that is refused, no room is given back. -/
lemma events_decodeText_of_stopped {text rest : List Char} {es : List (Entry w)}
    {ending : Reading (Refusal w) (List Char)} (hskip : skipBlanks text = '[' :: rest)
    (hread : readItems (text.length + 1) true rest = (es, ending))
    (hstopped : ¬(((vacant 0).insertMany es).fault = none ∧ ∃ rest', ending = .ok rest')) :
    (decodeText text : Outcome (RangeTable w) _).events = ((vacant 0).insertMany es).events := by
  obtain ⟨hresult, hevents⟩ := readEntries_eq_insertMany (w := w) (text.length + 1) true (vacant 0) rest
  rw [hread] at hresult hevents
  obtain ⟨fault, hfault⟩ : ∃ fault,
      (readEntries (text.length + 1) true (vacant (w := w) 0, rest)).fault = some fault := by
    simp only [← Outcome.result_eq_error_iff, hresult]
    cases hmany : ((vacant 0).insertMany es).result with
    | error v => exact ⟨_, rfl⟩
    | ok t =>
      cases ending with
      | error fault => exact ⟨_, rfl⟩
      | ok rest' => exact absurd ⟨(Outcome.result_eq_ok_iff.mp hmany).1, rest', rfl⟩ hstopped
  unfold decodeText
  rw [hskip]
  simp only
  rw [Outcome.andThen_of_fault hfault, Outcome.andThen_of_fault hfault, ← hevents]
  rfl

lemma events_decodeText_of_no_bracket {text : List Char} (h : ∀ rest, skipBlanks text ≠ '[' :: rest) :
    (decodeText text : Outcome (RangeTable w) _).events = [] := by
  unfold decodeText
  split
  · rfl
  · rename_i rest hskip
    exact absurd hskip (h rest)
  · rfl

/-- A text that spells entries is decoded to the table in which they have been inserted. -/
theorem result_decodeText_of_spelled {text : List Char} {es : List (Entry w)}
    (h : spelled? text = some es) :
    (decodeText text).result =
      (((vacant 0).insertMany es).result.mapError refusal).map fitted := by
  unfold spelled? at h
  split at h
  · rename_i rest hskip
    split at h
    · rename_i es' c tail hitems
      split at h
      · rename_i hblanks
        obtain rfl : es' = es := Option.some.inj h
        obtain ⟨body, tail', -, hrest, -⟩ := readItems_eq_ok hitems
        obtain ⟨rfl, rfl⟩ := List.cons.inj hrest
        rw [result_decodeText hskip, hitems]
        simp only [Except.bind, result_readEnd, if_pos hblanks]
        cases ((vacant 0).insertMany es').result with
        | error v => rfl
        | ok t => rfl
      · cases h
    · cases h
  · cases h

/-- A text that spells no entries is not decoded. -/
theorem result_decodeText_of_unspelled {text : List Char} (h : spelled? (w := w) text = none) :
    ∃ fault : Fault (Refusal w), (decodeText text).result = .error fault := by
  by_cases hbracket : ∃ rest, skipBlanks text = '[' :: rest
  · obtain ⟨rest, hskip⟩ := hbracket
    rw [result_decodeText hskip]
    obtain ⟨es, ending, hitems⟩ :
        ∃ es ending, readItems (w := w) (text.length + 1) true rest = (es, ending) := ⟨_, _, rfl⟩
    rw [hitems]
    cases ((vacant 0).insertMany es).result with
    | error v => exact ⟨refusal v, rfl⟩
    | ok t =>
      cases ending with
      | error fault => exact ⟨fault, rfl⟩
      | ok rest' =>
        obtain ⟨body, tail, -, rfl, -⟩ := readItems_eq_ok hitems
        have hblanks : skipBlanks tail ≠ [] := by
          intro hblanks
          unfold spelled? at h
          simp only [hskip, hitems, hblanks, if_true] at h
          cases h
        refine ⟨.malformed, ?_⟩
        simp only [Except.mapError, Except.bind, result_readEnd, if_neg hblanks]
        rfl
  · exact result_decodeText_of_no_bracket fun rest hskip => hbracket ⟨rest, hskip⟩

variable {text : String} {es : List (Entry w)}

lemma result_decode_of_ascending (h : SpellsEntries es text.toList) (hes : Entry.Ascending es) :
    ∃ t, (decode text).result = .ok t ∧ t.entries = es ∧ t.capacity = es.length := by
  obtain ⟨t, ht, hentries⟩ := (result_insertMany_vacant 0 es).1 hes
  refine ⟨t.fitted, ?_, hentries, ?_⟩
  · rw [decode, result_decodeText_of_spelled (spelled?_eq_some_iff.mpr h), ht]
    rfl
  · rw [← hentries, length_entries]
    rfl

lemma result_decode_of_violation {v : Violation w} (h : SpellsEntries es text.toList)
    (hv : firstViolation? [] es = some v) : (decode text).result = .error (refusal v) := by
  rw [decode, result_decodeText_of_spelled (spelled?_eq_some_iff.mpr h),
    (result_insertMany_vacant 0 es).2 v hv]
  rfl

lemma spellsEntries_of_result_decode {t : RangeTable w} (h : (decode text).result = .ok t) :
    SpellsEntries t.entries text.toList := by
  cases hspelled : spelled? (w := w) text.toList with
  | none =>
    obtain ⟨fault, hfault⟩ := result_decodeText_of_unspelled hspelled
    rw [decode, hfault] at h
    cases h
  | some es =>
    have hes := spelled?_eq_some_iff.mp hspelled
    by_cases hascending : Entry.Ascending es
    · obtain ⟨t', ht', hentries, -⟩ := result_decode_of_ascending hes hascending
      obtain rfl : t' = t := Except.ok.inj (ht'.symm.trans h)
      exact hentries ▸ hes
    · obtain ⟨v, hv⟩ := exists_violation_of_not_ascending hascending
      rw [result_decode_of_violation hes hv] at h
      cases h

lemma eq_vacant_of_entries_eq_nil {t : RangeTable w} (h : t.entries = []) :
    t = vacant t.capacity := by
  have hsize : t.size = 0 := by rw [← length_entries, h, List.length_nil]
  obtain ⟨words, values, capacity, hwords, hcapacity, hascending⟩ := t
  obtain rfl : values = #[] := Array.size_eq_zero_iff.mp hsize
  obtain rfl : words = #[] := by
    rw [Array.size_empty, Nat.zero_mul] at hwords
    exact Array.size_eq_zero_iff.mp hwords
  rfl

lemma exists_decode_iff : (∃ t : RangeTable w, (decode text).result = .ok t) ↔
    ∃ es : List (Entry w), SpellsEntries es text.toList ∧ Entry.Ascending es := by
  constructor
  · rintro ⟨t, ht⟩
    exact ⟨t.entries, spellsEntries_of_result_decode ht, t.ascending⟩
  · rintro ⟨es, hspells, hes⟩
    obtain ⟨t, ht, -⟩ := result_decode_of_ascending hspells hes
    exact ⟨t, ht⟩

lemma decode_eq_of_ofEntries_ok {hint : Hint w} {t : RangeTable w} (h : SpellsEntries es text.toList)
    (ht : (ofEntries hint es).result = .ok t) :
    ∃ t', (decode text).result = .ok t' ∧ t'.entries = es ∧ (t' == t) = true ∧
      t'.capacity = es.length := by
  have hes : Entry.Ascending es := (exists_ofEntries_iff hint).mp ⟨t, ht⟩
  obtain ⟨made, hmade, hentries⟩ := (result_insertMany_vacant _ es).1 hes
  obtain rfl : made = t := Except.ok.inj (hmade.symm.trans ht)
  obtain ⟨t', ht', hentries', hcapacity⟩ := result_decode_of_ascending h hes
  exact ⟨t', ht', hentries', beq_iff_entries_eq.mpr (hentries'.trans hentries.symm), hcapacity⟩

lemma decode_eq_of_ofEntries_error {hint : Hint w} {v : Violation w} (h : SpellsEntries es text.toList)
    (hv : (ofEntries hint es).result = .error v) : (decode text).result = .error (refusal v) := by
  by_cases hes : Entry.Ascending es
  · obtain ⟨t, ht⟩ := (exists_ofEntries_iff hint).mpr hes
    rw [hv] at ht
    cases ht
  · obtain ⟨v', hv'⟩ := exists_violation_of_not_ascending hes
    have hmade : (ofEntries hint es).result = .error v' := (result_insertMany_vacant _ es).2 v' hv'
    obtain rfl : v' = v := Except.error.inj (hmade.symm.trans hv)
    exact result_decode_of_violation h hv'

/-- A text is decoded exactly if it spells entries of which a table can be made. The decoded table equals
the one that is made of them, whatever has been announced of them, and has no spare room; otherwise the violation
is reported. -/
theorem decode_eq_ok_iff_spells (text : String) (hint : Hint w) :
    ((∃ t : RangeTable w, (decode text).result = .ok t) ↔
      ∃ es : List (Entry w), SpellsEntries es text.toList ∧ ∃ t, (ofEntries hint es).result = .ok t) ∧
    (∀ es : List (Entry w), SpellsEntries es text.toList →
      (∀ t, (ofEntries hint es).result = .ok t →
        ∃ t', (decode text).result = .ok t' ∧ t'.entries = es ∧ (t' == t) = true ∧
          t'.capacity = es.length) ∧
      ∀ v, (ofEntries hint es).result = .error v →
        ∃ r : Refusal w, (decode text).result = .error (.refused r) ∧ r.message = v.message) ∧
    (SpellsEntries ([] : List (Entry w)) text.toList →
      (decode text).result = .ok (vacant 0 : RangeTable w)) := by
  refine ⟨?_, ?_, ?_⟩
  · rw [exists_decode_iff]
    simp only [exists_ofEntries_iff]
  · intro es hes
    constructor
    · intro t ht
      exact decode_eq_of_ofEntries_ok hes ht
    · intro v hv
      exact ⟨.violation v, decode_eq_of_ofEntries_error hes hv, rfl⟩
  · intro hempty
    obtain ⟨t, ht, hentries, hcapacity⟩ := result_decode_of_ascending hempty trivial
    rw [ht, eq_vacant_of_entries_eq_nil hentries, hcapacity]
    rfl

theorem decode_entries_up_to_the_bounds :
    (∃ t : RangeTable .narrow,
      (decode " [ [0,0,-2147483648] ,\t[1, 4294967295,2147483647]\n]\r").result = .ok t ∧
        t.entries = [⟨0, 0, -2147483648⟩, ⟨1, 4294967295, 2147483647⟩] ∧ t.capacity = 2) ∧
    ∃ r : Refusal .wide,
      (decode "[[9,340282366920938463463374607431768211455,-1],[7,0,0]]").result = .error (.refused r) ∧
        r.message = "range 7-0 isn't greater than previous max range " ++
          "9-340282366920938463463374607431768211455" := by
  constructor
  · have hspells : SpellsEntries (w := .narrow) [⟨0, 0, -2147483648⟩, ⟨1, 4294967295, 2147483647⟩]
        " [ [0,0,-2147483648] ,\t[1, 4294967295,2147483647]\n]\r".toList :=
      spelled?_eq_some_iff.mp (by decide)
    obtain ⟨t, ht, -⟩ := (result_insertMany_vacant defaultCapacity _).1
      (by decide : Entry.Ascending (w := .narrow) [⟨0, 0, -2147483648⟩, ⟨1, 4294967295, 2147483647⟩])
    obtain ⟨t', ht', hentries, -, hcapacity⟩ := ((decode_eq_ok_iff_spells _ ⟨2, by decide⟩).2.1 _ hspells).1 t ht
    exact ⟨t', ht', hentries, hcapacity⟩
  · have hspells : SpellsEntries (w := .wide) [⟨9, -1, -1⟩, ⟨7, 0, 0⟩]
        "[[9,340282366920938463463374607431768211455,-1],[7,0,0]]".toList :=
      spelled?_eq_some_iff.mp (by decide)
    have hviolation := (result_insertMany_vacant (w := .wide) defaultCapacity [⟨9, -1, -1⟩, ⟨7, 0, 0⟩]).2
      ⟨7, 0, 9, -1⟩ (by decide)
    obtain ⟨r, hr, hmessage⟩ := ((decode_eq_ok_iff_spells _ ⟨0, by decide⟩).2.1 _ hspells).2 _ hviolation
    exact ⟨r, hr, hmessage.trans (by decide +kernel)⟩

end RangeTable

end AddressAtlas

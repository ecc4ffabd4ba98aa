import AddressAtlas.Proofs.Sessions
import AddressAtlas.Proofs.TableEncoding

/-!
# Texts that end too soon

A text may break off anywhere. Inside a number what is there is a shorter number, which a reader takes
and has nothing left to go on with; everywhere else the end of the text is met at once. Either way what
has been read of the text is never taken for the whole, and no entry is inserted before its closing
bracket has been read.
-/

namespace AddressAtlas

open Json Text

variable {w : Width}

/-- What a text and another one behind it begin with is a beginning of the first one, which goes on, or all
of it with a beginning of the second one. -/
lemma prefix_append_cases {α : Type} {p s t : List α} (h : p <+: s ++ t) :
    p <+: s ∧ p ≠ s ∨ ∃ p', p = s ++ p' ∧ p' <+: t := by
  obtain ⟨q, hq⟩ := h
  rcases List.append_eq_append_iff.mp hq with ⟨r, rfl, -⟩ | ⟨r, rfl, rfl⟩
  · by_cases hr : r = []
    · subst hr
      exact .inr ⟨[], by simp, List.nil_prefix⟩
    · exact .inl ⟨List.prefix_append p r, by simpa using Ne.symm hr⟩
  · exact .inr ⟨r, rfl, List.prefix_append r q⟩

namespace Json

/-- What a number begins with is a number that is not greater. -/
lemma IsNatural.of_initial {n : Nat} {p s : List Char} (hs : IsNatural n s) (hp : p <+: s) (hne : p ≠ []) :
    ∃ m ≤ n, IsNatural m p := by
  obtain ⟨q, rfl⟩ := hp
  refine ⟨Nat.ofDigits 10 (p.reverse.map digitOf), ?_, hne, ?_, ?_, rfl⟩
  · rw [← hs.value, List.reverse_append, List.map_append, Nat.ofDigits_append]
    have hpow : 0 < 10 ^ (q.reverse.map digitOf).length := Nat.pow_pos (by decide)
    exact Nat.le_add_left_of_le (Nat.le_mul_of_pos_left _ hpow)
  · exact fun c hc => hs.isDigit c (List.mem_append_left q hc)
  · intro hhead
    have hzero := hs.no_leading_zero (by rw [List.head?_append_of_ne_nil p hne, hhead])
    obtain ⟨c, t, rfl⟩ := List.exists_cons_of_ne_nil hne
    obtain ⟨rfl, htail⟩ := List.cons.inj hzero
    rw [(List.append_eq_nil_iff.mp htail).1]

lemma IsNatural.head?_of_zero {s : List Char} (hs : IsNatural 0 s) : s.head? = some '0' := by
  obtain ⟨c, t, rfl, hc⟩ := hs.exists_cons
  have hvalue := hs.value
  rw [List.reverse_cons, List.map_append, Nat.ofDigits_append, List.map_singleton, Nat.ofDigits_singleton] at hvalue
  have hdigit : digitOf c = 0 := by
    rcases Nat.mul_eq_zero.mp (Nat.add_eq_zero_iff.mp hvalue).2 with h | h
    · exact absurd h (Nat.pow_pos (by decide)).ne'
    · exact h
  rw [eq_zero_of_digitOf_eq_zero hc hdigit, List.head?_cons]

lemma IsNatural.pos_of_initial {n m : Nat} {p s : List Char} (hs : IsNatural n s) (hm : IsNatural m p)
    (hp : p <+: s) (hn : 0 < n) : 0 < m := by
  rw [Nat.pos_iff_ne_zero]
  rintro rfl
  obtain ⟨q, rfl⟩ := hp
  have hzero := hs.no_leading_zero (by rw [List.head?_append_of_ne_nil p hm.ne_nil, hm.head?_of_zero])
  rw [← hs.value, hzero] at hn
  exact absurd hn (by decide)

/-- What an integer begins with is a minus sign alone, or an integer between it and zero. -/
lemma IsInteger.of_initial {n : Int} {p s : List Char} (hs : IsInteger n s) (hp : p <+: s) (hne : p ≠ []) :
    p = ['-'] ∨ ∃ m, (0 ≤ m ∧ m ≤ n ∨ n ≤ m ∧ m < 0) ∧ IsInteger m p := by
  cases hs with
  | natural hs =>
    obtain ⟨m, hle, hm⟩ := hs.of_initial hp hne
    exact .inr ⟨m, by omega, .natural hm⟩
  | negative hs hn =>
    rcases List.prefix_cons_iff.mp hp with rfl | ⟨p, rfl, hdigits⟩
    · exact absurd rfl hne
    · by_cases hnil : p = []
      · exact .inl (by rw [hnil])
      · obtain ⟨m, hle, hm⟩ := hs.of_initial hdigits hnil
        have hpos := hs.pos_of_initial hm hdigits hn
        exact .inr ⟨-m, by omega, .negative hm hpos⟩

lemma EndsNumber.of_initial {p s : List Char} (hs : EndsNumber s) (hp : p <+: s) : EndsNumber p := by
  obtain ⟨q, rfl⟩ := hp
  intro c hc
  cases p with
  | nil => cases hc
  | cons d p => exact hs c hc

lemma Blanks.of_initial {p b : List Char} (hb : Blanks b) (hp : p <+: b) : Blanks p :=
  fun c hc => hb c (hp.subset hc)

lemma StartsItem.of_initial {p s : List Char} (hs : StartsItem s) (hp : p <+: s) (hne : p ≠ []) : StartsItem p := by
  obtain ⟨c, t, rfl, hc, hclose⟩ := hs
  rcases List.prefix_cons_iff.mp hp with rfl | ⟨p, rfl, -⟩
  · exact absurd rfl hne
  · exact ⟨c, p, rfl, hc, hclose⟩

variable {δ α β : Type}

/-- The end of the text has been met, or nothing is left of it. -/
def RunsOut (r : Reading δ (α × List Char)) : Prop :=
  r = .error .truncated ∨ ∃ a, r = .ok (a, [])

lemma RunsOut.bind_eq {r : Reading δ (α × List Char)} {f : α × List Char → Reading δ β} (h : RunsOut r)
    (hf : ∀ a, f (a, []) = .error .truncated) : r >>= f = .error .truncated := by
  rcases h with rfl | ⟨a, rfl⟩
  · rfl
  · exact hf a

lemma Takes.runsOut {read : List Char → Reading δ (α × List Char)} {token : α → List Char → Prop}
    (h : Takes read token) {a : α} {s : List Char} (hs : token a s) : RunsOut (read s) := by
  have hnil : EndsNumber [] := by
    intro c hc
    cases hc
  have hread := h.complete hs [] hnil
  rw [List.append_nil] at hread
  exact .inr ⟨a, hread⟩

/-- A reader runs out of text wherever an item breaks off. -/
def Awaits (read : List Char → Reading δ (α × List Char)) (token : α → List Char → Prop) : Prop :=
  ∀ {a s p}, token a s → p <+: s → p ≠ [] → RunsOut (read p)

end Json

namespace RangeTable

variable {δ α : Type}

lemma readSeparator_of_blanks {b : List Char} (hb : Blanks b) (isFirst : Bool) :
    (readSeparator isFirst b : Reading δ _) = .error .truncated := by
  unfold readSeparator
  rw [skipBlanks_eq_nil_iff.mpr hb]

lemma readSeparator_of_initial {isFirst : Bool} {p g : List Char} (hg : Separator isFirst g) (hp : p <+: g) :
    (readSeparator isFirst p : Reading δ _) = .error .truncated := by
  cases isFirst with
  | true => exact readSeparator_of_blanks (Blanks.of_initial hg hp) true
  | false =>
    obtain ⟨b, b', rfl, hb, hb'⟩ := hg
    rcases prefix_append_cases hp with ⟨hp, -⟩ | ⟨p, rfl, hcomma⟩
    · exact readSeparator_of_blanks (hb.of_initial hp) false
    · rcases List.prefix_cons_iff.mp hcomma with rfl | ⟨p, rfl, hblanks⟩
      · rw [List.append_nil]
        exact readSeparator_of_blanks hb false
      · unfold readSeparator
        rw [skipBlanks_append hb, skipBlanks_cons (by decide)]
        simp [skipBlanks_eq_nil_iff.mpr (hb'.of_initial hblanks)]

lemma readClose_of_initial {p b : List Char} (hb : Blanks b) (hp : p <+: b ++ [']']) (hne : p ≠ b ++ [']']) :
    (readClose p : Reading δ _) = .error .truncated := by
  have hshort := (List.prefix_concat_iff.mp hp).resolve_left hne
  unfold readClose
  rw [skipBlanks_eq_nil_iff.mpr (hb.of_initial hshort)]

lemma awaits_readKey :
    Awaits (readKey : _ → Reading (Refusal w) _) fun key : Key w => IsNatural key.toNat := by
  intro key s p hs hp hne
  obtain ⟨m, hle, hm⟩ := hs.of_initial hp hne
  have hkey : (BitVec.ofNat w.bits m).toNat = m := by
    rw [BitVec.toNat_ofNat, Nat.mod_eq_of_lt (Nat.lt_of_le_of_lt hle key.isLt)]
  exact takes_readKey.runsOut (hkey.symm ▸ hm)

lemma awaits_readValue :
    Awaits (readValue : _ → Reading (Refusal w) _) fun value : Int32 => IsInteger value.toInt := by
  intro value s p hs hp hne
  rcases hs.of_initial hp hne with rfl | ⟨m, hbounds, hm⟩
  · exact .inl rfl
  · have hleast := value.le_toInt
    have hlt := value.toInt_lt
    have hvalue : (Int32.ofInt m).toInt = m := Int32.toInt_ofInt_of_le (by omega) (by omega)
    exact takes_readValue.runsOut (hvalue.symm ▸ hm)

/-- A part of an entry, with the separator in front of it, is read or runs out of text. -/
lemma part_of_initial {read : List Char → Reading (Refusal w) (α × List Char)} {token : α → List Char → Prop}
    (htakes : Takes read token) (hawaits : Awaits read token) {i : Nat} {a : α} {g s rest p : List Char}
    (hg : Separator (i = 0) g) (hs : token a s) (hrest : EndsNumber rest) (hp : p <+: g ++ (s ++ rest)) :
    RunsOut (readPartSeparator i p >>= read) ∨
      ∃ p', p = g ++ (s ++ p') ∧ p' <+: rest ∧ (readPartSeparator i p >>= read) = .ok (a, p') := by
  have hshort : ∀ {p}, p <+: g → RunsOut (readPartSeparator i p >>= read) := by
    intro p hp
    refine .inl ?_
    unfold readPartSeparator
    rw [readSeparator_of_initial hg hp]
    rfl
  have hread : ∀ {p}, StartsItem p → (readPartSeparator i (g ++ p) >>= read) = read p := by
    intro p hp
    rw [readPartSeparator_append hg hp]
    rfl
  rcases prefix_append_cases hp with ⟨hp, -⟩ | ⟨p, rfl, hitem⟩
  · exact .inl (hshort hp)
  · rcases prefix_append_cases hitem with ⟨hitem, -⟩ | ⟨p, rfl, hbehind⟩
    · by_cases hne : p = []
      · rw [hne, List.append_nil]
        exact .inl (hshort (List.prefix_refl g))
      · rw [hread ((htakes.starts hs).of_initial hitem hne)]
        exact .inl (hawaits hs hitem hne)
    · refine .inr ⟨p, rfl, hbehind, ?_⟩
      rw [hread (htakes.starts hs).append]
      exact htakes.complete hs p (hrest.of_initial hbehind)

/-- The reader of an entry, with each part joined to the separator in front of it. -/
lemma readParts_eq (text : List Char) : (readParts text : Reading (Refusal w) _) = do
    let (start, rest) ← readPartSeparator 0 text >>= readKey
    let (stop, rest) ← readPartSeparator 1 rest >>= readKey
    let (value, rest) ← readPartSeparator 2 rest >>= readValue
    let rest ← readClose rest
    return (⟨start, stop, value⟩, rest) := by
  simp only [readParts, bind_assoc]

lemma readParts_of_initial {e : Entry w} {p s : List Char} (hs : SpellsEntry e ('[' :: s)) (hp : p <+: s)
    (hne : p ≠ s) : (readParts p : Reading (Refusal w) _) = .error .truncated := by
  obtain ⟨body, hbody, hitems⟩ := hs
  obtain rfl : s = body ++ [']'] := (List.cons.inj hbody).2
  obtain ⟨g, s, tail, rfl, hg, hs, htail⟩ := hitems
  have hend := htail.endsNumber []
  obtain ⟨g', s', tail', rfl, hg', hs', htail'⟩ := htail
  have hend' := htail'.endsNumber []
  obtain ⟨g'', s'', b, rfl, hg'', hs'', hb⟩ := htail'
  have hblanks : Items false [] b := hb
  have hend'' := hblanks.endsNumber []
  simp only [List.append_assoc] at hp hne hend hend'
  rw [readParts_eq]
  rcases part_of_initial (i := 0) takes_readKey awaits_readKey hg hs hend hp with hout | ⟨p, rfl, hp', hstart⟩
  · exact hout.bind_eq fun start => rfl
  rw [hstart, ok_bind]
  rcases part_of_initial (i := 1) takes_readKey awaits_readKey hg' hs' hend' hp' with hout | ⟨p, rfl, hp'', hstop⟩
  · exact hout.bind_eq fun stop => rfl
  simp only
  rw [hstop, ok_bind]
  rcases part_of_initial (i := 2) takes_readValue awaits_readValue hg'' hs'' hend'' hp'' with
    hout | ⟨p, rfl, hclose, hvalue⟩
  · exact hout.bind_eq fun value => rfl
  simp only
  rw [hvalue, ok_bind]
  simp only
  rw [readClose_of_initial hb hclose]
  · rfl
  · rintro rfl
    exact hne rfl

lemma readEntry_of_initial {e : Entry w} {p s : List Char} (hs : SpellsEntry e s) (hp : p <+: s) (hne : p ≠ s) :
    (readEntry p : Reading (Refusal w) _) = .error .truncated := by
  obtain ⟨body, rfl, hitems⟩ := hs
  rcases List.prefix_cons_iff.mp hp with rfl | ⟨p, rfl, hparts⟩
  · rfl
  · unfold readEntry
    rw [skipBlanks_cons (by decide)]
    exact readParts_of_initial ⟨body, rfl, hitems⟩ hparts fun h => hne (congrArg _ h)

lemma readItems_of_separator (fuel : Nat) {isFirst : Bool} {p : List Char}
    (h : (readSeparator isFirst p : Reading (Refusal w) _) = .error .truncated) :
    readItems (w := w) fuel isFirst p = ([], .error .truncated) := by
  cases fuel with
  | zero => rfl
  | succ fuel => rw [readItems, h]

lemma readItems_of_entry (fuel : Nat) {isFirst : Bool} {g p : List Char} (hg : Separator isFirst g)
    (hp : StartsItem p) (h : (readEntry p : Reading (Refusal w) _) = .error .truncated) :
    readItems (w := w) fuel isFirst (g ++ p) = ([], .error .truncated) := by
  cases fuel with
  | zero => rfl
  | succ fuel =>
    rw [readItems, readSeparator_append hg hp]
    simp only
    rw [h]

/-- Of entries that break off, those are read whose closing brackets are there. -/
theorem readItems_of_initial (fuel : Nat) {isFirst : Bool} {es : List (Entry w)} {p s : List Char}
    (hs : Run isFirst (es.map SpellsEntry) s) (hp : p <+: s) :
    ∃ n, readItems fuel isFirst p = (es.take n, .error .truncated) ∧ (p ≠ s → n < es.length) := by
  induction es generalizing fuel isFirst p s with
  | nil =>
    obtain rfl : s = [] := hs
    obtain rfl : p = [] := List.prefix_nil.mp hp
    exact ⟨0, readItems_of_separator fuel (readSeparator_of_blanks blanks_nil isFirst), fun hne => absurd rfl hne⟩
  | cons e es ih =>
    obtain ⟨g, t, rest, rfl, hg, ht, hrest⟩ := hs
    rw [List.append_assoc] at hp ⊢
    have hseparator : ∀ {p}, p <+: g → readItems (w := w) fuel isFirst p = ([], .error .truncated) :=
      fun hp => readItems_of_separator fuel (readSeparator_of_initial hg hp)
    rcases prefix_append_cases hp with ⟨hp, -⟩ | ⟨p, rfl, hentry⟩
    · exact ⟨0, hseparator hp, fun _ => Nat.succ_pos _⟩
    rcases prefix_append_cases hentry with ⟨hentry, hne⟩ | ⟨p, rfl, hbehind⟩
    · refine ⟨0, ?_, fun _ => Nat.succ_pos _⟩
      by_cases hnil : p = []
      · rw [hnil, List.append_nil]
        exact hseparator (List.prefix_refl g)
      · exact readItems_of_entry fuel hg ((takes_readEntry.starts ht).of_initial hentry hnil)
          (readEntry_of_initial ht hentry hne)
    · cases fuel with
      | zero => exact ⟨0, rfl, fun _ => Nat.succ_pos _⟩
      | succ fuel =>
        obtain ⟨n, hread, hlt⟩ := ih fuel hrest hbehind
        refine ⟨n + 1, ?_, ?_⟩
        · rw [readItems_cons fuel hg ht, hread, List.take_succ_cons]
        · intro hne
          exact Nat.succ_lt_succ (hlt fun h => hne (by rw [h]))

/-- The text runs out before all entries are there. -/
structure StopsShort (o : Outcome (RangeTable w) (Fault (Refusal w))) : Prop where
  result : o.result = .error .truncated
  unrefused : Event.apartFromRoom o.events = []

lemma stopsShort_of_blanks {text : List Char} (h : Blanks text) :
    StopsShort (decodeText text : Outcome (RangeTable w) _) := by
  unfold decodeText
  rw [skipBlanks_eq_nil_iff.mpr h]
  exact ⟨rfl, rfl⟩

/-- Ascending entries behind the opening bracket are no table until the closing bracket is there. -/
lemma stopsShort_of_readItems {text rest : List Char} {es : List (Entry w)} (hskip : skipBlanks text = '[' :: rest)
    (hread : readItems (text.length + 1) true rest = (es, .error .truncated)) (hes : Entry.Ascending es) :
    StopsShort (decodeText text : Outcome (RangeTable w) _) := by
  obtain ⟨t, ht, -⟩ := (result_insertMany_vacant 0 es).1 hes
  constructor
  · rw [result_decodeText hskip, hread, ht]
    rfl
  · have hopen : ¬(((vacant 0).insertMany es).fault = none ∧
        ∃ rest', (.error .truncated : Reading (Refusal w) (List Char)) = .ok rest') := by
      rintro ⟨-, rest', h⟩
      cases h
    rw [events_decodeText_of_stopped hskip hread hopen, apartFromRoom_events_insertMany,
      (Outcome.result_eq_ok_iff.mp ht).1]
    rfl

/-- A text that goes up to the end of the last of these entries and leaves the array open. -/
def OpensWith (es : List (Entry w)) (text : List Char) : Prop :=
  ∃ b s, text = b ++ '[' :: s ∧ Blanks b ∧ Run true (es.map SpellsEntry) s

lemma opensWith_encodeEntries (es : List (Entry w)) : OpensWith es ('[' :: joined [','] (es.map encodeEntry)) :=
  ⟨[], _, rfl, blanks_nil, run_joined (spellsEntry_each es)⟩

/-- Wherever a text breaks off before its array is closed, it stops short, as long as the entries are ascending
whose closing brackets are there. -/
theorem stopsShort_of_initial {es : List (Entry w)} {p text : List Char} (htext : OpensWith es text)
    (hp : p <+: text) (hes : ∀ n, (p ≠ text → n < es.length) → Entry.Ascending (es.take n)) :
    StopsShort (decodeText p : Outcome (RangeTable w) _) := by
  obtain ⟨b, s, rfl, hb, hs⟩ := htext
  rcases prefix_append_cases hp with ⟨hp, -⟩ | ⟨p, rfl, hbracket⟩
  · exact stopsShort_of_blanks (hb.of_initial hp)
  rcases List.prefix_cons_iff.mp hbracket with rfl | ⟨p, rfl, hentries⟩
  · rw [List.append_nil]
    exact stopsShort_of_blanks hb
  have hskip : skipBlanks (b ++ '[' :: p) = '[' :: p := by
    rw [skipBlanks_append hb, skipBlanks_cons (by decide)]
  obtain ⟨n, hread, hlt⟩ := readItems_of_initial ((b ++ '[' :: p).length + 1) hs hentries
  refine stopsShort_of_readItems hskip hread (hes n fun hne => hlt ?_)
  rintro rfl
  exact hne rfl

/-- The text of a table that breaks off anywhere is not decoded to a shorter table, nor is it refused: the
end of the text is met, and nothing is reported but room. -/
theorem truncated_of_encode_eq_append {t : RangeTable w} {text more : String} (h : t.encode = text ++ more)
    (hmore : more ≠ "") : (decode text : Outcome (RangeTable w) _).result = .error .truncated ∧
      Event.apartFromRoom (decode text : Outcome (RangeTable w) _).events = [] := by
  have hlist : '[' :: joined [','] (t.entries.map encodeEntry) ++ [']'] = text.toList ++ more.toList := by
    rw [← String.toList_append, ← h, encode, String.toList_ofList]
    rfl
  have hp : text.toList <+: '[' :: joined [','] (t.entries.map encodeEntry) := by
    refine (List.prefix_concat_iff.mp ⟨more.toList, hlist.symm⟩).resolve_left fun hall => hmore ?_
    rw [hall, List.self_eq_append_right] at hlist
    exact String.toList_eq_nil_iff.mp hlist
  have hes : ∀ n, Entry.Ascending (t.entries.take n) := by
    intro n
    have hall : Entry.Ascending (t.entries.take n ++ t.entries.drop n) := by
      rw [List.take_append_drop]
      exact t.ascending
    exact hall.of_append_left
  obtain ⟨hresult, hevents⟩ := stopsShort_of_initial (opensWith_encodeEntries t.entries) hp fun n _ => hes n
  exact ⟨hresult, hevents⟩

def signedTable : RangeTable .narrow :=
  ((vacant 0).insertMany [⟨1, 5, -3⟩, ⟨9, 7, 0⟩]).state

theorem signedTable_cut_behind_minus : signedTable.encode = "[[1,5,-" ++ "3],[9,7,0]]" ∧ "3],[9,7,0]]" ≠ "" ∧
    (decode "[[1,5,-" : Outcome (RangeTable .narrow) _).result = .error .truncated := by
  have hentries : signedTable.entries = [⟨1, 5, -3⟩, ⟨9, 7, 0⟩] :=
    (entries_insertMany _ _).trans (by decide)
  have hencode : signedTable.encode = "[[1,5,-" ++ "3],[9,7,0]]" := by
    rw [encode, hentries]
    decide +kernel
  have hmore : "3],[9,7,0]]" ≠ "" := by decide
  exact ⟨hencode, hmore, (truncated_of_encode_eq_append hencode hmore).1⟩

end RangeTable

end AddressAtlas

import AddressAtlas.Delimited
import AddressAtlas.Proofs.Utf8Encoding

/-!
# Written rows

`SpellsRows` says which texts are written from rows: fields bare or in quotes, commas between them, line
ends of any kind and empty lines. Reading the bytes of such a text yields the rows again, one by one.
-/

namespace AddressAtlas.Delimited

open Text

/-- A line feed, a carriage return, or one behind the other. -/
def IsLineEnd (s : List Char) : Prop :=
  s = ['\n'] ∨ s = ['\r'] ∨ s = ['\r', '\n']

instance : DecidablePred IsLineEnd := fun s =>
  inferInstanceAs (Decidable (s = ['\n'] ∨ s = ['\r'] ∨ s = ['\r', '\n']))

/-- Empty lines in any number. -/
def EmptyLines (s : List Char) : Prop :=
  ∃ ends : List (List Char), (∀ e ∈ ends, IsLineEnd e) ∧ s = ends.flatten

/-- A text in which every quote is written twice. -/
def doubled (cs : List Char) : List Char :=
  cs.flatMap fun c => if c = '"' then ['"', '"'] else [c]

/-- The text of a field: in quotes, or as it stands where nothing in it could be mistaken. An empty field
that is `alone` in its row is not left bare, nor is one that starts like a byte order mark. -/
inductive SpellsField (alone : Prop) (field : String) : List Char → Prop
  | quoted : SpellsField alone field ('"' :: doubled field.toList ++ ['"'])
  | bare (plain : ∀ c ∈ field.toList, c ≠ ',' ∧ c ≠ '"' ∧ c ≠ '\n' ∧ c ≠ '\r')
      (unmarked : field.toList.head? ≠ some '\uFEFF') (visible : alone → field.toList ≠ []) :
      SpellsField alone field field.toList

/-- The texts of one field or more with commas between them. -/
inductive SpellsFields (alone : Prop) : List String → List Char → Prop
  | last {field : String} {t : List Char} (h : SpellsField alone field t) : SpellsFields alone [field] t
  | cons {field : String} {fields : List String} {t s : List Char} (h : SpellsField alone field t)
      (hs : SpellsFields alone fields s) : SpellsFields alone (field :: fields) (t ++ ',' :: s)

/-- The text of a row without its line end. -/
def SpellsRow (row : List String) : List Char → Prop :=
  SpellsFields (row.length = 1) row

/-- The text of rows. Each row has a line end, which only the last one may lack, and empty lines may stand
before, between and behind the rows. -/
inductive SpellsRows : List (List String) → List Char → Prop
  | nil {blank : List Char} (hblank : EmptyLines blank) : SpellsRows [] blank
  | last {row : List String} {blank t : List Char} (hblank : EmptyLines blank) (h : SpellsRow row t) :
      SpellsRows [row] (blank ++ t)
  | cons {row : List String} {rows : List (List String)} {blank t lineEnd s : List Char}
      (hblank : EmptyLines blank) (h : SpellsRow row t) (hend : IsLineEnd lineEnd)
      (hs : SpellsRows rows s) : SpellsRows (row :: rows) (blank ++ t ++ lineEnd ++ s)

/-- The text of rows, behind a byte order mark or not. -/
def SpellsFile (rows : List (List String)) (text : List Char) : Prop :=
  SpellsRows rows text ∨ ∃ s, text = '\uFEFF' :: s ∧ SpellsRows rows s

/-- What follows the text of a field: its ending, and the bytes behind that. -/
inductive FieldTail : Ending → List UInt8 → List UInt8 → Prop
  | comma {rest : List UInt8} : FieldTail .comma (Delimited.comma :: rest) rest
  | line {b : UInt8} {rest : List UInt8} (hb : isLineEnd b = true) : FieldTail .line (b :: rest) rest
  | input : FieldTail .input [] []

variable {ending : Ending} {tail rest : List UInt8}

lemma isLineEnd_iff {b : UInt8} : isLineEnd b = true ↔ b.toNat = 10 ∨ b.toNat = 13 := by
  unfold isLineEnd
  rw [Bool.or_eq_true, beq_iff_eq, beq_iff_eq, ← UInt8.toNat_inj, ← UInt8.toNat_inj]
  rfl

lemma isFieldEnd_iff {b : UInt8} :
    isFieldEnd b = true ↔ b.toNat = 44 ∨ b.toNat = 10 ∨ b.toNat = 13 := by
  unfold isFieldEnd
  rw [Bool.or_eq_true, isLineEnd_iff, beq_iff_eq, ← UInt8.toNat_inj]
  rfl

lemma FieldTail.isFieldEnd_head (h : FieldTail ending tail rest) : ∀ b ∈ tail.head?, isFieldEnd b = true := by
  intro b hb
  cases h with
  | comma =>
    obtain rfl := Option.some.inj hb
    rfl
  | line hline =>
    obtain rfl := Option.some.inj hb
    rw [isFieldEnd, hline, Bool.or_true]
  | input => cases hb

lemma FieldTail.head?_ne_quote (h : FieldTail ending tail rest) : tail.head? ≠ some quote := by
  intro hhead
  exact absurd (h.isFieldEnd_head quote hhead) (by decide)

lemma span_append {α : Type} {p : α → Bool} {l s : List α} (hl : ∀ a ∈ l, p a = true)
    (hs : ∀ a ∈ s.head?, p a = false) :
    (l ++ s).takeWhile p = l ∧ (l ++ s).dropWhile p = s := by
  rw [List.takeWhile_append_of_pos hl, List.dropWhile_append_of_pos hl]
  cases s with
  | nil => exact ⟨List.append_nil l, rfl⟩
  | cons a s =>
    have ha : ¬p a = true := by simp [hs a rfl]
    rw [List.takeWhile_cons_of_neg ha, List.dropWhile_cons_of_neg ha, List.append_nil]
    exact ⟨rfl, rfl⟩

lemma cutBare_append (bytes : List UInt8) (hbytes : ∀ b ∈ bytes, isFieldEnd b = false)
    (h : FieldTail ending tail rest) :
    ∃ extent, cutBare (bytes ++ tail) = ⟨bytes, extent, ending, rest⟩ := by
  obtain ⟨htake, hdrop⟩ := span_append (p := (!isFieldEnd ·)) (l := bytes) (s := tail)
    (fun b hb => by rw [hbytes b hb]; rfl) (fun b hb => by rw [h.isFieldEnd_head b hb]; rfl)
  unfold cutBare
  rw [htake, hdrop]
  cases h with
  | comma => exact ⟨_, rfl⟩
  | @line b rest hb =>
    have hne : (b == comma) = false := by
      rw [beq_eq_false_iff_ne]
      rintro rfl
      exact absurd hb (by decide)
    simp only [hne]
    exact ⟨_, rfl⟩
  | input => exact ⟨_, rfl⟩

lemma span_quote {run : List UInt8} (hrun : quote ∉ run) (more : List UInt8) :
    (run ++ quote :: more).takeWhile (· != quote) = run ∧
      (run ++ quote :: more).dropWhile (· != quote) = quote :: more := by
  refine span_append (fun b hb => ?_) (fun b hb => ?_)
  · rw [bne_iff_ne]
    rintro rfl
    exact hrun hb
  · obtain rfl := Option.some.inj hb
    rfl

lemma cutQuoted_append_pair {run : List UInt8} (hrun : quote ∉ run) (before : Array UInt8) (extent : Extent)
    (more : List UInt8) :
    ∃ extent', cutQuoted before extent (run ++ quote :: quote :: more) =
      cutQuoted ((before ++ run).push quote) extent' more := by
  obtain ⟨htake, hdrop⟩ := span_quote hrun (quote :: more)
  refine ⟨extent + .of run + .of [quote] + .of [quote], ?_⟩
  rw [cutQuoted]
  split
  · rename_i heq
    rw [hdrop] at heq
    cases heq
  · rename_i heq
    rw [hdrop] at heq
    cases heq
    simp only [htake]
    rfl

lemma cutQuoted_append_end {run : List UInt8} (hrun : quote ∉ run) (before : Array UInt8) (extent : Extent)
    (h : FieldTail ending tail rest) :
    ∃ extent', cutQuoted before extent (run ++ quote :: tail) =
      ⟨before.toList ++ run, extent', ending, rest⟩ := by
  obtain ⟨htake, hdrop⟩ := span_quote hrun tail
  obtain ⟨bareExtent, hbare⟩ := cutBare_append [] (fun b hb => by cases hb) h
  rw [List.nil_append] at hbare
  rw [cutQuoted]
  split
  · rename_i heq
    rw [hdrop] at heq
    cases heq
  · rename_i heq
    rw [hdrop] at heq
    cases heq
    simp only [htake]
    split
    · rename_i b tail' _ _
      have hb : (b == quote) = false := by
        rw [beq_eq_false_iff_ne]
        rintro rfl
        exact h.head?_ne_quote rfl
      simp only [hb, hbare, Array.toList_appendList, List.append_nil]
      exact ⟨_, rfl⟩
    · cases h
      simp only [Array.toList_appendList]
      exact ⟨_, rfl⟩

lemma byte_not_mem_encodeUtf8 {c : Char} (hc : c.toNat < 128) {cs : List Char} (h : c ∉ cs) :
    UInt8.ofNat c.toNat ∉ encodeUtf8 cs := by
  intro hmem
  have hbyte : (UInt8.ofNat c.toNat).toNat = c.toNat := toNat_ofNat_byte (by omega)
  obtain ⟨d, hd, heq⟩ := exists_char_of_mem_encodeUtf8 hmem (by rw [hbyte]; exact hc)
  rw [hbyte] at heq
  exact h (Char.toNat_inj.mp heq ▸ hd)

lemma doubled_append (a b : List Char) : doubled (a ++ b) = doubled a ++ doubled b :=
  List.flatMap_append

lemma doubled_eq_self {cs : List Char} (h : '"' ∉ cs) : doubled cs = cs := by
  induction cs with
  | nil => rfl
  | cons c cs ih =>
    have hc : c ≠ '"' := fun heq => h (heq ▸ List.mem_cons_self)
    have hcs : '"' ∉ cs := fun hmem => h (List.mem_cons_of_mem c hmem)
    rw [doubled, List.flatMap_cons, if_neg hc]
    exact congrArg (c :: ·) (ih hcs)

lemma cutQuoted_doubled (cs : List Char) (before : Array UInt8) (extent : Extent)
    (h : FieldTail ending tail rest) :
    ∃ extent', cutQuoted before extent (encodeUtf8 (doubled cs) ++ quote :: tail) =
      ⟨before.toList ++ encodeUtf8 cs, extent', ending, rest⟩ := by
  -- The induction is on the number of characters, which falls from one quote to the next.
  induction hn : cs.length using Nat.strongRecOn generalizing cs before extent with
  | _ n ih =>
    by_cases hquote : '"' ∈ cs
    · obtain ⟨run, more, rfl, hrun⟩ := List.eq_append_cons_of_mem hquote
      have hlength : more.length < n := by
        rw [← hn, List.length_append, List.length_cons]
        omega
      have hbytes : encodeUtf8 (doubled (run ++ '"' :: more)) ++ quote :: tail =
          encodeUtf8 run ++ quote :: quote :: (encodeUtf8 (doubled more) ++ quote :: tail) := by
        rw [doubled_append, doubled_eq_self hrun, encodeUtf8_append, List.append_assoc]
        rfl
      obtain ⟨extent₁, hpair⟩ := cutQuoted_append_pair
        (byte_not_mem_encodeUtf8 (c := '"') (by decide) hrun) before extent
        (encodeUtf8 (doubled more) ++ quote :: tail)
      obtain ⟨extent₂, hrest⟩ := ih more.length hlength more _ extent₁ rfl
      refine ⟨extent₂, ?_⟩
      rw [hbytes]
      refine hpair.trans (hrest.trans ?_)
      simp only [Array.toList_push, Array.toList_appendList, encodeUtf8_append, encodeUtf8_cons,
        List.append_assoc]
      rfl
    · rw [doubled_eq_self hquote]
      exact cutQuoted_append_end (byte_not_mem_encodeUtf8 (c := '"') (by decide) hquote) before extent h

variable {alone : Prop} {field : String} {t : List Char}

lemma isFieldEnd_eq_false_of_plain {cs : List Char}
    (h : ∀ c ∈ cs, c ≠ ',' ∧ c ≠ '"' ∧ c ≠ '\n' ∧ c ≠ '\r') :
    ∀ b ∈ encodeUtf8 cs, isFieldEnd b = false := by
  intro b hb
  by_contra hend
  rw [Bool.not_eq_false, isFieldEnd_iff] at hend
  obtain ⟨c, hc, heq⟩ := exists_char_of_mem_encodeUtf8 hb (by omega)
  obtain ⟨hcomma, -, hfeed, hreturn⟩ := h c hc
  rcases hend with hb | hb | hb
  · exact hcomma (Char.toNat_inj.mp (heq.trans hb))
  · exact hfeed (Char.toNat_inj.mp (heq.trans hb))
  · exact hreturn (Char.toNat_inj.mp (heq.trans hb))

/-- The text of a field is read as the field. -/
theorem cutField_of_spells (hfield : SpellsField alone field t) (h : FieldTail ending tail rest) :
    ∃ extent, cutField (encodeUtf8 t ++ tail) = ⟨encodeUtf8 field.toList, extent, ending, rest⟩ := by
  cases hfield with
  | quoted =>
    obtain ⟨extent, hquoted⟩ := cutQuoted_doubled field.toList #[] (.of [quote]) h
    refine ⟨extent, ?_⟩
    have hbytes : encodeUtf8 ('"' :: doubled field.toList ++ ['"']) ++ tail =
        quote :: (encodeUtf8 (doubled field.toList) ++ quote :: tail) := by
      simp only [encodeUtf8_append, encodeUtf8_cons, List.cons_append, List.append_assoc]
      rfl
    rw [hbytes, cutField, if_pos (beq_self_eq_true quote), hquoted]
    rfl
  | bare plain unmarked visible =>
    have hquote : '"' ∉ field.toList := fun hmem => (plain _ hmem).2.1 rfl
    obtain ⟨extent, hbare⟩ := cutBare_append _ (isFieldEnd_eq_false_of_plain plain) h
    refine ⟨extent, ?_⟩
    have hhead : ∀ b ∈ (encodeUtf8 field.toList ++ tail).head?, b ≠ quote := by
      rintro b hb rfl
      cases hbytes : encodeUtf8 field.toList with
      | nil =>
        rw [hbytes, List.nil_append] at hb
        exact h.head?_ne_quote hb
      | cons b' bytes =>
        rw [hbytes] at hb
        obtain rfl : b' = quote := Option.some.inj hb
        refine byte_not_mem_encodeUtf8 (c := '"') (by decide) hquote ?_
        rw [hbytes]
        exact List.mem_cons_self
    rw [← hbare]
    unfold cutField
    split
    · rename_i heq
      rw [heq]
    · rename_i b bytes heq
      rw [heq] at hhead
      rw [if_neg (by simpa using hhead b rfl), heq]

/-- The text of a row is read as the row. -/
theorem cutRowFrom_of_spells {fields : List String} (hfields : SpellsFields alone fields t)
    (h : FieldTail ending tail rest) (hending : ending ≠ .comma) (before : Array (List UInt8))
    (extent : Extent) :
    ∃ extent', cutRowFrom before extent (encodeUtf8 t ++ tail) =
      ⟨before.toList ++ fields.map (encodeUtf8 ·.toList), extent', ending, rest⟩ := by
  induction hfields generalizing before extent with
  | last hfield =>
    obtain ⟨fieldExtent, hcut⟩ := cutField_of_spells hfield h
    rw [cutRowFrom, hcut]
    simp only [dif_neg hending, Array.toList_push]
    exact ⟨_, rfl⟩
  | @cons field fields t s hfield hs ih =>
    have htail : FieldTail .comma (comma :: (encodeUtf8 s ++ tail)) (encodeUtf8 s ++ tail) := .comma
    obtain ⟨fieldExtent, hcut⟩ := cutField_of_spells hfield htail
    have hbytes : encodeUtf8 (t ++ ',' :: s) ++ tail =
        encodeUtf8 t ++ comma :: (encodeUtf8 s ++ tail) := by
      rw [encodeUtf8_append, List.append_assoc]
      rfl
    obtain ⟨extent', hrow⟩ := ih (before.push (encodeUtf8 field.toList)) (extent + fieldExtent)
    refine ⟨extent', ?_⟩
    rw [hbytes, cutRowFrom, hcut]
    simp only [dif_pos]
    rw [hrow, Array.toList_push, List.append_assoc]
    rfl

lemma decodeFields_encodeUtf8 (position : Position) (before : Array String) (fields : List String) :
    decodeFields position before (fields.map (encodeUtf8 ·.toList)) = .ok (before.toList ++ fields) := by
  induction fields generalizing before with
  | nil => rw [List.map_nil, decodeFields, List.append_nil]
  | cons field fields ih =>
    rw [List.map_cons, decodeFields]
    simp only [decodeUtf8_encodeUtf8]
    rw [ih, Array.toList_push, List.append_assoc]
    rfl

lemma EmptyLines.isLineEnd {blank : List Char} (h : EmptyLines blank) :
    ∀ b ∈ encodeUtf8 blank, isLineEnd b = true := by
  obtain ⟨ends, hends, rfl⟩ := h
  intro b hb
  obtain ⟨c, hc, hbytes⟩ := List.mem_flatMap.mp hb
  obtain ⟨e, he, hmem⟩ := List.mem_flatten.mp hc
  have hchar : c = '\n' ∨ c = '\r' := by
    rcases hends e he with rfl | rfl | rfl
    · exact .inl (List.mem_singleton.mp hmem)
    · exact .inr (List.mem_singleton.mp hmem)
    · simpa [or_comm] using hmem
  rcases hchar with rfl | rfl
  · rw [List.mem_singleton.mp hbytes]
    rfl
  · rw [List.mem_singleton.mp hbytes]
    rfl

lemma IsLineEnd.emptyLines {lineEnd : List Char} (h : IsLineEnd lineEnd) : EmptyLines lineEnd :=
  ⟨[lineEnd], fun _ he => List.mem_singleton.mp he ▸ h, (List.append_nil lineEnd).symm⟩

lemma emptyLines_nil : EmptyLines [] :=
  ⟨[], fun _ he => absurd he List.not_mem_nil, rfl⟩

lemma IsLineEnd.exists_cons {lineEnd : List Char} (h : IsLineEnd lineEnd) :
    ∃ b rest, encodeUtf8 lineEnd = b :: encodeUtf8 rest ∧ isLineEnd b = true ∧ EmptyLines rest := by
  rcases h with rfl | rfl | rfl
  · exact ⟨lineFeed, [], rfl, rfl, emptyLines_nil⟩
  · exact ⟨carriageReturn, [], rfl, rfl, emptyLines_nil⟩
  · exact ⟨carriageReturn, ['\n'], rfl, rfl, IsLineEnd.emptyLines (.inl rfl)⟩

lemma EmptyLines.append {a b : List Char} (ha : EmptyLines a) (hb : EmptyLines b) :
    EmptyLines (a ++ b) := by
  obtain ⟨as, has, rfl⟩ := ha
  obtain ⟨bs, hbs, rfl⟩ := hb
  exact ⟨as ++ bs, fun e he => (List.mem_append.mp he).elim (has e) (hbs e), List.flatten_append.symm⟩

lemma SpellsField.ne_nil (h : SpellsField alone field t) (halone : alone) : t ≠ [] := by
  cases h with
  | quoted => exact List.cons_ne_nil _ _
  | bare plain unmarked visible => exact visible halone

lemma SpellsField.exists_cons (h : SpellsField alone field t) (ht : t ≠ []) :
    ∃ b bytes, encodeUtf8 t = b :: bytes ∧ isLineEnd b = false := by
  cases h with
  | quoted => exact ⟨quote, _, rfl, rfl⟩
  | bare plain unmarked visible =>
    obtain ⟨c, cs, hfield⟩ := List.exists_cons_of_ne_nil ht
    obtain ⟨b, bytes, hbytes⟩ := List.exists_cons_of_ne_nil (String.utf8EncodeChar_ne_nil (c := c))
    have hencode : encodeUtf8 field.toList = b :: (bytes ++ encodeUtf8 cs) := by
      rw [hfield, encodeUtf8_cons, hbytes, List.cons_append]
    have hend : isFieldEnd b = false :=
      isFieldEnd_eq_false_of_plain plain b (hencode ▸ List.mem_cons_self)
    exact ⟨b, _, hencode, (Bool.or_eq_false_iff.mp hend).2⟩

lemma SpellsRow.exists_cons {row : List String} (h : SpellsRow row t) :
    ∃ b bytes, encodeUtf8 t = b :: bytes ∧ isLineEnd b = false := by
  -- A row never looks like an empty line: if its first field has no text, a comma follows.
  cases h with
  | last hfield =>
    exact hfield.exists_cons (hfield.ne_nil rfl)
  | @cons field fields t s hfield hs =>
    rcases eq_or_ne t [] with rfl | ht
    · exact ⟨comma, _, rfl, rfl⟩
    · obtain ⟨b, bytes, hbytes, hb⟩ := hfield.exists_cons ht
      exact ⟨b, _, by rw [encodeUtf8_append, hbytes, List.cons_append], hb⟩

variable {position : Position} {mark : Nat} {bytes blank : List UInt8}

lemma itemsFrom_blank {before : Array Item} (hbytes : bytes.drop mark = blank) (hblank : ∀ b ∈ blank, isLineEnd b = true) :
    itemsFrom before none position mark bytes = before.toList := by
  have hdrop : (bytes.drop mark).dropWhile isLineEnd = [] := by
    rw [hbytes, ← List.append_nil blank]
    exact (span_append hblank (fun b hb => by cases hb)).2
  rw [itemsFrom]
  split
  · exact List.append_nil _
  · rename_i heq
    rw [hdrop] at heq
    cases heq

lemma itemsFrom_row (before : Array Item) {row : List String} {b : UInt8} {more : List UInt8}
    {extent : Extent} (hbytes : bytes.drop mark = blank ++ b :: more) (hblank : ∀ b ∈ blank, isLineEnd b = true)
    (hb : isLineEnd b = false)
    (hcut : cutRow (b :: more) = ⟨row.map (encodeUtf8 ·.toList), extent, ending, rest⟩) :
    ∃ position', itemsFrom before none position mark bytes =
      itemsFrom (before.push (.ok row)) none position' 0 rest := by
  obtain ⟨htake, hdrop⟩ := span_append hblank (s := b :: more)
    (fun b' hb' => by obtain rfl := Option.some.inj hb'; exact hb)
  rw [← hbytes] at htake hdrop
  rw [itemsFrom]
  split
  · rename_i heq
    rw [hdrop] at heq
    cases heq
  · rename_i heq
    rw [hdrop] at heq
    cases heq
    simp only [hcut]
    rw [if_neg fun hinput => Bool.noConfusion hinput.2]
    simp only [decodeFields_encodeUtf8, List.nil_append]
    exact ⟨_, rfl⟩

/-- The text of rows is read as the rows. -/
theorem itemsFrom_of_spells {rows : List (List String)} {text blankText : List Char}
    (hrows : SpellsRows rows text) (hblank : EmptyLines blankText)
    (hbytes : bytes.drop mark = encodeUtf8 (blankText ++ text)) :
    itemsFrom before none position mark bytes = before.toList ++ rows.map .ok := by
  -- What is left of a line end counts as an empty line in front of the rows behind it.
  induction hrows generalizing before position mark bytes blankText with
  | nil hnil =>
    rw [itemsFrom_blank hbytes (hblank.append hnil).isLineEnd, List.map_nil, List.append_nil]
  | @last row blank t hlast hrow =>
    obtain ⟨b, more, hmore, hb⟩ := hrow.exists_cons
    obtain ⟨extent, hcut⟩ := cutRowFrom_of_spells hrow .input (by decide) #[] {}
    rw [List.append_nil, hmore] at hcut
    rw [← List.append_assoc, encodeUtf8_append, hmore] at hbytes
    obtain ⟨position', hitems⟩ := itemsFrom_row before hbytes
      (hblank.append hlast).isLineEnd hb hcut
    rw [hitems, itemsFrom_blank List.drop_nil (fun b hb => by cases hb), Array.toList_push]
    rfl
  | @cons row rows blank t lineEnd s hfirst hrow hend hs ih =>
    obtain ⟨b, more, hmore, hb⟩ := hrow.exists_cons
    obtain ⟨b', lineRest, hlineEnd, hb', hlineRest⟩ := hend.exists_cons
    have htail : FieldTail .line (b' :: encodeUtf8 (lineRest ++ s)) (encodeUtf8 (lineRest ++ s)) :=
      .line hb'
    obtain ⟨extent, hcut⟩ := cutRowFrom_of_spells hrow htail (by decide) #[] {}
    have hsplit : encodeUtf8 (blankText ++ (blank ++ t ++ lineEnd ++ s)) =
        encodeUtf8 (blankText ++ blank) ++ b :: (more ++ b' :: encodeUtf8 (lineRest ++ s)) := by
      simp only [encodeUtf8_append, List.append_assoc, hmore, hlineEnd, List.cons_append]
    rw [hmore, List.cons_append] at hcut
    obtain ⟨position', hitems⟩ := itemsFrom_row before
      (hbytes.trans hsplit) (hblank.append hfirst).isLineEnd hb hcut
    rw [hitems, ih hlineRest List.drop_zero, Array.toList_push, List.append_assoc]
    rfl

lemma head?_of_mark_isPrefixOf {text : List Char} (h : byteOrderMark.isPrefixOf (encodeUtf8 text)) :
    text.head? = some '\uFEFF' := by
  obtain ⟨more, hmore⟩ := List.isPrefixOf_iff_prefix.mp h
  have hmark : leadingChar? (byteOrderMark ++ more) = some '\uFEFF' :=
    leadingChar?_utf8EncodeChar '\uFEFF' more
  cases text with
  | nil => cases hmore
  | cons c cs =>
    rw [hmore, encodeUtf8_cons, leadingChar?_utf8EncodeChar] at hmark
    exact hmark

lemma head?_append_ne {c : Char} {a b : List Char} (ha : a.head? ≠ some c) (hb : b.head? ≠ some c) :
    (a ++ b).head? ≠ some c := by
  cases a with
  | nil => exact hb
  | cons d a => exact ha

lemma SpellsField.head?_ne_mark (h : SpellsField alone field t) : t.head? ≠ some '\uFEFF' := by
  cases h with
  | quoted =>
    rw [List.cons_append, List.head?_cons, Ne, Option.some_inj]
    decide
  | bare plain unmarked visible => exact unmarked

lemma SpellsFields.head?_ne_mark {fields : List String} (h : SpellsFields alone fields t) :
    t.head? ≠ some '\uFEFF' := by
  cases h with
  | last hfield => exact hfield.head?_ne_mark
  | cons hfield hs =>
    refine head?_append_ne hfield.head?_ne_mark ?_
    rw [List.head?_cons, Ne, Option.some_inj]
    decide

lemma EmptyLines.head?_ne_mark {blank : List Char} (h : EmptyLines blank) :
    blank.head? ≠ some '\uFEFF' := by
  intro hhead
  obtain ⟨cs, rfl⟩ := List.head?_eq_some_iff.mp hhead
  exact absurd (h.isLineEnd 239 List.mem_cons_self) (by decide)

lemma SpellsRows.head?_ne_mark {rows : List (List String)} {text : List Char} (h : SpellsRows rows text) :
    text.head? ≠ some '\uFEFF' := by
  induction h with
  | nil hblank => exact hblank.head?_ne_mark
  | last hblank hrow => exact head?_append_ne hblank.head?_ne_mark hrow.head?_ne_mark
  | cons hblank hrow hend hs ih =>
    exact head?_append_ne (head?_append_ne (head?_append_ne hblank.head?_ne_mark hrow.head?_ne_mark)
      hend.emptyLines.head?_ne_mark) ih

lemma items_eq_itemsFrom (bytes : List UInt8) :
    items { bytes } = itemsFrom #[] none .start
      (if byteOrderMark.isPrefixOf bytes then byteOrderMark.length else 0) bytes := by
  simp only [items, List.take_length]
  split
  · rename_i heq
    obtain rfl : bytes = byteOrderMark := heq
    exact (itemsFrom_blank List.drop_length (fun b hb => by cases hb)).symm
  · rfl

/-- The bytes of a file written from rows are read as the rows. -/
theorem items_of_spells {rows : List (List String)} {text : List Char} (h : SpellsFile rows text) :
    items { bytes := encodeUtf8 text } = rows.map .ok := by
  rw [items_eq_itemsFrom]
  rcases h with hrows | ⟨s, rfl, hrows⟩
  · have hmark : ¬byteOrderMark.isPrefixOf (encodeUtf8 text) := fun h =>
      hrows.head?_ne_mark (head?_of_mark_isPrefixOf h)
    rw [if_neg hmark]
    exact itemsFrom_of_spells hrows emptyLines_nil List.drop_zero
  · have hmark : byteOrderMark.isPrefixOf (encodeUtf8 ('\uFEFF' :: s)) :=
      List.isPrefixOf_iff_prefix.mpr ⟨encodeUtf8 s, rfl⟩
    rw [if_pos hmark]
    exact itemsFrom_of_spells hrows emptyLines_nil rfl

/-- Nothing in the field could be mistaken for anything but its text. -/
def IsPlain (field : String) : Prop :=
  (∀ c ∈ field.toList, c ≠ ',' ∧ c ≠ '"' ∧ c ≠ '\n' ∧ c ≠ '\r') ∧ field.toList.head? ≠ some '\uFEFF'

instance : DecidablePred IsPlain := fun field =>
  have : Decidable (∀ c ∈ field.toList, c ≠ ',' ∧ c ≠ '"' ∧ c ≠ '\n' ∧ c ≠ '\r') := List.decidableBAll _ _
  inferInstanceAs (Decidable (_ ∧ field.toList.head? ≠ some '\uFEFF'))

/-- Fields as they stand with commas between them. -/
def bareText : List String → List Char
  | [] => []
  | [field] => field.toList
  | field :: next :: fields => field.toList ++ ',' :: bareText (next :: fields)

lemma spellsFields_bareText {field : String} {fields : List String}
    (h : ∀ f ∈ field :: fields, SpellsField alone f f.toList) :
    SpellsFields alone (field :: fields) (bareText (field :: fields)) := by
  induction fields generalizing field with
  | nil => exact .last (h field List.mem_cons_self)
  | cons next fields ih =>
    apply SpellsFields.cons (h field List.mem_cons_self)
    apply ih
    intro f hf
    exact h f (List.mem_cons_of_mem field hf)

/-- A row of two plain fields or more may be written as it stands. -/
theorem spellsRow_bareText {first second : String} {fields : List String}
    (h : ∀ f ∈ first :: second :: fields, IsPlain f) :
    SpellsRow (first :: second :: fields) (bareText (first :: second :: fields)) := by
  apply spellsFields_bareText
  intro f hf
  obtain ⟨hplain, hunmarked⟩ := h f hf
  exact .bare hplain hunmarked fun halone => by simp at halone

end AddressAtlas.Delimited

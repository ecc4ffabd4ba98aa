import AddressAtlas.Proofs.WrittenRows

/-!
# Joined input

A row that has come to its line end is cut off in the same way whatever follows. So where each row of a
first input has its line end, a second input behind it is read as it is read alone.
-/

namespace AddressAtlas.Delimited

open Text

variable {α : Type} {bytes more : List UInt8}

/-- The same piece with more bytes behind it. -/
def Cut.followedBy (c : Cut α) (more : List UInt8) : Cut α :=
  { c with rest := c.rest ++ more }

lemma span_append_of_dropWhile {p : α → Bool} {l rest : List α} {a : α} (h : l.dropWhile p = a :: rest)
    (more : List α) :
    (l ++ more).takeWhile p = l.takeWhile p ∧ (l ++ more).dropWhile p = a :: (rest ++ more) := by
  have ha : p a = false := by
    have hhead := List.head?_dropWhile_not p l
    rw [h] at hhead
    exact hhead
  have hsplit : l ++ more = l.takeWhile p ++ a :: (rest ++ more) := by
    rw [← List.cons_append, ← h, ← List.append_assoc, List.takeWhile_append_dropWhile]
  rw [hsplit]
  apply span_append
  · intro b hb
    exact List.all_eq_true.mp List.all_takeWhile b hb
  · intro b hb
    obtain rfl := Option.some.inj hb
    exact ha

lemma cutBare_followedBy (bytes : List UInt8) (h : (cutBare bytes).ending ≠ .input) (more : List UInt8) :
    cutBare (bytes ++ more) = (cutBare bytes).followedBy more := by
  cases hdrop : bytes.dropWhile (!isFieldEnd ·) with
  | nil =>
    unfold cutBare at h
    rw [hdrop] at h
    exact absurd rfl h
  | cons b rest =>
    obtain ⟨htake, hdrop'⟩ := span_append_of_dropWhile hdrop more
    unfold cutBare
    rw [htake, hdrop', hdrop]
    rfl

lemma cutQuoted_of_dropWhile {q b : UInt8} {rest : List UInt8} (before : Array UInt8) (extent : Extent)
    (h : bytes.dropWhile (· != quote) = q :: b :: rest) : cutQuoted before extent bytes =
      let run := bytes.takeWhile (· != quote)
      let extent := extent + .of run + .of [q]
      if b == quote then
        cutQuoted ((before ++ run).push quote) (extent + .of [b]) rest
      else
        let tail := cutBare (b :: rest)
        { tail with piece := (before ++ run).toList ++ tail.piece, extent := extent + tail.extent } := by
  rw [cutQuoted]
  split
  · rename_i heq
    rw [h] at heq
    cases heq
  · rename_i heq
    rw [h] at heq
    cases heq
    rfl

lemma cutQuoted_followedBy (before : Array UInt8) (extent : Extent) (bytes : List UInt8)
    (h : (cutQuoted before extent bytes).ending ≠ .input) (more : List UInt8) :
    cutQuoted before extent (bytes ++ more) = (cutQuoted before extent bytes).followedBy more := by
  fun_induction cutQuoted before extent bytes with
  | case1 => exact absurd rfl h
  | case2 before extent bytes run text extent' q extent'' b rest' hdrop hb _ ih =>
    obtain ⟨htake, hmore⟩ := span_append_of_dropWhile hdrop more
    rw [List.cons_append] at hmore
    rw [← ih h, cutQuoted_of_dropWhile before extent hmore, htake]
    exact if_pos hb
  | case3 before extent bytes run text extent' q extent'' b rest' hdrop hb =>
    obtain ⟨htake, hmore⟩ := span_append_of_dropWhile hdrop more
    have htail := cutBare_followedBy (b :: rest') h more
    rw [List.cons_append] at hmore htail
    rw [cutQuoted_of_dropWhile before extent hmore, htake]
    simp only [if_neg hb, htail]
    rfl
  | case4 => exact absurd rfl h

lemma cutField_followedBy (bytes : List UInt8) (h : (cutField bytes).ending ≠ .input) (more : List UInt8) :
    cutField (bytes ++ more) = (cutField bytes).followedBy more := by
  cases bytes with
  | nil => exact absurd rfl h
  | cons b rest =>
    unfold cutField at h ⊢
    rw [List.cons_append]
    by_cases hb : (b == quote) = true
    · simp only [if_pos hb] at h ⊢
      exact cutQuoted_followedBy _ _ rest h more
    · simp only [if_neg hb] at h ⊢
      exact cutBare_followedBy _ h more

lemma cutRowFrom_followedBy (before : Array (List UInt8)) (extent : Extent) (bytes : List UInt8)
    (h : (cutRowFrom before extent bytes).ending ≠ .input) (more : List UInt8) :
    cutRowFrom before extent (bytes ++ more) = (cutRowFrom before extent bytes).followedBy more := by
  fun_induction cutRowFrom before extent bytes with
  | case1 before extent bytes field fields extent' hcomma ih =>
    have hfield : cutField (bytes ++ more) = field.followedBy more :=
      cutField_followedBy bytes (by rw [hcomma]; decide) more
    rw [← ih h, cutRowFrom, hfield]
    exact dif_pos hcomma
  | case2 before extent bytes field fields extent' hcomma =>
    have hfield : cutField (bytes ++ more) = field.followedBy more := cutField_followedBy bytes h more
    rw [cutRowFrom, hfield]
    exact dif_neg hcomma

/-- What follows a row that has come to its end plays no part in the row. -/
theorem cutRow_followedBy (bytes : List UInt8) (h : (cutRow bytes).ending ≠ .input) (more : List UInt8) :
    cutRow (bytes ++ more) = (cutRow bytes).followedBy more :=
  cutRowFrom_followedBy #[] {} bytes h more

/-- Every row of the bytes has a line end outside quotes. -/
inductive Terminated : List UInt8 → Prop
  | blank {bytes : List UInt8} (h : bytes.dropWhile isLineEnd = []) : Terminated bytes
  | row {bytes rest : List UInt8} {b : UInt8} (h : bytes.dropWhile isLineEnd = b :: rest)
      (hending : (cutRow (b :: rest)).ending = .line) (hrest : Terminated (cutRow (b :: rest)).rest) :
      Terminated bytes

/-- The bytes are cut into these rows, wherever in a source they stand. -/
inductive Reads : List UInt8 → List (List String) → Prop
  | blank {bytes : List UInt8} (h : bytes.dropWhile isLineEnd = []) : Reads bytes []
  | row {bytes rest : List UInt8} {b : UInt8} {row : List String} {rows : List (List String)}
      (h : bytes.dropWhile isLineEnd = b :: rest)
      (hrow : ∀ position, decodeFields position #[] (cutRow (b :: rest)).piece = .ok row)
      (hrest : Reads (cutRow (b :: rest)).rest rows) : Reads bytes (row :: rows)

variable {position : Position} {before : Array Item} {mark : Nat} {rows : List (List String)} {b : UInt8}
  {rest : List UInt8}

lemma decodeFields_eq_ok {texts : Array String} {piece : List (List UInt8)} {row : List String}
    (h : decodeFields position texts piece = .ok row) (position' : Position) :
    decodeFields position' texts piece = .ok row := by
  induction piece generalizing texts with
  | nil => exact h
  | cons field piece ih =>
    unfold decodeFields at h ⊢
    cases htext : Text.decodeUtf8 field with
    | error valid =>
      rw [htext] at h
      cases h
    | ok text =>
      rw [htext] at h
      exact ih h

lemma toList_prefix_push {α : Type} (before : Array α) (a : α) : before.toList <+: (before.push a).toList := by
  rw [Array.toList_push]
  exact List.prefix_append _ _

lemma prefix_itemsFrom (before : Array Item) (failure? : Option String) (position : Position) (mark : Nat)
    (bytes : List UInt8) : before.toList <+: itemsFrom before failure? position mark bytes := by
  fun_induction itemsFrom before failure? position mark bytes with
  | case1 => exact List.prefix_append _ _
  | case2 => exact List.prefix_append _ _
  | case3 => exact toList_prefix_push _ _
  | case4 before _ _ _ _ _ _ _ _ _ _ _ _ _ ih => exact (toList_prefix_push before _).trans ih

lemma reads_of_blank (h : bytes.dropWhile isLineEnd = []) : Reads bytes rows ↔ rows = [] := by
  constructor
  · intro hreads
    cases hreads with
    | blank => rfl
    | row hrow =>
      rw [h] at hrow
      cases hrow
  · rintro rfl
    exact .blank h

lemma reads_of_row (h : bytes.dropWhile isLineEnd = b :: rest) : Reads bytes rows ↔ ∃ row others,
    rows = row :: others ∧ (∀ position, decodeFields position #[] (cutRow (b :: rest)).piece = .ok row) ∧
      Reads (cutRow (b :: rest)).rest others := by
  constructor
  · intro hreads
    cases hreads with
    | blank hblank =>
      rw [h] at hblank
      cases hblank
    | row hrow hdecode hrest =>
      rw [h] at hrow
      cases hrow
      exact ⟨_, _, rfl, hdecode, hrest⟩
  · rintro ⟨row, others, rfl, hdecode, hrest⟩
    exact .row h hdecode hrest

/-- Whether bytes are read as rows does not depend on the position or on what stands before. -/
theorem itemsFrom_eq_iff_reads : itemsFrom before none position mark bytes = before.toList ++ rows.map .ok ↔
    Reads (bytes.drop mark) rows := by
  fun_induction itemsFrom before none position mark bytes generalizing rows with
  | case1 before position mark bytes body =>
    rename_i h
    rw [reads_of_blank h, show closing none = [] from rfl, List.append_right_inj, eq_comm, List.map_eq_nil_iff]
  | case2 =>
    rename_i hinput
    cases hinput.2
  | case3 before position mark bytes body b rest h row hinput fault =>
    rename_i hfault
    rw [reads_of_row h, Array.toList_push, List.append_right_inj]
    constructor
    · intro heq
      cases rows with
      | nil => cases heq
      | cons row rows => cases heq
    · rintro ⟨row, others, -, hrow, -⟩
      cases (hrow position).symm.trans hfault
  | case4 before position mark bytes body blank b rest h row hinput fields hfields position' =>
    rename_i ih
    rw [reads_of_row h]
    constructor
    · intro heq
      have hinitial := prefix_itemsFrom (before.push (.ok fields)) none position' 0 row.rest
      rw [heq, Array.toList_push, List.prefix_append_right_inj] at hinitial
      cases rows with
      | nil => simp at hinitial
      | cons first others =>
        obtain rfl : fields = first := by simpa using hinitial
        refine ⟨fields, others, rfl, decodeFields_eq_ok hfields, ih.mp ?_⟩
        rw [heq, Array.toList_push, List.append_assoc]
        rfl
    · rintro ⟨first, others, rfl, hrow, hrest⟩
      obtain rfl := Except.ok.inj ((hrow position).symm.trans hfields)
      rw [ih.mpr hrest, Array.toList_push, List.append_assoc]
      rfl

/-- The bytes behind a byte order mark, if there is one. -/
def unmarked (bytes : List UInt8) : List UInt8 :=
  bytes.drop (if byteOrderMark.isPrefixOf bytes then byteOrderMark.length else 0)

lemma items_eq_iff_reads : items { bytes } = rows.map .ok ↔ Reads (unmarked bytes) rows := by
  rw [items_eq_itemsFrom, ← List.nil_append (rows.map _), unmarked, ← itemsFrom_eq_iff_reads]

/-- Where every row has its line end, what follows is read as it is read alone. -/
theorem Terminated.reads_append (hend : Terminated bytes) (h : Reads bytes rows)
    {moreRows : List (List String)} (hmore : Reads more moreRows) : Reads (bytes ++ more) (rows ++ moreRows) := by
  induction hend generalizing rows with
  | @blank bytes hblank =>
    obtain rfl := (reads_of_blank hblank).mp h
    have hdrop : (bytes ++ more).dropWhile isLineEnd = more.dropWhile isLineEnd := by
      rw [List.dropWhile_append, hblank]
      rfl
    cases hmore with
    | blank hmore => exact .blank (hdrop.trans hmore)
    | row hmore hrow hrest => exact .row (hdrop.trans hmore) hrow hrest
  | @row bytes rest b hfirst hending hterminated ih =>
    obtain ⟨row, others, rfl, hrow, hrest⟩ := (reads_of_row hfirst).mp h
    have hcut := cutRow_followedBy (b :: rest) (by rw [hending]; decide) more
    rw [List.cons_append] at hcut
    have hdrop := (span_append_of_dropWhile hfirst more).2
    refine .row hdrop ?_ ?_
    · rw [hcut]
      exact hrow
    · rw [hcut]
      exact ih hrest

lemma Terminated.ending_eq_line (hend : Terminated bytes) (h : bytes.dropWhile isLineEnd = b :: rest) :
    (cutRow (b :: rest)).ending = .line := by
  cases hend with
  | blank hblank =>
    rw [h] at hblank
    cases hblank
  | row hrow hending hrest =>
    rw [h] at hrow
    cases hrow
    exact hending

/-- A part of a mark is a row without a line end, so no mark arises where the two inputs meet. -/
lemma not_isPrefixOf_append (hend : Terminated bytes) (hbytes : ¬byteOrderMark.isPrefixOf bytes)
    (hmore : ¬byteOrderMark.isPrefixOf more) : ¬byteOrderMark.isPrefixOf (bytes ++ more) := by
  rw [List.isPrefixOf_iff_prefix] at hbytes hmore ⊢
  intro hmark
  rcases List.prefix_or_prefix_of_prefix hmark (List.prefix_append bytes more) with h | h
  · exact hbytes h
  · simp only [byteOrderMark, List.prefix_cons_iff, List.prefix_nil] at h
    rcases h with rfl | ⟨_, rfl, rfl | ⟨_, rfl, rfl | ⟨_, rfl, rfl⟩⟩⟩
    · exact hmore hmark
    · have hline : (cutRow [239]).ending = .line := hend.ending_eq_line rfl
      rw [cutRow, cutRowFrom] at hline
      cases hline
    · have hline : (cutRow [239, 187]).ending = .line := hend.ending_eq_line rfl
      rw [cutRow, cutRowFrom] at hline
      cases hline
    · exact hbytes (List.prefix_refl _)

lemma unmarked_append (hend : Terminated (unmarked bytes)) (hmore : ¬byteOrderMark.isPrefixOf more) :
    unmarked (bytes ++ more) = unmarked bytes ++ more := by
  unfold unmarked at hend ⊢
  by_cases hmark : byteOrderMark.isPrefixOf bytes
  · have hinitial := List.isPrefixOf_iff_prefix.mp hmark
    have hjoined : byteOrderMark.isPrefixOf (bytes ++ more) :=
      List.isPrefixOf_iff_prefix.mpr (hinitial.trans (List.prefix_append bytes more))
    rw [if_pos hmark, if_pos hjoined, List.drop_append_of_le_length hinitial.length_le]
  · rw [if_neg hmark, List.drop_zero] at hend
    rw [if_neg hmark, if_neg (not_isPrefixOf_append hend hmark hmore), List.drop_zero, List.drop_zero]

lemma unmarked_of_not_isPrefixOf (h : ¬byteOrderMark.isPrefixOf bytes) : unmarked bytes = bytes := by
  rw [unmarked, if_neg h, List.drop_zero]

/-- Two inputs one behind the other are read as the rows of both, if each row of the first one has its line
end and the second one has no mark. -/
theorem items_append {moreRows : List (List String)} (hrows : items { bytes } = rows.map .ok)
    (hend : Terminated (unmarked bytes)) (hmore : items { bytes := more } = moreRows.map .ok)
    (hmark : ¬byteOrderMark.isPrefixOf more) : items { bytes := bytes ++ more } = (rows ++ moreRows).map .ok := by
  rw [items_eq_iff_reads] at hrows hmore ⊢
  rw [unmarked_of_not_isPrefixOf hmark] at hmore
  rw [unmarked_append hend hmark]
  exact hend.reads_append hrows hmore

/-- The text of rows each of which has a line end, with empty lines anywhere. -/
inductive SpellsLines : List (List String) → List Char → Prop
  | nil {blank : List Char} (hblank : EmptyLines blank) : SpellsLines [] blank
  | cons {row : List String} {rows : List (List String)} {blank t lineEnd s : List Char}
      (hblank : EmptyLines blank) (h : SpellsRow row t) (hend : IsLineEnd lineEnd) (hs : SpellsLines rows s) :
      SpellsLines (row :: rows) (blank ++ t ++ lineEnd ++ s)

lemma SpellsLines.spellsRows {text : List Char} (h : SpellsLines rows text) : SpellsRows rows text := by
  induction h with
  | nil hblank => exact .nil hblank
  | cons hblank hrow hend hs ih => exact .cons hblank hrow hend ih

lemma SpellsLines.terminated_append {text blankText : List Char} (h : SpellsLines rows text)
    (hblankText : EmptyLines blankText) : Terminated (encodeUtf8 (blankText ++ text)) := by
  -- What is left of a line end counts as an empty line in front of the rows behind it.
  induction h generalizing blankText with
  | nil hblank =>
    have hspan := span_append (s := []) (hblankText.append hblank).isLineEnd (fun b hb => by cases hb)
    rw [List.append_nil] at hspan
    exact .blank hspan.2
  | @cons row rows blank t lineEnd s hblank hrow hend hs ih =>
    obtain ⟨b, more, hmore, hb⟩ := hrow.exists_cons
    obtain ⟨b', lineRest, hlineEnd, hb', hlineRest⟩ := hend.exists_cons
    have htail : FieldTail .line (b' :: encodeUtf8 (lineRest ++ s)) (encodeUtf8 (lineRest ++ s)) :=
      .line hb'
    obtain ⟨extent, hcut⟩ := cutRowFrom_of_spells hrow htail (by decide) #[] {}
    rw [hmore, List.cons_append] at hcut
    have hsplit : encodeUtf8 (blankText ++ (blank ++ t ++ lineEnd ++ s)) =
        encodeUtf8 (blankText ++ blank) ++ b :: (more ++ b' :: encodeUtf8 (lineRest ++ s)) := by
      simp only [encodeUtf8_append, List.append_assoc, hmore, hlineEnd, List.cons_append]
    have hspan := span_append (hblankText.append hblank).isLineEnd
      (s := b :: (more ++ b' :: encodeUtf8 (lineRest ++ s)))
      (fun c hc => by obtain rfl := Option.some.inj hc; exact hb)
    have hrest := ih hlineRest
    rw [hsplit]
    apply Terminated.row hspan.2
    · rw [cutRow, hcut]
    · rw [cutRow, hcut]
      exact hrest

/-- A text in which every row has a line end is terminated, behind a mark or not. -/
theorem SpellsLines.terminated {text : List Char} (h : SpellsLines rows text) :
    Terminated (unmarked (encodeUtf8 text)) ∧ Terminated (unmarked (encodeUtf8 ('\uFEFF' :: text))) := by
  have hend := h.terminated_append emptyLines_nil
  have hbare : ¬byteOrderMark.isPrefixOf (encodeUtf8 text) := fun hmark =>
    h.spellsRows.head?_ne_mark (head?_of_mark_isPrefixOf hmark)
  have hmark : byteOrderMark.isPrefixOf (encodeUtf8 ('\uFEFF' :: text)) :=
    List.isPrefixOf_iff_prefix.mpr ⟨encodeUtf8 text, rfl⟩
  constructor
  · rwa [unmarked_of_not_isPrefixOf hbare]
  · rw [unmarked, if_pos hmark]
    exact hend

end AddressAtlas.Delimited

import AddressAtlas.Proofs.Numeral
import AddressAtlas.RangeTable.Decode

/-!
# Arrays in JSON

`IsArray` says which texts are arrays of given items: items in brackets, with commas between them and
blanks around all of these. `Takes` is what a reader of items owes to this grammar; the separators that
are read between items are those of the grammar.
-/

namespace AddressAtlas.Json

open RangeTable

/-- Blanks, tabulators, line feeds and carriage returns in any number. -/
def Blanks (s : List Char) : Prop :=
  ∀ c ∈ s, c = ' ' ∨ c = '\t' ∨ c = '\n' ∨ c = '\r'

/-- What stands before an item: blanks, and among them a comma unless the item is the first. -/
def Separator : Bool → List Char → Prop
  | true, s => Blanks s
  | false, s => ∃ b b', s = b ++ ',' :: b' ∧ Blanks b ∧ Blanks b'

/-- The items of an array, from the first one or from a later one on, and the blanks behind them. -/
def Items (isFirst : Bool) : List (List Char → Prop) → List Char → Prop
  | [], s => Blanks s
  | item :: items, s =>
    ∃ g t rest, s = g ++ t ++ rest ∧ Separator isFirst g ∧ item t ∧ Items false items rest

/-- The items of an array up to the end of the last one. -/
def Run (isFirst : Bool) : List (List Char → Prop) → List Char → Prop
  | [], s => s = []
  | item :: items, s =>
    ∃ g t rest, s = g ++ t ++ rest ∧ Separator isFirst g ∧ item t ∧ Run false items rest

/-- An array of the given items. -/
def IsArray (items : List (List Char → Prop)) (s : List Char) : Prop :=
  ∃ body, s = '[' :: body ++ [']'] ∧ Items true items body

/-- The text of an item starts neither with a blank nor with the end of its array. -/
def StartsItem (s : List Char) : Prop :=
  ∃ c t, s = c :: t ∧ isBlank c = false ∧ c ≠ ']'

lemma isBlank_iff {c : Char} : isBlank c = true ↔ c = ' ' ∨ c = '\t' ∨ c = '\n' ∨ c = '\r' := by
  simp [isBlank, or_assoc]

lemma Blanks.append {a b : List Char} (ha : Blanks a) (hb : Blanks b) : Blanks (a ++ b) := by
  intro c hc
  rcases List.mem_append.mp hc with hc | hc
  · exact ha c hc
  · exact hb c hc

lemma blanks_nil : Blanks [] := by
  intro c hc
  cases hc

lemma Run.items {isFirst : Bool} {items : List (List Char → Prop)} {s : List Char} (h : Run isFirst items s) :
    Items isFirst items s := by
  induction items generalizing isFirst s with
  | nil =>
    obtain rfl : s = [] := h
    exact blanks_nil
  | cons item items ih =>
    obtain ⟨g, t, rest, rfl, hg, ht, hrest⟩ := h
    exact ⟨g, t, rest, rfl, hg, ht, ih hrest⟩

lemma Separator.append_blanks {isFirst : Bool} {g b : List Char} (hg : Separator isFirst g)
    (hb : Blanks b) : Separator isFirst (g ++ b) := by
  cases isFirst with
  | true => exact Blanks.append hg hb
  | false =>
    obtain ⟨a, a', rfl, ha, ha'⟩ := hg
    exact ⟨a, a' ++ b, by simp, ha, ha'.append hb⟩

lemma skipBlanks_append {b : List Char} (hb : Blanks b) (s : List Char) :
    skipBlanks (b ++ s) = skipBlanks s :=
  List.dropWhile_append_of_pos fun c hc => isBlank_iff.mpr (hb c hc)

lemma skipBlanks_cons {c : Char} (hc : isBlank c = false) (s : List Char) :
    skipBlanks (c :: s) = c :: s := by
  simp [skipBlanks, hc]

lemma StartsItem.append {s : List Char} (hs : StartsItem s) {rest : List Char} :
    StartsItem (s ++ rest) := by
  obtain ⟨c, t, rfl, hc, hclose⟩ := hs
  exact ⟨c, t ++ rest, rfl, hc, hclose⟩

lemma isBlank_eq_false_of_isDigit {c : Char} (hc : c.isDigit) : isBlank c = false := by
  by_contra h
  rw [Bool.not_eq_false, isBlank_iff] at h
  rcases h with rfl | rfl | rfl | rfl <;> cases hc

lemma IsInteger.startsItem {n : Int} {s : List Char} (h : IsInteger n s) : StartsItem s := by
  obtain ⟨c, t, rfl, hc⟩ := h.exists_cons
  refine ⟨c, t, rfl, ?_, ?_⟩
  · rcases hc with rfl | hc
    · rfl
    · exact isBlank_eq_false_of_isDigit hc
  · rintro rfl
    rcases hc with hc | hc <;> cases hc

lemma IsNatural.startsItem {n : Nat} {s : List Char} (h : IsNatural n s) : StartsItem s :=
  (IsInteger.natural h).startsItem

lemma exists_skipBlanks_eq (text : List Char) : ∃ b, text = b ++ skipBlanks text ∧ Blanks b ∧
    ∀ c ∈ (skipBlanks text).head?, isBlank c = false := by
  refine ⟨text.takeWhile isBlank, List.takeWhile_append_dropWhile.symm, ?_, ?_⟩
  · intro c hc
    exact isBlank_iff.mp (List.mem_takeWhile_imp hc)
  · intro c hc
    have hhead := List.head?_dropWhile_not isBlank text
    unfold skipBlanks at hc
    rw [Option.mem_def.mp hc] at hhead
    exact hhead

lemma skipBlanks_eq_cons {text rest : List Char} {c : Char} (h : skipBlanks text = c :: rest) :
    ∃ b, text = b ++ c :: rest ∧ Blanks b ∧ isBlank c = false := by
  obtain ⟨b, htext, hb, hhead⟩ := exists_skipBlanks_eq text
  rw [h] at htext hhead
  exact ⟨b, htext, hb, hhead c rfl⟩

lemma skipBlanks_eq_nil_iff {text : List Char} : skipBlanks text = [] ↔ Blanks text := by
  constructor
  · intro h
    obtain ⟨b, htext, hb, -⟩ := exists_skipBlanks_eq text
    rw [h, List.append_nil] at htext
    exact htext ▸ hb
  · intro h
    have hskip := skipBlanks_append h []
    rw [List.append_nil] at hskip
    exact hskip

lemma endsNumber_cons {c : Char} (hc : isBlank c = true ∨ c = ',' ∨ c = ']') (rest : List Char) :
    EndsNumber (c :: rest) := by
  intro d hd
  obtain rfl : c = d := by simpa using hd
  rw [isBlank_iff] at hc
  rcases hc with (rfl | rfl | rfl | rfl) | rfl | rfl <;> decide

lemma Items.endsNumber {items : List (List Char → Prop)} {s : List Char} (h : Items false items s)
    (rest : List Char) : EndsNumber (s ++ ']' :: rest) := by
  have hblanks : ∀ b c (tail : List Char), Blanks b → c = ',' ∨ c = ']' →
      EndsNumber (b ++ c :: tail) := by
    intro b c tail hb hc
    cases b with
    | nil => exact endsNumber_cons (.inr hc) tail
    | cons d b => exact endsNumber_cons (.inl (isBlank_iff.mpr (hb d List.mem_cons_self))) _
  cases items with
  | nil => exact hblanks s ']' rest h (.inr rfl)
  | cons item items =>
    obtain ⟨g, t, tail, rfl, ⟨b, b', rfl, hb, -⟩, -, -⟩ := h
    rw [List.append_assoc, List.append_assoc, List.append_assoc, List.cons_append]
    exact hblanks b ',' _ hb (.inl rfl)

variable {δ α : Type}

lemma readSeparator_eq_true {isFirst : Bool} {text rest : List Char}
    (h : (readSeparator isFirst text : Reading δ _) = .ok (true, rest)) :
    ∃ g, text = g ++ rest ∧ Separator isFirst g := by
  unfold readSeparator at h
  split at h
  · cases h
  · cases h
  · rename_i c tail hne hskip
    obtain ⟨b, rfl, hb, -⟩ := skipBlanks_eq_cons hskip
    cases isFirst with
    | true =>
      obtain rfl : c :: tail = rest := (Prod.mk.inj (Except.ok.inj h)).2
      exact ⟨b, rfl, hb⟩
    | false =>
      rw [if_neg (by decide)] at h
      split at h
      · rename_i hc
        subst hc
        split at h
        · cases h
        · cases h
        · obtain rfl : skipBlanks tail = rest := (Prod.mk.inj (Except.ok.inj h)).2
          obtain ⟨b', htail, hb', -⟩ := exists_skipBlanks_eq tail
          refine ⟨b ++ ',' :: b', ?_, b, b', rfl, hb, hb'⟩
          rw [List.append_assoc, List.cons_append, ← htail]
      · cases h

lemma readSeparator_eq_false {isFirst : Bool} {text rest : List Char}
    (h : (readSeparator isFirst text : Reading δ _) = .ok (false, rest)) :
    ∃ b tail, text = b ++ rest ∧ Blanks b ∧ rest = ']' :: tail := by
  unfold readSeparator at h
  split at h
  · cases h
  · rename_i tail hskip
    obtain ⟨b, rfl, hb, -⟩ := skipBlanks_eq_cons hskip
    obtain rfl : ']' :: tail = rest := (Prod.mk.inj (Except.ok.inj h)).2
    exact ⟨b, tail, rfl, hb, rfl⟩
  · rename_i c tail hne hskip
    split at h
    · cases h
    · split at h
      · split at h
        · cases h
        · cases h
        · cases h
      · cases h

lemma readSeparator_append {isFirst : Bool} {g s : List Char} (hg : Separator isFirst g)
    (hs : StartsItem s) : (readSeparator isFirst (g ++ s) : Reading δ _) = .ok (true, s) := by
  obtain ⟨c, t, rfl, hc, hclose⟩ := hs
  have hskip : skipBlanks (c :: t) = c :: t := skipBlanks_cons hc t
  cases isFirst with
  | true =>
    unfold readSeparator
    rw [skipBlanks_append hg, hskip]
    split
    · rename_i heq
      cases heq
    · rename_i tail heq
      exact absurd (List.cons.inj heq).1 hclose
    · rename_i c' t' _ heq
      rw [if_pos rfl, heq]
  | false =>
    obtain ⟨b, b', rfl, hb, hb'⟩ := hg
    have hcomma : skipBlanks (b ++ ',' :: b' ++ c :: t) = ',' :: (b' ++ c :: t) := by
      rw [List.append_assoc, skipBlanks_append hb]
      exact skipBlanks_cons (by decide) _
    unfold readSeparator
    rw [hcomma]
    split
    · rename_i heq
      cases heq
    · rename_i tail heq
      exact absurd (List.cons.inj heq).1 (by decide)
    · rename_i c' t' _ heq
      obtain ⟨rfl, rfl⟩ := List.cons.inj heq
      rw [if_neg (by decide), if_pos rfl, skipBlanks_append hb', hskip]
      split
      · rename_i heq
        cases heq
      · rename_i tail heq
        exact absurd (List.cons.inj heq).1 hclose
      · rfl

lemma readSeparator_close {b : List Char} (hb : Blanks b) (isFirst : Bool) (s : List Char) :
    (readSeparator isFirst (b ++ ']' :: s) : Reading δ _) = .ok (false, ']' :: s) := by
  unfold readSeparator
  rw [skipBlanks_append hb, skipBlanks_cons (by decide)]
  rfl

lemma readClose_eq_ok {text rest : List Char} (h : (readClose text : Reading δ _) = .ok rest) :
    ∃ b, text = b ++ ']' :: rest ∧ Blanks b := by
  unfold readClose at h
  split at h
  · cases h
  · rename_i tail hskip
    obtain ⟨b, rfl, hb, -⟩ := skipBlanks_eq_cons hskip
    obtain rfl : tail = rest := Except.ok.inj h
    exact ⟨b, rfl, hb⟩
  · cases h

lemma readClose_append {b : List Char} (hb : Blanks b) (s : List Char) :
    (readClose (b ++ ']' :: s) : Reading δ _) = .ok s := by
  unfold readClose
  rw [skipBlanks_append hb, skipBlanks_cons (by decide)]
  rfl

/-- A reader takes one item off a text, with the blanks in front of it, and takes every item as long as
the text behind does not go on with a number. -/
structure Takes (read : List Char → Reading δ (α × List Char)) (token : α → List Char → Prop) :
    Prop where
  sound : ∀ {text rest a}, read text = .ok (a, rest) →
    ∃ b s, text = b ++ s ++ rest ∧ Blanks b ∧ token a s
  complete : ∀ {a s}, token a s → ∀ rest, EndsNumber rest → read (s ++ rest) = .ok (a, rest)
  starts : ∀ {a s}, token a s → StartsItem s

end AddressAtlas.Json

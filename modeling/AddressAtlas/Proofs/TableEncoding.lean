import AddressAtlas.Proofs.TableDecoding
import AddressAtlas.RangeTable.Text
import Mathlib.Data.List.Forall2

/-!
# Encoding tables

What is printed of a number is its numeral, so the text of a table spells the entries of the table and
is decoded to them again. A spelling shows the numbers of an entry and not its width: a text of one
width is read at the other one as long as the keys fit.
-/

namespace AddressAtlas

open Json Text Ledger

variable {v w : Width}

namespace Text

lemma isDigit_digitChar {d : Nat} (hd : d < 10) : (digitChar d).isDigit :=
  (by decide : ∀ d < 10, (digitChar d).isDigit) d hd

lemma digitOf_digitChar {d : Nat} (hd : d < 10) : digitOf (digitChar d) = d :=
  (by decide : ∀ d < 10, digitOf (digitChar d) = d) d hd

lemma isNatural_digitChar {d : Nat} (hd : d < 10) : IsNatural d [digitChar d] where
  ne_nil := List.cons_ne_nil _ _
  isDigit := by
    intro c hc
    rw [List.mem_singleton.mp hc]
    exact isDigit_digitChar hd
  no_leading_zero := fun hhead => congrArg (fun c => [c]) (Option.some.inj hhead)
  value := by
    simp only [List.reverse_singleton, List.map_cons, List.map_nil, Nat.ofDigits_singleton]
    exact digitOf_digitChar hd

lemma isNatural_append_digitChar {n d : Nat} {s : List Char} (h : IsNatural n s) (hn : n ≠ 0)
    (hd : d < 10) : IsNatural (10 * n + d) (s ++ [digitChar d]) where
  ne_nil := by simp
  isDigit := by
    intro c hc
    rcases List.mem_append.mp hc with hc | hc
    · exact h.isDigit c hc
    · rw [List.mem_singleton.mp hc]
      exact isDigit_digitChar hd
  no_leading_zero := by
    intro hhead
    have hzero : s = ['0'] := by
      refine h.no_leading_zero ?_
      rwa [List.head?_append_of_ne_nil _ h.ne_nil] at hhead
    have hvalue := h.value
    rw [hzero] at hvalue
    exact absurd hvalue.symm hn
  value := by
    rw [List.reverse_append, List.reverse_singleton, List.singleton_append, List.map_cons,
      Nat.ofDigits_cons, h.value, digitOf_digitChar hd]
    exact Nat.add_comm _ _

/-- What is printed of a natural number is its numeral. -/
theorem isNatural_digits (n : Nat) : IsNatural n (digits n) := by
  induction n using digits.induct with
  | case1 n h =>
    rw [digits, if_pos h]
    exact isNatural_digitChar h
  | case2 n h ih =>
    rw [digits, if_neg h]
    have happend := isNatural_append_digitChar ih (by omega) (Nat.mod_lt n (by decide : 0 < 10))
    rwa [Nat.div_add_mod] at happend

theorem isInteger_signedDigits (n : Int) : IsInteger n (signedDigits n) := by
  cases n with
  | ofNat n => exact .natural (isNatural_digits n)
  | negSucc n => exact .negative (isNatural_digits (n + 1)) n.succ_pos

end Text

namespace Entry

/-- The numbers of an entry, whatever the width of its keys. -/
def numbers (e : Entry w) : Nat × Nat × Int :=
  (e.start.toNat, e.stop.toNat, e.value.toInt)

/-- Both keys of an entry are keys of this width too. -/
def Fits (v : Width) (e : Entry w) : Prop :=
  e.start.toNat < 2 ^ v.bits ∧ e.stop.toNat < 2 ^ v.bits

/-- The entry with the same numbers at another width; keys that do not fit are cut. -/
def resize (v : Width) (e : Entry w) : Entry v :=
  ⟨e.start.setWidth v.bits, e.stop.setWidth v.bits, e.value⟩

lemma fits_of_numbers_eq {e : Entry w} {e' : Entry v} (h : e'.numbers = e.numbers) : e.Fits v := by
  obtain ⟨hstart, hstop⟩ := Prod.mk.inj h
  have hstop := (Prod.mk.inj hstop).1
  exact ⟨hstart ▸ e'.start.isLt, hstop ▸ e'.stop.isLt⟩

lemma fits_wide (e : Entry w) : e.Fits .wide := by
  have hle : 2 ^ w.bits ≤ 2 ^ Width.wide.bits := by
    refine Nat.pow_le_pow_right (by decide) ?_
    cases w <;> decide
  exact ⟨Nat.lt_of_lt_of_le e.start.isLt hle, Nat.lt_of_lt_of_le e.stop.isLt hle⟩

lemma fits_narrow_iff {e : Entry w} :
    e.Fits .narrow ↔ e.start.toNat ≤ 4294967295 ∧ e.stop.toNat ≤ 4294967295 :=
  and_congr Nat.lt_succ_iff Nat.lt_succ_iff

lemma numbers_resize {e : Entry w} (h : e.Fits v) : (e.resize v).numbers = e.numbers := by
  simp only [resize, numbers, BitVec.toNat_setWidth, Nat.mod_eq_of_lt h.1, Nat.mod_eq_of_lt h.2]

lemma map_numbers_resize {es : List (Entry w)} (h : ∀ e ∈ es, e.Fits v) :
    (es.map (resize v)).map numbers = es.map numbers := by
  rw [List.map_map]
  exact List.map_congr_left fun e he => numbers_resize (h e he)

lemma numbers_injective : Function.Injective (numbers : Entry w → _) := by
  rintro ⟨start, stop, value⟩ ⟨start', stop', value'⟩ h
  obtain ⟨hstart, h⟩ := Prod.mk.inj h
  obtain ⟨hstop, hvalue⟩ := Prod.mk.inj h
  obtain rfl := BitVec.eq_of_toNat_eq hstart
  obtain rfl := BitVec.eq_of_toNat_eq hstop
  obtain rfl := Int32.toInt_inj.mp hvalue
  rfl

lemma Ascending.of_map_numbers {es : List (Entry w)} {es' : List (Entry v)} (hes : Ascending es)
    (h : es'.map numbers = es.map numbers) : Ascending es' := by
  have hget : ∀ {i : Nat} {e' : Entry v}, es'[i]? = some e' →
      ∃ e, es[i]? = some e ∧ e.numbers = e'.numbers := by
    intro i e' he'
    have hi := congrArg (·[i]?) h
    simp only [List.getElem?_map, he', Option.map_some] at hi
    exact Option.map_eq_some_iff.mp hi.symm
  -- Neighbours at one width have the numbers of neighbours at the other.
  rw [ascending_iff_getElem?] at hes ⊢
  intro i a' b' ha' hb'
  obtain ⟨a, ha, hanumbers⟩ := hget ha'
  obtain ⟨b, hb, hbnumbers⟩ := hget hb'
  have hlt := hes i a b ha hb
  have hstop : a.stop.toNat = a'.stop.toNat := congrArg (·.2.1) hanumbers
  have hstart : b.start.toNat = b'.start.toNat := congrArg (·.1) hbnumbers
  rw [BitVec.lt_def] at hlt ⊢
  omega

end Entry

/-- The text of an entry with these numbers. -/
def SpellsNumbers (n : Nat × Nat × Int) : List Char → Prop :=
  IsArray [IsNatural n.1, IsNatural n.2.1, IsInteger n.2.2]

lemma map_spellsEntry (es : List (Entry w)) :
    es.map SpellsEntry = (es.map Entry.numbers).map SpellsNumbers := by
  rw [List.map_map]
  rfl

/-- The texts that spell entries depend on the numbers of the entries alone. -/
lemma SpellsEntries.of_map_numbers {es : List (Entry w)} {es' : List (Entry v)} {text : List Char}
    (h : SpellsEntries es text) (hnumbers : es'.map Entry.numbers = es.map Entry.numbers) :
    SpellsEntries es' text := by
  have hitems : es'.map SpellsEntry = es.map SpellsEntry := by
    rw [map_spellsEntry, map_spellsEntry, hnumbers]
  obtain ⟨b, t, b', htext, hb, ht, hb'⟩ := h
  exact ⟨b, t, b', htext, hb, hitems ▸ ht, hb'⟩

/-- A text spells the same numbers at every width. -/
theorem SpellsEntries.map_numbers_eq {es : List (Entry w)} {es' : List (Entry v)} {text : List Char}
    (h : SpellsEntries es text) (h' : SpellsEntries es' text) :
    es'.map Entry.numbers = es.map Entry.numbers := by
  -- Entries of one width are determined by their text, so both lists are compared at the wider one.
  have hwide := Entry.map_numbers_resize fun e (_ : e ∈ es) => e.fits_wide
  have hwide' := Entry.map_numbers_resize fun e (_ : e ∈ es') => e.fits_wide
  have hspelled := RangeTable.spelled?_eq_some_iff.mpr (h.of_map_numbers hwide)
  have hspelled' := RangeTable.spelled?_eq_some_iff.mpr (h'.of_map_numbers hwide')
  have heq : es.map (Entry.resize .wide) = es'.map (Entry.resize .wide) :=
    Option.some.inj (hspelled.symm.trans hspelled')
  rw [← hwide, ← hwide', heq]

namespace RangeTable

lemma joined_cons (separator text : List Char) (rest : List (List Char)) :
    joined separator (text :: rest) = text ++ rest.flatMap (separator ++ ·) := by
  induction rest generalizing text with
  | nil => exact (List.append_nil text).symm
  | cons next rest ih =>
    rw [joined, ih, List.flatMap_cons, List.append_assoc, List.append_assoc]
    exact List.cons_ne_nil next rest

lemma separator_comma : Separator false [','] :=
  ⟨[], [], rfl, blanks_nil, blanks_nil⟩

lemma run_joined {items : List (List Char → Prop)} {texts : List (List Char)}
    (h : List.Forall₂ (fun item text => item text) items texts) : Run true items (joined [','] texts) := by
  have htail : ∀ {items texts}, List.Forall₂ (fun (item : List Char → Prop) text => item text) items texts →
      Run false items (texts.flatMap ([','] ++ ·)) := by
    intro items texts h
    induction h with
    | nil => rfl
    | cons hitem _ ih => exact ⟨[','], _, _, rfl, separator_comma, hitem, ih⟩
  cases h with
  | nil => rfl
  | cons hitem hrest =>
    rw [joined_cons]
    exact ⟨[], _, _, rfl, blanks_nil, hitem, htail hrest⟩

lemma isArray_joined {items : List (List Char → Prop)} {texts : List (List Char)}
    (h : List.Forall₂ (fun item text => item text) items texts) :
    IsArray items ('[' :: joined [','] texts ++ [']']) :=
  ⟨joined [','] texts, rfl, (run_joined h).items⟩

lemma spellsEntry_encodeEntry (e : Entry w) : SpellsEntry e (encodeEntry e) :=
  isArray_joined (.cons (isNatural_digits _) (.cons (isNatural_digits _)
    (.cons (isInteger_signedDigits _) .nil)))

lemma spellsEntry_each (es : List (Entry w)) :
    List.Forall₂ (fun item text => item text) (es.map SpellsEntry) (es.map encodeEntry) := by
  rw [List.forall₂_map_left_iff, List.forall₂_map_right_iff, List.forall₂_same]
  exact fun e _ => spellsEntry_encodeEntry e

/-- The text of entries spells them. -/
theorem spellsEntries_encodeEntries (es : List (Entry w)) : SpellsEntries es (encodeEntries es) :=
  ⟨[], encodeEntries es, [], (List.append_nil _).symm, blanks_nil, isArray_joined (spellsEntry_each es), blanks_nil⟩

example : encodeEntries [(⟨1, 5, -3⟩ : Entry .narrow), ⟨9, 7, 0⟩] = "[[1,5,-3],[9,7,0]]".toList := by
  cbv

lemma spellsEntries_encode (t : RangeTable w) : SpellsEntries t.entries t.encode.toList := by
  rw [encode, String.toList_ofList]
  exact spellsEntries_encodeEntries t.entries

lemma numbers_of_decode_encode {t : RangeTable w} {t' : RangeTable v}
    (h : (decode t.encode).result = .ok t') :
    t'.entries.map Entry.numbers = t.entries.map Entry.numbers :=
  t.spellsEntries_encode.map_numbers_eq (spellsEntries_of_result_decode h)

lemma exists_decode_encode {t : RangeTable w} (h : ∀ e ∈ t.entries, e.Fits v) :
    ∃ t' : RangeTable v, (decode t.encode).result = .ok t' ∧
      t'.entries = t.entries.map (Entry.resize v) ∧ t'.capacity = t'.size := by
  have hnumbers := Entry.map_numbers_resize h
  have hspells := t.spellsEntries_encode.of_map_numbers hnumbers
  have hascending := Entry.Ascending.of_map_numbers t.ascending hnumbers
  obtain ⟨t', ht', hentries, hcapacity⟩ := result_decode_of_ascending hspells hascending
  exact ⟨t', ht', hentries, by rw [hcapacity, ← hentries, length_entries]⟩

/-- The text of a table is decoded at a width exactly if all of its keys fit, and to the same numbers. -/
theorem exists_decode_encode_iff (t : RangeTable w) :
    (∃ t' : RangeTable v, (decode t.encode).result = .ok t' ∧
      t'.entries.map Entry.numbers = t.entries.map Entry.numbers) ↔ ∀ e ∈ t.entries, e.Fits v := by
  constructor
  · rintro ⟨t', -, hnumbers⟩ e he
    have hmem : e.numbers ∈ t'.entries.map Entry.numbers :=
      hnumbers ▸ List.mem_map_of_mem he
    obtain ⟨e', -, heq⟩ := List.mem_map.mp hmem
    exact Entry.fits_of_numbers_eq heq
  · intro h
    obtain ⟨t', ht', -⟩ := exists_decode_encode h
    exact ⟨t', ht', numbers_of_decode_encode ht'⟩

/-- The text of a table is decoded to an equal table without spare room, which has the same text. A text
of narrow keys is also read as wide ones; a text of wide keys is read as narrow ones exactly if no key is
too large, and either way all numbers come out as they were. -/
theorem decode_encode_round_trip :
    (∀ (w : Width) (t : RangeTable w), ∃ t' : RangeTable w, (decode t.encode).result = .ok t' ∧
      (t' == t) = true ∧ t'.entries = t.entries ∧ t'.capacity = t'.size ∧ t'.encode = t.encode) ∧
    (∀ t : RangeTable .narrow, ∃ t' : RangeTable .wide, (decode t.encode).result = .ok t' ∧
      t'.entries.map Entry.numbers = t.entries.map Entry.numbers) ∧
    ∀ t : RangeTable .wide,
      ((∃ t' : RangeTable .narrow, (decode t.encode).result = .ok t') ↔
        ∀ e ∈ t.entries, e.start.toNat ≤ 4294967295 ∧ e.stop.toNat ≤ 4294967295) ∧
      ∀ t' : RangeTable .narrow, (decode t.encode).result = .ok t' →
        t'.entries.map Entry.numbers = t.entries.map Entry.numbers := by
  refine ⟨?_, ?_, ?_⟩
  · intro w t
    obtain ⟨t', ht', -, hcapacity⟩ :=
      exists_decode_encode (v := w) fun e (_ : e ∈ t.entries) => ⟨e.start.isLt, e.stop.isLt⟩
    have hentries : t'.entries = t.entries :=
      Entry.numbers_injective.list_map (numbers_of_decode_encode ht')
    exact ⟨t', ht', beq_iff_entries_eq.mpr hentries, hentries, hcapacity, by rw [encode, hentries, encode]⟩
  · exact fun t => t.exists_decode_encode_iff.mpr fun e _ => e.fits_wide
  · intro t
    refine ⟨?_, fun t' ht' => numbers_of_decode_encode ht'⟩
    simp only [← Entry.fits_narrow_iff]
    rw [← t.exists_decode_encode_iff]
    exact exists_congr fun t' => (and_iff_left_of_imp numbers_of_decode_encode).symm

end RangeTable

end AddressAtlas

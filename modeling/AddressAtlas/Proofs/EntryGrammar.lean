import AddressAtlas.Proofs.ArrayGrammar

/-!
# Entries in JSON

An entry is spelled as an array of three integers: its keys, which are natural numbers, and its value.
The readers of keys, of values and of entries take exactly these texts, and the numbers come out as they
are written whatever the width of a key.
-/

namespace AddressAtlas

open Json Text

variable {w : Width}

/-- The text of an entry. -/
def SpellsEntry (e : Entry w) : List Char → Prop :=
  IsArray [IsNatural e.start.toNat, IsNatural e.stop.toNat, IsInteger e.value.toInt]

namespace RangeTable

lemma readBounded_eq_ok {expected : Expected} {least greatest n : Int} {text rest : List Char}
    (h : (readBounded expected least greatest text : Reading (Refusal w) _) = .ok (n, rest)) :
    ∃ b s, text = b ++ s ++ rest ∧ Blanks b ∧ IsInteger n s ∧ least ≤ n ∧ n ≤ greatest := by
  unfold readBounded at h
  split at h
  · cases h
  · rename_i c tail hskip
    obtain ⟨b, rfl, hb, -⟩ := skipBlanks_eq_cons hskip
    split at h
    · obtain ⟨⟨number, tail'⟩, hnumber, h⟩ := bind_eq_ok.mp h
      cases number with
      | integer m =>
        simp only at h
        split at h
        · rename_i hbounds
          obtain ⟨rfl, rfl⟩ := Prod.mk.inj (Except.ok.inj h)
          obtain ⟨s, hs, hinteger⟩ := readNumber_eq_ok hnumber
          exact ⟨b, s, by rw [hs, List.append_assoc], hb, hinteger, hbounds.1, hbounds.2⟩
        · cases h
      | floating x => cases h
    · cases h

lemma readBounded_append {expected : Expected} {least greatest n : Int} {s rest : List Char}
    (hs : IsInteger n s) (hn : Fits n) (hleast : least ≤ n) (hgreatest : n ≤ greatest)
    (hrest : EndsNumber rest) :
    (readBounded expected least greatest (s ++ rest) : Reading (Refusal w) _) = .ok (n, rest) := by
  have hread : (readNumber (s ++ rest) : Reading (Refusal w) _) = .ok (.integer n, rest) :=
    readNumber_append hs hn hrest
  obtain ⟨c, t, rfl, hc⟩ := hs.exists_cons
  obtain ⟨c', t', heq, hblank, -⟩ := hs.startsItem
  obtain ⟨rfl, rfl⟩ := List.cons.inj heq
  unfold readBounded
  rw [List.cons_append, skipBlanks_cons hblank]
  simp only
  rw [if_pos hc]
  refine bind_eq_ok.mpr ⟨_, hread, ?_⟩
  simp only
  rw [if_pos ⟨hleast, hgreatest⟩]

lemma readDigitRun_eq_ok {n : Nat} {text rest : List Char}
    (h : (readDigitRun text : Reading (Refusal w) _) = .ok (n, rest)) :
    ∃ b s, text = b ++ s ++ rest ∧ Blanks b ∧ IsNatural n s ∧ n ≤ greatestWideKey := by
  unfold readDigitRun at h
  split at h
  · cases h
  · obtain ⟨b, htext, hb, -⟩ := exists_skipBlanks_eq text
    obtain ⟨s, tail, hs, hdigits, -, htake⟩ := exists_takeDigits_eq (skipBlanks text)
    rw [htake] at h
    simp only at h
    split at h
    · cases h
    · cases h
    · rename_i ds tail' hnil hlead heq
      obtain ⟨rfl, rfl⟩ := Prod.mk.inj heq
      split at h
      · rename_i hle
        obtain ⟨rfl, rfl⟩ := Prod.mk.inj (Except.ok.inj h)
        have hne : s ≠ [] := by
          rintro rfl
          exact hnil rfl
        refine ⟨b, s, ?_, hb, IsNatural.of_digits hdigits hne ?_, hle⟩
        · rw [List.append_assoc, ← hs]
          exact htext
        · intro d ds hds
          exact hlead d ds hds
      · cases h

lemma readDigitRun_append {n : Nat} {s rest : List Char} (hs : IsNatural n s)
    (hn : n ≤ greatestWideKey) (hrest : EndsNumber rest) :
    (readDigitRun (s ++ rest) : Reading (Refusal w) _) = .ok (n, rest) := by
  have hskip : skipBlanks (s ++ rest) = s ++ rest := by
    obtain ⟨c, t, rfl, hc, -⟩ := hs.startsItem
    exact skipBlanks_cons hc _
  have hne : s ++ rest ≠ [] := by simp [hs.ne_nil]
  have hmap : s.map digitOf ≠ [] := by simpa using hs.ne_nil
  unfold readDigitRun
  rw [hskip]
  split
  · rename_i heq
    exact absurd heq hne
  · rw [takeDigits_append hs.isDigit hrest.noDigit]
    simp only
    split
    · rename_i heq
      exact absurd (Prod.mk.inj heq).1 hmap
    · rename_i heq
      exact absurd (Prod.mk.inj heq).1 (hs.map_digitOf_ne _ _)
    · rename_i heq
      obtain ⟨rfl, rfl⟩ := Prod.mk.inj heq
      rw [hs.digitsValue_eq, if_pos hn]

lemma takes_readKey_narrow :
    Takes (readKey : _ → Reading (Refusal .narrow) _) fun key : Key .narrow => IsNatural key.toNat where
  sound := by
    intro text rest key h
    obtain ⟨⟨n, tail⟩, hread, h⟩ := bind_eq_ok.mp h
    obtain ⟨rfl, rfl⟩ := Prod.mk.inj (Except.ok.inj h)
    obtain ⟨b, s, htext, hb, hs, hleast, hgreatest⟩ := readBounded_eq_ok hread
    have hn : (BitVec.ofInt 32 n).toNat = n.toNat := by
      rw [BitVec.toNat_ofInt]
      omega
    exact ⟨b, s, htext, hb, hn ▸ hs.isNatural hleast⟩
  complete := by
    intro key s hs rest hrest
    have hlt : key.toNat < 4294967296 := key.isLt
    refine bind_eq_ok.mpr ⟨((key.toNat : Int), rest), ?_, ?_⟩
    · refine readBounded_append (.natural hs) ⟨?_, ?_⟩ ?_ ?_ hrest
      · unfold greatestNegated
        omega
      · unfold greatestInteger
        omega
      · omega
      · omega
    · have hkey : BitVec.ofInt 32 (key.toNat : Int) = key := by
        rw [BitVec.ofInt_natCast, BitVec.ofNat_toNat]
        exact BitVec.setWidth_eq key
      exact congrArg (fun key => Except.ok (key, rest)) hkey
  starts := fun h => h.startsItem

lemma takes_readKey_wide :
    Takes (readKey : _ → Reading (Refusal .wide) _) fun key : Key .wide => IsNatural key.toNat where
  sound := by
    intro text rest key h
    obtain ⟨⟨n, tail⟩, hread, h⟩ := bind_eq_ok.mp h
    obtain ⟨rfl, rfl⟩ := Prod.mk.inj (Except.ok.inj h)
    obtain ⟨b, s, htext, hb, hs, hle⟩ := readDigitRun_eq_ok hread
    have hn : (BitVec.ofNat 128 n).toNat = n := by
      rw [BitVec.toNat_ofNat]
      exact Nat.mod_eq_of_lt (Nat.lt_of_le_of_lt hle (by decide))
    exact ⟨b, s, htext, hb, hn.symm ▸ hs⟩
  complete := by
    intro key s hs rest hrest
    have hle : key.toNat ≤ greatestWideKey := Nat.le_of_lt_succ key.isLt
    have hkey : BitVec.ofNat 128 key.toNat = key := by
      rw [BitVec.ofNat_toNat]
      exact BitVec.setWidth_eq key
    refine bind_eq_ok.mpr ⟨(key.toNat, rest), readDigitRun_append hs hle hrest, ?_⟩
    exact congrArg (fun key => Except.ok (key, rest)) hkey
  starts := fun h => h.startsItem

/-- The readers of both widths take the natural numbers that fit into a key. -/
lemma takes_readKey :
    Takes (readKey : _ → Reading (Refusal w) _) fun key : Key w => IsNatural key.toNat := by
  cases w with
  | narrow => exact takes_readKey_narrow
  | wide => exact takes_readKey_wide

lemma takes_readValue :
    Takes (readValue : _ → Reading (Refusal w) _) fun value : Int32 => IsInteger value.toInt where
  sound := by
    intro text rest value h
    obtain ⟨⟨n, tail⟩, hread, h⟩ := bind_eq_ok.mp h
    obtain ⟨rfl, rfl⟩ := Prod.mk.inj (Except.ok.inj h)
    obtain ⟨b, s, htext, hb, hs, hleast, hgreatest⟩ := readBounded_eq_ok hread
    have hn : (Int32.ofInt n).toInt = n := Int32.toInt_ofInt_of_le (by omega) (by omega)
    exact ⟨b, s, htext, hb, hn.symm ▸ hs⟩
  complete := by
    intro value s hs rest hrest
    have hleast := value.le_toInt
    have hlt := value.toInt_lt
    refine bind_eq_ok.mpr ⟨(value.toInt, rest), ?_, ?_⟩
    · refine readBounded_append hs ⟨?_, ?_⟩ ?_ ?_ hrest
      · unfold greatestNegated
        omega
      · unfold greatestInteger
        omega
      · omega
      · omega
    · exact congrArg (fun value => Except.ok (value, rest)) value.ofInt_toInt
  starts := fun h => h.startsItem

variable {α : Type} {read : List Char → Reading (Refusal w) (α × List Char)}
  {token : α → List Char → Prop}

lemma readPartSeparator_eq_ok {i : Nat} {text rest : List Char}
    (h : (readPartSeparator i text : Reading (Refusal w) _) = .ok rest) :
    ∃ g, text = g ++ rest ∧ Separator (i = 0) g := by
  obtain ⟨⟨more, tail⟩, hseparator, h⟩ := bind_eq_ok.mp h
  cases more with
  | true =>
    obtain rfl : tail = rest := Except.ok.inj h
    exact readSeparator_eq_true hseparator
  | false => cases h

lemma readPartSeparator_append {i : Nat} {g s : List Char} (hg : Separator (i = 0) g)
    (hs : StartsItem s) : (readPartSeparator i (g ++ s) : Reading (Refusal w) _) = .ok s :=
  bind_eq_ok.mpr ⟨(true, s), readSeparator_append hg hs, rfl⟩

lemma part_eq_ok (htakes : Takes read token) {i : Nat} {text mid rest : List Char} {a : α}
    (hseparator : (readPartSeparator i text : Reading (Refusal w) _) = .ok mid)
    (hread : read mid = .ok (a, rest)) :
    ∃ g s, text = g ++ s ++ rest ∧ Separator (i = 0) g ∧ token a s := by
  obtain ⟨g, rfl, hg⟩ := readPartSeparator_eq_ok hseparator
  obtain ⟨b, s, rfl, hb, hs⟩ := htakes.sound hread
  exact ⟨g ++ b, s, by simp only [List.append_assoc], hg.append_blanks hb, hs⟩

lemma readParts_eq_ok {text rest : List Char} {e : Entry w}
    (h : (readParts text : Reading (Refusal w) _) = .ok (e, rest)) :
    ∃ s, text = s ++ rest ∧ SpellsEntry e ('[' :: s) := by
  obtain ⟨text₀, hseparator₀, h⟩ := bind_eq_ok.mp h
  obtain ⟨⟨start, text₁⟩, hstart, h⟩ := bind_eq_ok.mp h
  obtain ⟨text₂, hseparator₁, h⟩ := bind_eq_ok.mp h
  obtain ⟨⟨stop, text₃⟩, hstop, h⟩ := bind_eq_ok.mp h
  obtain ⟨text₄, hseparator₂, h⟩ := bind_eq_ok.mp h
  obtain ⟨⟨value, text₅⟩, hvalue, h⟩ := bind_eq_ok.mp h
  obtain ⟨text₆, hclose, h⟩ := bind_eq_ok.mp h
  obtain ⟨rfl, rfl⟩ := Prod.mk.inj (Except.ok.inj h)
  obtain ⟨g, s, rfl, hg, hs⟩ := part_eq_ok takes_readKey hseparator₀ hstart
  obtain ⟨g', s', rfl, hg', hs'⟩ := part_eq_ok takes_readKey hseparator₁ hstop
  obtain ⟨g'', s'', rfl, hg'', hs''⟩ := part_eq_ok takes_readValue hseparator₂ hvalue
  obtain ⟨b, rfl, hb⟩ := readClose_eq_ok hclose
  refine ⟨g ++ s ++ (g' ++ s' ++ (g'' ++ s'' ++ b)) ++ [']'], ?_, ?_⟩
  · simp only [List.append_assoc, List.cons_append, List.nil_append]
  · exact ⟨_, rfl, g, s, _, rfl, hg, hs, g', s', _, rfl, hg', hs', g'', s'', _, rfl, hg'', hs'', hb⟩

lemma readParts_append {s rest : List Char} {e : Entry w} (h : SpellsEntry e ('[' :: s)) :
    (readParts (s ++ rest) : Reading (Refusal w) _) = .ok (e, rest) := by
  obtain ⟨body, hbody, hitems⟩ := h
  obtain rfl : s = body ++ [']'] := (List.cons.inj hbody).2
  obtain ⟨g, s, tail, rfl, hg, hs, htail⟩ := hitems
  have hend := htail.endsNumber rest
  obtain ⟨g', s', tail', rfl, hg', hs', htail'⟩ := htail
  have hend' := htail'.endsNumber rest
  obtain ⟨g'', s'', b, rfl, hg'', hs'', hb⟩ := htail'
  have hblanks : Items false [] b := hb
  have hend'' := hblanks.endsNumber rest
  simp only [List.append_assoc, List.cons_append, List.nil_append] at hend hend' ⊢
  refine bind_eq_ok.mpr ⟨_, readPartSeparator_append hg hs.startsItem.append, ?_⟩
  refine bind_eq_ok.mpr ⟨_, takes_readKey.complete hs _ hend, ?_⟩
  refine bind_eq_ok.mpr ⟨_, readPartSeparator_append hg' hs'.startsItem.append, ?_⟩
  refine bind_eq_ok.mpr ⟨_, takes_readKey.complete hs' _ hend', ?_⟩
  refine bind_eq_ok.mpr ⟨_, readPartSeparator_append hg'' hs''.startsItem.append, ?_⟩
  refine bind_eq_ok.mpr ⟨_, takes_readValue.complete hs'' _ hend'', ?_⟩
  exact bind_eq_ok.mpr ⟨_, readClose_append hb rest, rfl⟩

lemma readEntry_append {s rest : List Char} {e : Entry w} (h : SpellsEntry e s) :
    (readEntry (s ++ rest) : Reading (Refusal w) _) = .ok (e, rest) := by
  obtain ⟨body, rfl, hitems⟩ := h
  unfold readEntry
  rw [List.cons_append, List.cons_append, skipBlanks_cons (by decide)]
  exact readParts_append ⟨body, rfl, hitems⟩

lemma takes_readEntry :
    Takes (readEntry : _ → Reading (Refusal w) _) (SpellsEntry : Entry w → List Char → Prop) where
  sound := by
    intro text rest e h
    unfold readEntry at h
    split at h
    · cases h
    · rename_i tail hskip
      obtain ⟨b, rfl, hb, -⟩ := skipBlanks_eq_cons hskip
      obtain ⟨s, rfl, hs⟩ := readParts_eq_ok h
      exact ⟨b, '[' :: s, by simp only [List.append_assoc, List.cons_append], hb, hs⟩
    · cases h
  complete := fun hs _ _ => readEntry_append hs
  starts := by
    rintro e s ⟨body, rfl, -⟩
    exact ⟨'[', _, rfl, rfl, by decide⟩

end RangeTable

end AddressAtlas

import AddressAtlas.Proofs.Numeral

/-!
# Grammar of coordinates

`IsFloat` says which texts are floating point numbers, without a word on how they are read: digits with a
point anywhere among them, or one of three words, and signs where they may stand. Exactly these are read.
-/

namespace AddressAtlas.Binary64

open Json Text

/-- A sign that may be left out. -/
def IsSign (s : List Char) : Prop :=
  s = [] ∨ s = ['+'] ∨ s = ['-']

/-- Digits, and possibly a point with a digit on one side of it. -/
inductive IsDecimal : List Char → Prop
  | whole {ds : List Char} (hds : ∀ c ∈ ds, c.isDigit) (hne : ds ≠ []) : IsDecimal ds
  | pointed {ds fraction : List Char} (hds : ∀ c ∈ ds, c.isDigit) (hfraction : ∀ c ∈ fraction, c.isDigit)
      (hne : ds ≠ [] ∨ fraction ≠ []) : IsDecimal (ds ++ '.' :: fraction)

/-- An exponent that may be left out. -/
inductive IsExponent : List Char → Prop
  | absent : IsExponent []
  | written {letter : Char} {sign ds : List Char} (hletter : letter = 'e' ∨ letter = 'E')
      (hsign : IsSign sign) (hds : ∀ c ∈ ds, c.isDigit) (hne : ds ≠ []) :
      IsExponent (letter :: (sign ++ ds))

/-- A word for what no digits stand for, in any case. -/
def IsWord (s : List Char) : Prop :=
  s.map Char.toLower = "inf".toList ∨ s.map Char.toLower = "infinity".toList ∨
    s.map Char.toLower = "nan".toList

/-- A word, or a decimal with an exponent. -/
inductive IsMagnitude : List Char → Prop
  | word {s : List Char} (h : IsWord s) : IsMagnitude s
  | number {decimal exponent : List Char} (hdecimal : IsDecimal decimal) (hexponent : IsExponent exponent) :
      IsMagnitude (decimal ++ exponent)

def IsFloat (text : List Char) : Prop :=
  ∃ sign size, IsSign sign ∧ IsMagnitude size ∧ text = sign ++ size

/-- No character that is a sign. -/
def NoSign (text : List Char) : Prop :=
  ∀ c ∈ text.head?, c ≠ '+' ∧ c ≠ '-'

variable {text sign ds : List Char}

lemma splitSign_append (hsign : IsSign sign) (htext : NoSign text) : (splitSign (sign ++ text)).2 = text := by
  obtain rfl | rfl | rfl := hsign
  · unfold splitSign
    rw [List.nil_append]
    split
    · exact absurd rfl (htext '-' rfl).2
    · exact absurd rfl (htext '+' rfl).1
    · rfl
  · rfl
  · rfl

lemma exists_splitSign_eq (text : List Char) :
    ∃ sign rest, text = sign ++ rest ∧ IsSign sign ∧ (splitSign text).2 = rest := by
  unfold splitSign
  split
  · exact ⟨['-'], _, rfl, Or.inr (Or.inr rfl), rfl⟩
  · exact ⟨['+'], _, rfl, Or.inr (Or.inl rfl), rfl⟩
  · exact ⟨[], _, rfl, Or.inl rfl, rfl⟩

lemma ne_of_isDigit {c d : Char} (hc : c.isDigit) (hd : d.isDigit = false) : c ≠ d := by
  rintro rfl
  exact Bool.noConfusion (hc.symm.trans hd)

lemma noSign_append_of_digits (hds : ∀ c ∈ ds, c.isDigit) (hne : ds ≠ []) (text : List Char) :
    NoSign (ds ++ text) := by
  obtain ⟨c, rest, rfl⟩ := List.exists_cons_of_ne_nil hne
  intro d hd
  obtain rfl : c = d := Option.some.inj hd
  have hc := hds c List.mem_cons_self
  exact ⟨ne_of_isDigit hc rfl, ne_of_isDigit hc rfl⟩

lemma IsExponent.noDigit (h : IsExponent text) : NoDigit text := by
  intro c hc
  cases h with
  | absent => cases hc
  | written hletter =>
    obtain rfl := Option.some.inj hc
    rcases hletter with rfl | rfl
    · rfl
    · rfl

lemma takeDigits_of_digits (hds : ∀ c ∈ ds, c.isDigit) : takeDigits ds = (ds.map digitOf, []) := by
  have htake : takeDigits (ds ++ []) = (ds.map digitOf, []) := by
    apply takeDigits_append hds
    intro c hc
    cases hc
  rwa [List.append_nil] at htake

lemma isSome_parseExponent?_cons {letter : Char} {rest : List Char} :
    (parseExponent? (letter :: rest)).isSome ↔
      (letter = 'e' ∨ letter = 'E') ∧ ∃ ds, takeDigits (splitSign rest).2 = (ds, []) ∧ ds ≠ [] := by
  simp only [parseExponent?]
  by_cases hletter : letter = 'e' ∨ letter = 'E'
  · rw [if_pos hletter]
    obtain ⟨ds, behind⟩ := takeDigits (splitSign rest).2
    cases ds with
    | nil => simp
    | cons d ds =>
      cases behind with
      | nil => simp [hletter]
      | cons c behind => simp
  · simp [hletter]

lemma isSome_parseExponent?_iff : (parseExponent? text).isSome ↔ IsExponent text := by
  constructor
  · intro h
    cases text with
    | nil => exact IsExponent.absent
    | cons letter rest =>
      obtain ⟨hletter, values, hvalues, hne⟩ := isSome_parseExponent?_cons.mp h
      obtain ⟨sign, rest', rfl, hsign, hsplit⟩ := exists_splitSign_eq rest
      obtain ⟨ds, behind, rfl, hds, -, htake⟩ := exists_takeDigits_eq rest'
      rw [hsplit, htake] at hvalues
      obtain ⟨rfl, rfl⟩ := Prod.mk.inj hvalues
      rw [List.append_nil]
      apply IsExponent.written hletter hsign hds
      rintro rfl
      exact hne rfl
  · intro h
    cases h with
    | absent => rfl
    | @written letter sign ds hletter hsign hds hne =>
      have hnoSign := noSign_append_of_digits hds hne []
      rw [List.append_nil] at hnoSign
      refine isSome_parseExponent?_cons.mpr ⟨hletter, ds.map digitOf, ?_, ?_⟩
      · rw [splitSign_append hsign hnoSign, takeDigits_of_digits hds]
      · simpa using hne

lemma isSome_parseDecimal?_of_digits {rest : List Char} (hds : ∀ c ∈ ds, c.isDigit) (hrest : NoDigit rest)
    (hpoint : ∀ behind, rest ≠ '.' :: behind) :
    (parseDecimal? (ds ++ rest)).isSome ↔ ds ≠ [] ∧ IsExponent rest := by
  rw [← isSome_parseExponent?_iff]
  unfold parseDecimal?
  rw [takeDigits_append hds hrest]
  cases ds with
  | nil => simp
  | cons c ds => simp

lemma isSome_parseDecimal?_of_point {fraction rest : List Char} (hds : ∀ c ∈ ds, c.isDigit)
    (hfraction : ∀ c ∈ fraction, c.isDigit) (hrest : NoDigit rest) :
    (parseDecimal? (ds ++ '.' :: (fraction ++ rest))).isSome ↔
      (ds ≠ [] ∨ fraction ≠ []) ∧ IsExponent rest := by
  have hpoint : NoDigit ('.' :: (fraction ++ rest)) := by
    intro c hc
    obtain rfl := Option.some.inj hc
    rfl
  rw [← isSome_parseExponent?_iff]
  unfold parseDecimal?
  rw [takeDigits_append hds hpoint]
  simp only [takeDigits_append hfraction hrest, List.isEmpty_iff, List.map_eq_nil_iff]
  by_cases hempty : ds = [] ∧ fraction = []
  · simp [hempty]
  · have hne : ds ≠ [] ∨ fraction ≠ [] := Decidable.not_and_iff_or_not.mp hempty
    rw [if_neg hempty, Option.isSome_map, and_iff_right hne]

lemma isSome_parseDecimal?_iff : (parseDecimal? text).isSome ↔
    ∃ decimal exponent, IsDecimal decimal ∧ IsExponent exponent ∧ text = decimal ++ exponent := by
  constructor
  · intro h
    obtain ⟨ds, rest, rfl, hds, hrest, -⟩ := exists_takeDigits_eq text
    by_cases hpoint : ∃ behind, rest = '.' :: behind
    · obtain ⟨behind, rfl⟩ := hpoint
      obtain ⟨fraction, rest', rfl, hfraction, hrest', -⟩ := exists_takeDigits_eq behind
      obtain ⟨hne, hexponent⟩ := (isSome_parseDecimal?_of_point hds hfraction hrest').mp h
      refine ⟨ds ++ '.' :: fraction, rest', IsDecimal.pointed hds hfraction hne, hexponent, ?_⟩
      rw [List.append_assoc, List.cons_append]
    · have hpoint' : ∀ behind, rest ≠ '.' :: behind := fun behind hrest => hpoint ⟨behind, hrest⟩
      obtain ⟨hne, hexponent⟩ := (isSome_parseDecimal?_of_digits hds hrest hpoint').mp h
      exact ⟨ds, rest, IsDecimal.whole hds hne, hexponent, rfl⟩
  · rintro ⟨decimal, exponent, hdecimal, hexponent, rfl⟩
    cases hdecimal with
    | whole hds hne =>
      have hpoint : ∀ behind, exponent ≠ '.' :: behind := by
        rintro behind rfl
        cases hexponent with
        | written hletter => simp at hletter
      exact (isSome_parseDecimal?_of_digits hds hexponent.noDigit hpoint).mpr ⟨hne, hexponent⟩
    | pointed hds hfraction hne =>
      rw [List.append_assoc, List.cons_append]
      exact (isSome_parseDecimal?_of_point hds hfraction hexponent.noDigit).mpr ⟨hne, hexponent⟩

lemma isSome_parseMagnitude? :
    (parseMagnitude? text).isSome ↔ IsWord text ∨ (parseDecimal? text).isSome := by
  unfold parseMagnitude? IsWord
  by_cases hinfinite : text.map Char.toLower = "inf".toList ∨ text.map Char.toLower = "infinity".toList
  · rw [if_pos hinfinite, ← or_assoc]
    exact iff_of_true rfl (Or.inl (Or.inl hinfinite))
  · rw [if_neg hinfinite, ← or_assoc]
    by_cases hnan : text.map Char.toLower = "nan".toList
    · rw [if_pos hnan]
      exact iff_of_true rfl (Or.inl (Or.inr hnan))
    · rw [if_neg hnan, or_iff_right (not_or.mpr ⟨hinfinite, hnan⟩)]

lemma isSome_parseMagnitude?_iff : (parseMagnitude? text).isSome ↔ IsMagnitude text := by
  rw [isSome_parseMagnitude?, isSome_parseDecimal?_iff]
  constructor
  · rintro (hword | ⟨decimal, exponent, hdecimal, hexponent, rfl⟩)
    · exact IsMagnitude.word hword
    · exact IsMagnitude.number hdecimal hexponent
  · intro h
    cases h with
    | word hword => exact Or.inl hword
    | number hdecimal hexponent => exact Or.inr ⟨_, _, hdecimal, hexponent, rfl⟩

lemma IsWord.noSign (h : IsWord text) : NoSign text := by
  intro c hc
  have hhead : (text.map Char.toLower).head? = some c.toLower := by
    rw [List.head?_map, Option.mem_def.mp hc]
    rfl
  have hletter : c.toLower = 'i' ∨ c.toLower = 'n' := by
    rcases h with h | h | h
    · rw [h] at hhead
      exact Or.inl (Option.some.inj hhead).symm
    · rw [h] at hhead
      exact Or.inl (Option.some.inj hhead).symm
    · rw [h] at hhead
      exact Or.inr (Option.some.inj hhead).symm
  constructor
  · rintro rfl
    exact absurd hletter (by decide)
  · rintro rfl
    exact absurd hletter (by decide)

lemma IsMagnitude.noSign (h : IsMagnitude text) : NoSign text := by
  cases h with
  | word hword => exact hword.noSign
  | number hdecimal hexponent =>
    cases hdecimal with
    | whole hds hne => exact noSign_append_of_digits hds hne _
    | @pointed ds fraction hds hfraction hne =>
      rw [List.append_assoc]
      by_cases hwhole : ds = []
      · rw [hwhole]
        intro c hc
        obtain rfl := Option.some.inj hc
        decide
      · exact noSign_append_of_digits hds hwhole _

/-- The texts that are read are those of the grammar. -/
theorem isSome_parse?_iff : (parse? text).isSome ↔ IsFloat text := by
  unfold parse?
  simp only [Option.isSome_map, isSome_parseMagnitude?_iff]
  constructor
  · intro h
    obtain ⟨sign, rest, rfl, hsign, hsplit⟩ := exists_splitSign_eq text
    rw [hsplit] at h
    exact ⟨sign, rest, hsign, h, rfl⟩
  · rintro ⟨sign, size, hsign, hsize, rfl⟩
    rwa [splitSign_append hsign hsize.noSign]

example : ["5.", ".5", "+1e400", "-NaN", "Infinity"].all fun s => (parse? s.toList).isSome := by
  decide

example : ["", "-", ".", "1e", "0x1", "1_0"].all fun s => (parse? s.toList).isNone := by
  decide

end AddressAtlas.Binary64

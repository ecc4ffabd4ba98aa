import AddressAtlas.Geo.Address
import AddressAtlas.Proofs.Numeral

/-!
# Grammar of addresses

`SpellsNumber` says which texts are addresses as numbers. The reader stops at the first character that is
no digit or makes the number too large, so that a text with both faults is refused for the one in front.
-/

namespace AddressAtlas

namespace IpAddress

open Json Text

/-- A plus sign that may be left out. -/
def IsPlus (s : List Char) : Prop :=
  s = [] ∨ s = ['+']

/-- At least one digit behind a sign, the digits standing for `n`. -/
def SpellsNumber (n : ℕ) (text : List Char) : Prop :=
  ∃ sign ds, IsPlus sign ∧ ds ≠ [] ∧ (∀ c ∈ ds, c.isDigit) ∧
    Nat.ofDigits 10 (ds.reverse.map digitOf) = n ∧ text = sign ++ ds

/-- The first digits alone stand for a number too large. -/
def Overflows (text : List Char) : Prop :=
  ∃ sign ds rest, IsPlus sign ∧ (∀ c ∈ ds, c.isDigit) ∧
    2 ^ 128 ≤ Nat.ofDigits 10 (ds.reverse.map digitOf) ∧ text = sign ++ (ds ++ rest)

def IsAddress (text : List Char) : Prop :=
  ∃ n < 2 ^ 128, SpellsNumber n text

/-- The texts that are refused for a cause. A number without a sign is never too small. -/
def Refused (text : List Char) : AddressFault → Prop
  | .empty => text = []
  | .tooLarge => Overflows text
  | .invalidDigit => text ≠ [] ∧ (∀ n, ¬SpellsNumber n text) ∧ ¬Overflows text
  | .tooSmall | .zero => False

variable {text s : List Char} {before n : ℕ}

lemma limit_eq : limit = 2 ^ 128 := by
  decide

lemma le_digitsValue (before : ℕ) (ds : List ℕ) : before ≤ digitsValue before ds := by
  induction ds generalizing before with
  | nil => exact Nat.le_refl _
  | cons d ds ih =>
    have hnext : 10 * before + d ≤ digitsValue before (d :: ds) := ih (10 * before + d)
    omega

lemma parseDigits_cons_of_digit {c : Char} (hc : c.isDigit) :
    parseDigits before (c :: s) =
      if 10 * before + digitOf c < limit then parseDigits (10 * before + digitOf c) s
      else .error .tooLarge := by
  rw [parseDigits, digitValue?_eq, if_pos hc]

lemma parseDigits_cons_of_not_digit {c : Char} (hc : ¬c.isDigit) :
    parseDigits before (c :: s) = .error .invalidDigit := by
  rw [parseDigits, digitValue?_eq, if_neg hc]

lemma parseDigits_eq_ok_iff (hbefore : before < limit) : parseDigits before s = .ok n ↔
    (∀ c ∈ s, c.isDigit) ∧ digitsValue before (s.map digitOf) = n ∧ n < limit := by
  induction s generalizing before with
  | nil =>
    rw [parseDigits, Except.ok.injEq]
    constructor
    · rintro rfl
      exact ⟨by simp, rfl, hbefore⟩
    · rintro ⟨-, rfl, -⟩
      rfl
  | cons c s ih =>
    have hvalue : digitsValue before ((c :: s).map digitOf) =
      digitsValue (10 * before + digitOf c) (s.map digitOf) := rfl
    by_cases hc : c.isDigit
    · rw [parseDigits_cons_of_digit hc, hvalue]
      by_cases hnext : 10 * before + digitOf c < limit
      · rw [if_pos hnext, ih hnext, List.forall_mem_cons, and_iff_right hc]
      · rw [if_neg hnext]
        have hle := le_digitsValue (10 * before + digitOf c) (s.map digitOf)
        constructor
        · intro h
          cases h
        · rintro ⟨-, rfl, hlt⟩
          omega
    · rw [parseDigits_cons_of_not_digit hc]
      constructor
      · intro h
        cases h
      · rintro ⟨hs, -⟩
        exact absurd (hs c List.mem_cons_self) hc

lemma parseDigits_eq_tooLarge_iff (hbefore : before < limit) : parseDigits before s = .error .tooLarge ↔
    ∃ ds rest, (∀ c ∈ ds, c.isDigit) ∧ limit ≤ digitsValue before (ds.map digitOf) ∧ s = ds ++ rest := by
  induction s generalizing before with
  | nil =>
    rw [parseDigits]
    constructor
    · intro h
      cases h
    · rintro ⟨ds, rest, -, hle, heq⟩
      obtain ⟨rfl, -⟩ := List.nil_eq_append_iff.mp heq
      exact absurd hbefore (Nat.not_lt.mpr hle)
  | cons c s ih =>
    by_cases hc : c.isDigit
    · rw [parseDigits_cons_of_digit hc]
      by_cases hnext : 10 * before + digitOf c < limit
      · rw [if_pos hnext, ih hnext]
        constructor
        · rintro ⟨ds, rest, hds, hle, rfl⟩
          exact ⟨c :: ds, rest, List.forall_mem_cons.mpr ⟨hc, hds⟩, hle, rfl⟩
        · rintro ⟨ds, rest, hds, hle, heq⟩
          cases ds with
          | nil => exact absurd hbefore (Nat.not_lt.mpr hle)
          | cons d ds =>
            obtain ⟨rfl, rfl⟩ := List.cons.inj heq
            exact ⟨ds, rest, (List.forall_mem_cons.mp hds).2, hle, rfl⟩
      · rw [if_neg hnext]
        refine iff_of_true rfl ⟨[c], s, by simpa using hc, ?_, rfl⟩
        exact Nat.not_lt.mp hnext
    · rw [parseDigits_cons_of_not_digit hc]
      constructor
      · intro h
        cases h
      · rintro ⟨ds, rest, hds, hle, heq⟩
        cases ds with
        | nil => exact absurd hbefore (Nat.not_lt.mpr hle)
        | cons d ds =>
          obtain ⟨rfl, -⟩ := List.cons.inj heq
          exact absurd (hds _ List.mem_cons_self) hc

/-- What the digits are read from. -/
structure IsBody (body text : List Char) : Prop where
  ne_nil : body ≠ []
  signed : ∃ sign, IsPlus sign ∧ text = sign ++ body
  parseNumber_eq : parseNumber text = (parseDigits 0 body).map (BitVec.ofNat _)
  unique : ∀ sign rest, IsPlus sign → rest.head? ≠ some '+' → text = sign ++ rest → rest = body

lemma exists_isBody (hne : text ≠ []) (hplus : text ≠ ['+']) : ∃ body, IsBody body text := by
  by_cases hsign : ∃ body, text = '+' :: body
  · obtain ⟨body, rfl⟩ := hsign
    have hbody : body ≠ [] := by
      rintro rfl
      exact hplus rfl
    refine ⟨body, hbody, ⟨['+'], Or.inr rfl, rfl⟩, ?_, ?_⟩
    · rw [parseNumber]
      simpa using hbody
    · rintro sign rest (rfl | rfl) hrest heq
      · rw [List.nil_append] at heq
        rw [← heq] at hrest
        exact absurd rfl hrest
      · exact (List.cons.inj heq).2.symm
  · have hsign' : ∀ body, text ≠ '+' :: body := fun body heq => hsign ⟨body, heq⟩
    refine ⟨text, hne, ⟨[], Or.inl rfl, rfl⟩, ?_, ?_⟩
    · rw [parseNumber]
      · exact hne
      · exact hplus
      · exact hsign'
    · rintro sign rest (rfl | rfl) hrest heq
      · exact heq.symm
      · exact absurd heq (hsign' rest)

lemma head?_ne_plus {ds : List Char} (hds : ∀ c ∈ ds, c.isDigit) (hne : ds ≠ []) (rest : List Char) :
    (ds ++ rest).head? ≠ some '+' := by
  obtain ⟨c, ds, rfl⟩ := List.exists_cons_of_ne_nil hne
  intro h
  obtain rfl := Option.some.inj h
  exact absurd (hds '+' List.mem_cons_self) (by decide)

lemma ne_nil_of_overflow {ds : List Char} (h : 2 ^ 128 ≤ Nat.ofDigits 10 (ds.reverse.map digitOf)) :
    ds ≠ [] := by
  rintro rfl
  exact absurd h (by decide)

lemma IsBody.spellsNumber_iff {body : List Char} (h : IsBody body text) :
    SpellsNumber n text ↔ (∀ c ∈ body, c.isDigit) ∧ digitsValue 0 (body.map digitOf) = n := by
  rw [digitsValue_map_digitOf]
  constructor
  · rintro ⟨sign, ds, hsign, hne, hds, hvalue, heq⟩
    have hhead := head?_ne_plus hds hne []
    rw [List.append_nil] at hhead
    obtain rfl := h.unique sign ds hsign hhead heq
    exact ⟨hds, hvalue⟩
  · rintro ⟨hds, hvalue⟩
    obtain ⟨sign, hsign, heq⟩ := h.signed
    exact ⟨sign, body, hsign, h.ne_nil, hds, hvalue, heq⟩

lemma IsBody.overflows_iff {body : List Char} (h : IsBody body text) :
    Overflows text ↔
      ∃ ds rest, (∀ c ∈ ds, c.isDigit) ∧ limit ≤ digitsValue 0 (ds.map digitOf) ∧ body = ds ++ rest := by
  simp only [digitsValue_map_digitOf, limit_eq]
  constructor
  · rintro ⟨sign, ds, rest, hsign, hds, hle, heq⟩
    have hhead := head?_ne_plus hds (ne_nil_of_overflow hle) rest
    exact ⟨ds, rest, hds, hle, (h.unique sign (ds ++ rest) hsign hhead heq).symm⟩
  · rintro ⟨ds, rest, hds, hle, rfl⟩
    obtain ⟨sign, hsign, heq⟩ := h.signed
    exact ⟨sign, ds, rest, hsign, hds, hle, heq⟩

lemma ne_of_digits {sign ds : List Char} (hsign : IsPlus sign) (hds : ∀ c ∈ ds, c.isDigit)
    (hne : ds ≠ []) (rest : List Char) : sign ++ (ds ++ rest) ≠ [] ∧ sign ++ (ds ++ rest) ≠ ['+'] := by
  have hnil : ds ++ rest ≠ [] := fun heq => hne (List.append_eq_nil_iff.mp heq).1
  constructor
  · intro heq
    exact hnil (List.append_eq_nil_iff.mp heq).2
  · obtain rfl | rfl := hsign
    · intro heq
      rw [List.nil_append] at heq
      exact head?_ne_plus hds hne rest (by rw [heq, List.head?_cons])
    · intro heq
      exact hnil (List.append_cancel_left heq)

lemma SpellsNumber.ne (h : SpellsNumber n text) : text ≠ [] ∧ text ≠ ['+'] := by
  obtain ⟨sign, ds, hsign, hne, hds, -, rfl⟩ := h
  have hne' := ne_of_digits hsign hds hne []
  rwa [List.append_nil] at hne'

lemma Overflows.ne (h : Overflows text) : text ≠ [] ∧ text ≠ ['+'] := by
  obtain ⟨sign, ds, rest, hsign, hds, hle, rfl⟩ := h
  exact ne_of_digits hsign hds (ne_nil_of_overflow hle) rest

lemma SpellsNumber.overflows (h : SpellsNumber n text) (hn : 2 ^ 128 ≤ n) : Overflows text := by
  obtain ⟨sign, ds, hsign, -, hds, rfl, rfl⟩ := h
  exact ⟨sign, ds, [], hsign, hds, hn, by rw [List.append_nil]⟩

lemma map_ofNat_parseDigits_eq_ok_iff {k : Key .wide} :
    (parseDigits 0 s).map (BitVec.ofNat _) = .ok k ↔ parseDigits 0 s = .ok k.toNat := by
  have hk : k.toNat < 2 ^ 128 := k.isLt
  cases hs : parseDigits 0 s with
  | error cause => simp [Except.map]
  | ok n =>
    have hn := ((parseDigits_eq_ok_iff (by decide)).mp hs).2.2
    rw [limit_eq] at hn
    rw [Except.map, Except.ok.injEq, Except.ok.injEq]
    constructor
    · rintro rfl
      exact (Nat.mod_eq_of_lt hn).symm
    · rintro rfl
      exact BitVec.ofNat_toNat _ _ |>.trans (BitVec.setWidth_eq _)

lemma map_eq_error_iff {ε α β : Type} {x : Except ε α} {f : α → β} {e : ε} :
    x.map f = .error e ↔ x = .error e := by
  cases x with
  | error e' => simp [Except.map]
  | ok a => simp [Except.map]

lemma parseNumber_of_no_digits (h : ¬(text ≠ [] ∧ text ≠ ['+'])) :
    text = [] ∧ parseNumber text = .error .empty ∨
      text = ['+'] ∧ parseNumber text = .error .invalidDigit := by
  by_cases hnil : text = []
  · rw [hnil]
    exact Or.inl ⟨rfl, rfl⟩
  · by_cases hplus : text = ['+']
    · rw [hplus]
      exact Or.inr ⟨rfl, rfl⟩
    · exact absurd ⟨hnil, hplus⟩ h

/-- A digit scan has two causes to stop. -/
lemma cause_of_parseDigits {cause : AddressFault} (h : parseDigits before s = .error cause) :
    cause = .invalidDigit ∨ cause = .tooLarge := by
  induction s generalizing before with
  | nil => cases h
  | cons c s ih =>
    by_cases hc : c.isDigit
    · rw [parseDigits_cons_of_digit hc] at h
      by_cases hnext : 10 * before + digitOf c < limit
      · rw [if_pos hnext] at h
        exact ih h
      · rw [if_neg hnext] at h
        cases h
        exact Or.inr rfl
    · rw [parseDigits_cons_of_not_digit hc] at h
      cases h
      exact Or.inl rfl

lemma cause_of_parseNumber {cause : AddressFault} (h : parseNumber text = .error cause) :
    cause = .empty ∧ text = [] ∨ cause = .invalidDigit ∨ cause = .tooLarge := by
  by_cases hne : text ≠ [] ∧ text ≠ ['+']
  · obtain ⟨body, hbody⟩ := exists_isBody hne.1 hne.2
    rw [hbody.parseNumber_eq, map_eq_error_iff] at h
    exact Or.inr (cause_of_parseDigits h)
  · obtain ⟨hnil, hparse⟩ | ⟨-, hparse⟩ := parseNumber_of_no_digits hne
    · exact Or.inl ⟨(Except.error.inj (hparse.symm.trans h)).symm, hnil⟩
    · exact Or.inr (Or.inl (Except.error.inj (hparse.symm.trans h)).symm)

/-- An address is read exactly if it is written as a number, and it is this number. -/
theorem parseNumber_eq_ok_iff {k : Key .wide} : parseNumber text = .ok k ↔ SpellsNumber k.toNat text := by
  have hk : k.toNat < limit := k.isLt
  by_cases hne : text ≠ [] ∧ text ≠ ['+']
  · obtain ⟨body, hbody⟩ := exists_isBody hne.1 hne.2
    rw [hbody.parseNumber_eq, map_ofNat_parseDigits_eq_ok_iff, hbody.spellsNumber_iff,
      parseDigits_eq_ok_iff (by decide), and_iff_left hk]
  · refine iff_of_false ?_ fun h => hne h.ne
    obtain ⟨-, hparse⟩ | ⟨-, hparse⟩ := parseNumber_of_no_digits hne
    · simp [hparse]
    · simp [hparse]

example : parseNumber "+0007".toList = .ok 7 := by
  decide

lemma parseNumber_eq_tooLarge_iff : parseNumber text = .error .tooLarge ↔ Overflows text := by
  by_cases hne : text ≠ [] ∧ text ≠ ['+']
  · obtain ⟨body, hbody⟩ := exists_isBody hne.1 hne.2
    rw [hbody.parseNumber_eq, map_eq_error_iff, hbody.overflows_iff, parseDigits_eq_tooLarge_iff (by decide)]
  · refine iff_of_false ?_ fun h => hne h.ne
    obtain ⟨-, hparse⟩ | ⟨-, hparse⟩ := parseNumber_of_no_digits hne
    · simp [hparse]
    · simp [hparse]

lemma parseNumber_eq_empty_iff : parseNumber text = .error .empty ↔ text = [] := by
  constructor
  · intro h
    simpa using cause_of_parseNumber h
  · rintro rfl
    rfl

lemma exists_key (hn : n < 2 ^ 128) : ∃ k : Key .wide, k.toNat = n :=
  ⟨BitVec.ofNat _ n, Nat.mod_eq_of_lt hn⟩

/-- A text that is refused, is so for the cause that comes first. -/
theorem parseNumber_eq_error_iff {cause : AddressFault} :
    parseNumber text = .error cause ↔ Refused text cause := by
  cases cause with
  | empty => exact parseNumber_eq_empty_iff
  | tooLarge => exact parseNumber_eq_tooLarge_iff
  | invalidDigit =>
    unfold Refused
    rw [← parseNumber_eq_tooLarge_iff, Ne, ← parseNumber_eq_empty_iff]
    constructor
    · intro h
      simp only [h, Except.error.injEq, reduceCtorEq, not_false_eq_true, and_true, true_and]
      intro n hn
      by_cases hlt : n < 2 ^ 128
      · obtain ⟨k, rfl⟩ := exists_key hlt
        cases h.symm.trans (parseNumber_eq_ok_iff.mpr hn)
      · cases h.symm.trans (parseNumber_eq_tooLarge_iff.mpr (hn.overflows (Nat.not_lt.mp hlt)))
    · rintro ⟨hempty, hnumber, htooLarge⟩
      cases hparse : parseNumber text with
      | ok k => exact absurd (parseNumber_eq_ok_iff.mp hparse) (hnumber k.toNat)
      | error cause =>
        cases cause with
        | empty => exact absurd hparse hempty
        | tooLarge => exact absurd hparse htooLarge
        | invalidDigit => rfl
        | tooSmall | zero => simpa using cause_of_parseNumber hparse
  | tooSmall | zero => exact iff_of_false (fun h => by simpa using cause_of_parseNumber h) not_false

lemma SpellsNumber.isAddress {k : Key .wide} (h : SpellsNumber k.toNat text) : IsAddress text :=
  ⟨k.toNat, k.isLt, h⟩

lemma IsAddress.exists_spellsNumber (h : IsAddress text) : ∃ k : Key .wide, SpellsNumber k.toNat text := by
  obtain ⟨n, hn, htext⟩ := h
  obtain ⟨k, rfl⟩ := exists_key hn
  exact ⟨k, htext⟩

end IpAddress

end AddressAtlas

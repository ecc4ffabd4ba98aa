import AddressAtlas.Json.Number
import Mathlib.Data.List.Basic
import Mathlib.Data.List.TakeWhile
import Mathlib.Data.Nat.Digits.Defs
import Mathlib.Tactic.Common

/-!
# Decimal integers in JSON

`IsNatural` and `IsInteger` say which texts are integers, without a word on how they are read. The
readers take exactly these texts and yield their exact values, up to the bounds of 64 bits behind which
a number is no longer an integer.
-/

namespace AddressAtlas.Json

open Text

def digitOf (c : Char) : Nat :=
  c.toNat - '0'.toNat

/-- Digits without a leading zero, and the number that they stand for. -/
structure IsNatural (n : Nat) (s : List Char) : Prop where
  ne_nil : s ≠ []
  isDigit : ∀ c ∈ s, c.isDigit
  no_leading_zero : s.head? = some '0' → s = ['0']
  value : Nat.ofDigits 10 (s.reverse.map digitOf) = n

/-- A natural number, behind a minus sign if the integer is negative; there is no minus zero. -/
inductive IsInteger : Int → List Char → Prop
  | natural {n : Nat} {s : List Char} (h : IsNatural n s) : IsInteger n s
  | negative {n : Nat} {s : List Char} (h : IsNatural n s) (hn : 0 < n) : IsInteger (-n) ('-' :: s)

/-- No character that continues a run of digits. -/
def NoDigit (text : List Char) : Prop :=
  ∀ c ∈ text.head?, c.isDigit = false

/-- No character that continues a number. -/
def EndsNumber (text : List Char) : Prop :=
  ∀ c ∈ text.head?, c.isDigit = false ∧ c ≠ '.' ∧ c ≠ 'e' ∧ c ≠ 'E'

lemma EndsNumber.noDigit {text : List Char} (h : EndsNumber text) : NoDigit text :=
  fun c hc => (h c hc).1

lemma noDigit_cons {c : Char} (hc : c.isDigit = false) (rest : List Char) : NoDigit (c :: rest) := by
  intro d hd
  obtain rfl : c = d := Option.some.inj hd
  exact hc

lemma digitValue?_eq (c : Char) : digitValue? c = if c.isDigit then some (digitOf c) else none := by
  have hdigit : (c.isDigit = true) = ('0' ≤ c ∧ c ≤ '9') := by
    simp only [Char.isDigit, Bool.and_eq_true, decide_eq_true_eq, ge_iff_le, Char.le_def]
  unfold digitValue? digitOf
  simp only [hdigit]

lemma isDigit_eq (c : Char) : Text.isDigit c = c.isDigit := by
  unfold Text.isDigit
  rw [digitValue?_eq]
  cases c.isDigit <;> rfl

lemma filterMap_digitValue? {s : List Char} (hs : ∀ c ∈ s, c.isDigit) :
    s.filterMap digitValue? = s.map digitOf := by
  rw [← List.filterMap_eq_map]
  apply List.filterMap_congr
  intro c hc
  rw [digitValue?_eq, if_pos (hs c hc), Function.comp_apply]

lemma takeDigits_append {s rest : List Char} (hs : ∀ c ∈ s, c.isDigit) (hrest : NoDigit rest) :
    takeDigits (s ++ rest) = (s.map digitOf, rest) := by
  have htake : (s ++ rest).takeWhile Text.isDigit = s ∧ (s ++ rest).dropWhile Text.isDigit = rest := by
    have hs' : ∀ c ∈ s, Text.isDigit c = true := fun c hc => (isDigit_eq c).trans (hs c hc)
    rw [List.takeWhile_append_of_pos hs', List.dropWhile_append_of_pos hs']
    cases rest with
    | nil => simp
    | cons c rest =>
      have hc : Text.isDigit c = false := (isDigit_eq c).trans (hrest c rfl)
      simp [hc]
  rw [takeDigits, htake.1, htake.2, filterMap_digitValue? hs]

lemma exists_takeDigits_eq (text : List Char) : ∃ s rest, text = s ++ rest ∧ (∀ c ∈ s, c.isDigit) ∧
    NoDigit rest ∧ takeDigits text = (s.map digitOf, rest) := by
  have hs : ∀ c ∈ text.takeWhile Text.isDigit, c.isDigit := by
    intro c hc
    rw [← isDigit_eq]
    exact List.mem_takeWhile_imp hc
  have hrest : NoDigit (text.dropWhile Text.isDigit) := by
    intro c hc
    have hhead := List.head?_dropWhile_not Text.isDigit text
    rw [Option.mem_def.mp hc] at hhead
    exact (isDigit_eq c).symm.trans hhead
  refine ⟨text.takeWhile Text.isDigit, text.dropWhile Text.isDigit, ?_, hs, hrest, ?_⟩
  · exact (List.takeWhile_append_dropWhile).symm
  · rw [takeDigits, filterMap_digitValue? hs]

lemma digitsValue_map_digitOf (s : List Char) :
    digitsValue 0 (s.map digitOf) = Nat.ofDigits 10 (s.reverse.map digitOf) := by
  rw [digitsValue, Nat.ofDigits_eq_foldr, List.map_reverse, List.foldr_reverse]
  congr 1
  funext n d
  exact Nat.add_comm _ _

lemma eq_zero_of_digitOf_eq_zero {c : Char} (hc : c.isDigit) (h : digitOf c = 0) : c = '0' := by
  have hle : ('0' : Char).toNat ≤ c.toNat := by
    simp only [Char.isDigit, Bool.and_eq_true, decide_eq_true_eq, ge_iff_le] at hc
    exact hc.1
  have heq : c.toNat = ('0' : Char).toNat := by
    unfold digitOf at h
    omega
  exact Char.toNat_inj.mp heq

lemma IsNatural.of_digits {s : List Char} (hs : ∀ c ∈ s, c.isDigit) (hne : s ≠ [])
    (hlead : ∀ d ds, s.map digitOf ≠ 0 :: d :: ds) : IsNatural (digitsValue 0 (s.map digitOf)) s where
  ne_nil := hne
  isDigit := hs
  no_leading_zero := by
    intro hhead
    cases s with
    | nil => exact absurd rfl hne
    | cons c rest =>
      obtain rfl : c = '0' := by simpa using hhead
      cases rest with
      | nil => rfl
      | cons d rest => exact absurd rfl (hlead (digitOf d) (rest.map digitOf))
  value := (digitsValue_map_digitOf s).symm

lemma IsNatural.map_digitOf_ne {n : Nat} {s : List Char} (h : IsNatural n s) (d : Nat) (ds : List Nat) :
    s.map digitOf ≠ 0 :: d :: ds := by
  intro hmap
  cases s with
  | nil => cases hmap
  | cons c rest =>
    obtain ⟨hzero, hrest⟩ := List.cons.inj hmap
    obtain rfl : c = '0' := eq_zero_of_digitOf_eq_zero (h.isDigit c List.mem_cons_self) hzero
    obtain rfl : rest = [] := by simpa using h.no_leading_zero rfl
    cases hrest

lemma IsNatural.exists_cons {n : Nat} {s : List Char} (h : IsNatural n s) :
    ∃ c t, s = c :: t ∧ c.isDigit := by
  obtain ⟨c, t, rfl⟩ := List.exists_cons_of_ne_nil h.ne_nil
  exact ⟨c, t, rfl, h.isDigit c List.mem_cons_self⟩

lemma IsInteger.exists_cons {n : Int} {s : List Char} (h : IsInteger n s) :
    ∃ c t, s = c :: t ∧ (c = '-' ∨ c.isDigit) := by
  cases h with
  | natural h =>
    obtain ⟨c, t, rfl, hc⟩ := h.exists_cons
    exact ⟨c, t, rfl, .inr hc⟩
  | negative h hn => exact ⟨'-', _, rfl, .inl rfl⟩

lemma IsInteger.isNatural {n : Int} {s : List Char} (h : IsInteger n s) (hn : 0 ≤ n) :
    IsNatural n.toNat s := by
  cases h with
  | natural h => exact h
  | negative h hpos => omega

lemma IsNatural.digitsValue_eq {n : Nat} {s : List Char} (h : IsNatural n s) :
    digitsValue 0 (s.map digitOf) = n :=
  (digitsValue_map_digitOf s).trans h.value

/-- Of two texts of numbers with no digit behind them, equal ones stand for equal numbers. -/
lemma IsNatural.append_inj {n m : Nat} {s t rest rest' : List Char} (hs : IsNatural n s) (ht : IsNatural m t)
    (hrest : NoDigit rest) (hrest' : NoDigit rest') (h : s ++ rest = t ++ rest') : n = m ∧ rest = rest' := by
  have htake := takeDigits_append hs.isDigit hrest
  rw [h, takeDigits_append ht.isDigit hrest'] at htake
  obtain ⟨hdigits, rfl⟩ := Prod.mk.inj htake
  exact ⟨by rw [← hs.digitsValue_eq, ← hdigits, ht.digitsValue_eq], rfl⟩

lemma IsNatural.append_ne_minus {n : Nat} {s : List Char} (hs : IsNatural n s) (rest tail : List Char) :
    s ++ rest ≠ '-' :: tail := by
  obtain ⟨c, t, rfl, hc⟩ := hs.exists_cons
  rintro h
  obtain rfl : c = '-' := (List.cons.inj h).1
  cases hc

lemma IsInteger.append_inj {n m : Int} {s t rest rest' : List Char} (hs : IsInteger n s) (ht : IsInteger m t)
    (hrest : NoDigit rest) (hrest' : NoDigit rest') (h : s ++ rest = t ++ rest') : n = m ∧ rest = rest' := by
  cases hs with
  | natural hs =>
    cases ht with
    | natural ht =>
      obtain ⟨rfl, htail⟩ := hs.append_inj ht hrest hrest' h
      exact ⟨rfl, htail⟩
    | negative ht => exact absurd h (hs.append_ne_minus rest _)
  | negative hs =>
    cases ht with
    | natural ht => exact absurd h.symm (ht.append_ne_minus rest' _)
    | negative ht =>
      obtain ⟨rfl, htail⟩ := hs.append_inj ht hrest hrest' (List.cons.inj h).2
      exact ⟨rfl, htail⟩

variable {δ : Type}

lemma readDigits_append {s rest : List Char} (hne : s ≠ []) (hs : ∀ c ∈ s, c.isDigit)
    (hrest : NoDigit rest) : (readDigits (s ++ rest) : Reading δ _) = .ok (s.map digitOf, rest) := by
  have htake := takeDigits_append hs hrest
  have hmap : s.map digitOf ≠ [] := by simpa using hne
  unfold readDigits
  split
  · rename_i h
    rw [htake] at h
    exact absurd (Prod.mk.inj h).1 hmap
  · rename_i h
    rw [htake] at h
    exact absurd (Prod.mk.inj h).1 hmap
  · rw [htake]

lemma readDigits_eq_ok {text rest : List Char} {ds : List Nat}
    (h : (readDigits text : Reading δ _) = .ok (ds, rest)) :
    ∃ s, text = s ++ rest ∧ s ≠ [] ∧ (∀ c ∈ s, c.isDigit) ∧ ds = s.map digitOf := by
  obtain ⟨s, tail, htext, hs, -, htake⟩ := exists_takeDigits_eq text
  unfold readDigits at h
  split at h
  · cases h
  · cases h
  · rename_i hne
    rw [htake] at h hne
    obtain ⟨rfl, rfl⟩ := Prod.mk.inj (Except.ok.inj h)
    refine ⟨s, htext, ?_, hs, rfl⟩
    rintro rfl
    exact hne tail rfl

lemma readScale_ne_integer {negative : Bool} {whole fraction : List Nat} {text rest : List Char}
    {n : Int} : (readScale negative whole fraction text : Reading δ _) ≠ .ok (.integer n, rest) := by
  have hfloating : ∀ exponent tail,
      (floating negative whole fraction exponent >>= fun x => pure (x, tail) : Reading δ _) ≠
        .ok (.integer n, rest) := by
    intro exponent tail h
    obtain ⟨x, hx, h⟩ := bind_eq_ok.mp h
    obtain ⟨rfl, -⟩ := Prod.mk.inj (Except.ok.inj h)
    rcases ite_eq_iff.mp hx with ⟨-, hx⟩ | ⟨-, hx⟩
    · cases hx
    · cases hx
  intro h
  unfold readScale at h
  simp only at h
  split at h
  · obtain ⟨⟨exponent, tail⟩, -, h⟩ := bind_eq_ok.mp h
    exact hfloating exponent tail h
  · obtain ⟨⟨exponent, tail⟩, -, h⟩ := bind_eq_ok.mp h
    exact hfloating exponent tail h
  · exact hfloating 0 text h

lemma readUnsigned_eq_ok {negative : Bool} {text rest : List Char} {n : Int}
    (h : (readUnsigned negative text : Reading δ _) = .ok (.integer n, rest)) :
    ∃ s m, text = s ++ rest ∧ IsNatural m s ∧ integer? negative m = some n := by
  unfold readUnsigned at h
  obtain ⟨⟨whole, tail⟩, hdigits, h⟩ := bind_eq_ok.mp h
  obtain ⟨s, rfl, hne, hs, rfl⟩ := readDigits_eq_ok hdigits
  simp only at h
  split at h
  · cases h
  · obtain ⟨_, -, h⟩ := bind_eq_ok.mp h
    exact absurd h readScale_ne_integer
  · exact absurd h readScale_ne_integer
  · exact absurd h readScale_ne_integer
  · rename_i hlead _
    split at h
    · rename_i value hvalue
      obtain ⟨hn, rfl⟩ := Prod.mk.inj (Except.ok.inj h)
      obtain rfl : value = n := by simpa using hn
      exact ⟨s, _, rfl, IsNatural.of_digits hs hne hlead, hvalue⟩
    · exact absurd h readScale_ne_integer

lemma readUnsigned_append {negative : Bool} {m : Nat} {n : Int} {s rest : List Char}
    (hs : IsNatural m s) (hn : integer? negative m = some n) (hrest : EndsNumber rest) :
    (readUnsigned negative (s ++ rest) : Reading δ _) = .ok (.integer n, rest) := by
  have hdigits : (readDigits (s ++ rest) : Reading δ _) = .ok (s.map digitOf, rest) :=
    readDigits_append hs.ne_nil hs.isDigit hrest.noDigit
  unfold readUnsigned
  rw [hdigits]
  refine bind_eq_ok.mpr ⟨_, rfl, ?_⟩
  simp only
  split
  · rename_i hlead
    exact absurd hlead (hs.map_digitOf_ne _ _)
  · exact absurd rfl (hrest '.' rfl).2.1
  · exact absurd rfl (hrest 'e' rfl).2.2.1
  · exact absurd rfl (hrest 'E' rfl).2.2.2
  · rw [hs.digitsValue_eq, hn]

/-- The bounds within which a number without point and exponent is read as an integer. -/
def Fits (n : Int) : Prop :=
  -greatestNegated ≤ n ∧ n ≤ greatestInteger

lemma integer?_natural {n : Nat} (h : Fits n) : integer? false n = some (n : Int) := by
  have hle : ¬greatestInteger < n := by
    have := h.2
    omega
  rw [integer?, if_neg (by decide), if_neg hle]

lemma integer?_negative {n : Nat} (hpos : 0 < n) (h : Fits (-n)) : integer? true n = some (-n : Int) := by
  have hle : ¬(n = 0 ∨ greatestNegated < n) := by
    have := h.1
    omega
  rw [integer?, if_pos rfl, if_neg hle]

/-- A text that is read as an integer starts with the integer. -/
theorem readNumber_eq_ok {text rest : List Char} {n : Int}
    (h : (readNumber text : Reading δ _) = .ok (.integer n, rest)) :
    ∃ s, text = s ++ rest ∧ IsInteger n s := by
  unfold readNumber at h
  split at h
  · obtain ⟨s, m, rfl, hm, hn⟩ := readUnsigned_eq_ok h
    rw [integer?, if_pos rfl] at hn
    split at hn
    · cases hn
    · rename_i hbounds
      obtain rfl : -(m : Int) = n := by simpa using hn
      exact ⟨'-' :: s, rfl, .negative hm (by omega)⟩
  · obtain ⟨s, m, rfl, hm, hn⟩ := readUnsigned_eq_ok h
    rw [integer?, if_neg (by decide)] at hn
    split at hn
    · cases hn
    · obtain rfl : (m : Int) = n := by simpa using hn
      exact ⟨s, rfl, .natural hm⟩

/-- An integer within 64 bits is read, whatever follows that does not go on with it. -/
theorem readNumber_append {n : Int} {s rest : List Char} (hs : IsInteger n s) (hn : Fits n)
    (hrest : EndsNumber rest) : (readNumber (s ++ rest) : Reading δ _) = .ok (.integer n, rest) := by
  cases hs with
  | natural hm =>
    have hunsigned : (readUnsigned false (s ++ rest) : Reading δ _) = _ :=
      readUnsigned_append hm (integer?_natural hn) hrest
    unfold readNumber
    split
    · rename_i tail htail
      obtain ⟨c, t, rfl, hc⟩ := hm.exists_cons
      obtain rfl : c = '-' := (List.cons.inj htail).1
      cases hc
    · exact hunsigned
  | negative hm hpos => exact readUnsigned_append hm (integer?_negative hpos hn) hrest

end AddressAtlas.Json

import AddressAtlas.Proofs.NearestRounding

/-!
# Exact values of floating point numbers

The fields of a number name its exact value, unless it is infinite or no number. The machine order of
numbers is that of their values, with the infinities at its ends. A number in canonical form is packed
into 64 bits without loss, so that an operation may be judged by the unpacked number it yields.
-/

namespace AddressAtlas.Binary64

open Float.Model Float.Model.UnpackedFloat

/-- The exact value of a finite number. -/
def value? : Binary64 → Option ℚ
  | finite negative significand exponent => some (valueOf negative significand exponent)
  | nan | infinite _ => none

def ofUnpacked : UnpackedFloat → Binary64
  | .notANumber => .nan
  | .infinity s => .infinite (s == .negative)
  | .zero s => .finite (s == .negative) 0 leastExponent
  | .finite s m e _ => .finite (s == .negative) m e

lemma ofUnpacked_finite (s : Sign) (m : ℕ) (e : ℤ) (hm : 0 < m) :
    ofUnpacked (.finite s m e hm) = .finite (s == .negative) m e :=
  rfl

lemma ofUnpacked_zero (s : Sign) : ofUnpacked (.zero s) = .finite (s == .negative) 0 leastExponent :=
  rfl

section Fields

variable (b : BitVec 64)

lemma toNat_unpackMantissa :
    (@unpackMantissa .binary64 b).toNat = b.toNat % leadingBit := by
  unfold unpackMantissa leadingBit
  rw [BitVec.toNat_cast, BitVec.extractLsb_toNat]
  simp

lemma toNat_unpackExponent :
    (@unpackExponent .binary64 b).toNat = b.toNat / leadingBit % 2048 := by
  unfold unpackExponent leadingBit
  rw [BitVec.toNat_cast, BitVec.extractLsb_toNat]
  simp [Nat.shiftRight_eq_div_pow]

lemma toNat_unpackSign :
    (@unpackSign .binary64 b).toNat = b.toNat / leadingBit / 2048 := by
  unfold unpackSign leadingBit
  rw [BitVec.toNat_cast, BitVec.extractLsb_toNat]
  have := b.isLt
  simp [Nat.shiftRight_eq_div_pow]
  omega

end Fields

lemma toNat_one_append (m : BitVec 52) : (1#1 ++ m).toNat = m.toNat + leadingBit := by
  rw [BitVec.toNat_append, Nat.or_comm, Nat.shiftLeft_eq, BitVec.toNat_ofNat]
  have := Nat.or_two_pow_eq_add_of_lt m.isLt
  simpa [leadingBit] using this

lemma ofBitVec_beq_negative (s : BitVec 1) : (Sign.ofBitVec s == .negative) = decide (s.toNat = 1) := by
  revert s
  decide

lemma eq_zero_iff_toNat {n : ℕ} (b : BitVec n) : b = 0#n ↔ b.toNat = 0 := by
  rw [← BitVec.toNat_inj, BitVec.toNat_zero]

lemma eq_neg_one_iff_toNat (e : BitVec 11) : e = -1#11 ↔ e.toNat = 2047 := by
  rw [← BitVec.toNat_inj]
  rfl

lemma finite_congr {s : Sign} {m n : ℕ} {e f : ℤ} {hm : 0 < m} {hn : 0 < n} (hmn : m = n) (hef : e = f) :
    UnpackedFloat.finite s m e hm = .finite s n f hn := by
  subst hmn hef
  rfl

/-- What the fields of a word make of it. -/
lemma unpack_cases (b : BitVec 64) :
    let fraction := b.toNat % leadingBit
    let biased := b.toNat / leadingBit % 2048
    let sign := Sign.ofBitVec (@unpackSign .binary64 b)
    let unpacked := UnpackedFloat.unpack Format.binary64 b
    biased = 2047 ∧ fraction = 0 ∧ unpacked = .infinity sign ∨
      biased = 2047 ∧ fraction ≠ 0 ∧ unpacked = .notANumber ∨
      biased = 0 ∧ fraction = 0 ∧ unpacked = .zero sign ∨
      biased = 0 ∧ (∃ h, unpacked = .finite sign fraction leastExponent h) ∨
      biased ≠ 2047 ∧ biased ≠ 0 ∧
        ∃ h, unpacked = .finite sign (fraction + leadingBit) (leastExponent + (biased - 1)) h := by
  have hbias : (Format.binary64.exponentBias : ℤ) = 1023 := rfl
  intro fraction biased sign unpacked
  have hm : (@unpackMantissa .binary64 b).toNat = fraction := toNat_unpackMantissa b
  have he : (@unpackExponent .binary64 b).toNat = biased := toNat_unpackExponent b
  have hunpacked : UnpackedFloat.unpack Format.binary64 b = unpacked := rfl
  have hmax : @unpackExponent .binary64 b = -1#11 ↔ biased = 2047 := by rw [eq_neg_one_iff_toNat, he]
  have hleast : @unpackExponent .binary64 b = 0#11 ↔ biased = 0 := by rw [eq_zero_iff_toNat, he]
  have hzero : @unpackMantissa .binary64 b = 0#52 ↔ fraction = 0 := by rw [eq_zero_iff_toNat, hm]
  unfold UnpackedFloat.unpack at hunpacked
  dsimp only at hunpacked
  by_cases h1 : @unpackExponent .binary64 b = -1#11
  · rw [if_pos h1] at hunpacked
    by_cases h2 : @unpackMantissa .binary64 b = 0#52
    · exact .inl ⟨hmax.mp h1, hzero.mp h2, hunpacked.symm.trans (if_pos h2)⟩
    · exact .inr (.inl ⟨hmax.mp h1, mt hzero.mpr h2, hunpacked.symm.trans (if_neg h2)⟩)
  rw [if_neg h1] at hunpacked
  by_cases h3 : @unpackExponent .binary64 b = 0#11
  · rw [if_pos h3] at hunpacked
    by_cases h4 : @unpackMantissa .binary64 b = 0#52
    · exact .inr (.inr (.inl ⟨hleast.mp h3, hzero.mp h4, hunpacked.symm.trans (dif_pos h4)⟩))
    · refine .inr (.inr (.inr (.inl ⟨hleast.mp h3, Nat.pos_of_ne_zero (mt hzero.mpr h4), ?_⟩)))
      rw [← hunpacked, dif_neg h4]
      refine finite_congr hm ?_
      rw [h3, hbias]
      rfl
  · have hmantissa := toNat_one_append (@unpackMantissa .binary64 b)
    rw [hm] at hmantissa
    have hexponent : ((@unpackExponent .binary64 b).toNat : ℤ) - ((Format.binary64.exponentBias : ℤ) + (52 : ℕ)) =
        leastExponent + (biased - 1) := by
      rw [he, hbias, leastExponent]
      push_cast
      ring
    refine .inr (.inr (.inr (.inr ⟨mt hmax.mpr h1, mt hleast.mpr h3, Nat.add_pos_right _ (by decide), ?_⟩)))
    rw [← hunpacked, if_neg h3]
    exact finite_congr hmantissa hexponent

/-- Taking a number apart gives its unpacked form. -/
lemma ofFloat_eq (x : Float) : ofFloat x = ofUnpacked x.toModel.unpack := by
  have hsign := ofBitVec_beq_negative (@unpackSign .binary64 x.toBits.toBitVec)
  rw [toNat_unpackSign] at hsign
  have hbits : x.toBits.toNat = x.toBits.toBitVec.toNat := rfl
  have hunpack : x.toModel.unpack = UnpackedFloat.unpack Format.binary64 x.toBits.toBitVec := rfl
  unfold ofFloat
  rw [hunpack, hbits]
  dsimp only
  rcases unpack_cases x.toBits.toBitVec with
    ⟨he, hm, h⟩ | ⟨he, hm, h⟩ | ⟨he, hm, h⟩ | ⟨he, hpos, h⟩ | ⟨hmax, he, hpos, h⟩
  · rw [h, if_pos he, if_pos hm, ← hsign]
    rfl
  · rw [h, if_pos he, if_neg hm]
    rfl
  · rw [h, he, if_neg (by decide), if_pos rfl, hm, ← hsign]
    rfl
  · rw [h, he, if_neg (by decide), if_pos rfl, ← hsign]
    rfl
  · rw [h, if_neg hmax, if_neg he, ← hsign]
    rfl

/-- A significand and an exponent as the format keeps them: all 53 bits are used unless the exponent is
the least one. -/
def Canonical : UnpackedFloat → Prop
  | .finite _ m e _ => m < 2 ^ 53 ∧ -1074 ≤ e ∧ e ≤ 971 ∧ (2 ^ 52 ≤ m ∨ e = -1074)
  | _ => True

lemma canonical_unpack (x : Float) : Canonical x.toModel.unpack := by
  have hunpack : x.toModel.unpack = UnpackedFloat.unpack Format.binary64 x.toBits.toBitVec := rfl
  have hlead : leadingBit = 2 ^ 52 := rfl
  have hfraction : x.toBits.toBitVec.toNat % leadingBit < 2 ^ 52 := Nat.mod_lt _ (by decide)
  rw [hunpack]
  rcases unpack_cases x.toBits.toBitVec with
    ⟨-, -, h⟩ | ⟨-, -, h⟩ | ⟨-, -, h⟩ | ⟨-, hpos, h⟩ | ⟨hmax, he, hpos, h⟩
  · rw [h]
    trivial
  · rw [h]
    trivial
  · rw [h]
    trivial
  · rw [h]
    exact ⟨by omega, le_refl _, by decide, .inr rfl⟩
  · rw [h]
    unfold Canonical leastExponent
    omega

lemma ofBitVec_unpackSign_packComponents (s : Sign) (biased : BitVec 11) (fraction : BitVec 52) :
    Sign.ofBitVec (unpackSign (packComponents Format.binary64 s biased fraction)) = s := by
  have hhighest : (s.toBitVec ++ biased ++ fraction).extractLsb' 63 1 = s.toBitVec := by
    rw [BitVec.extractLsb'_append_eq_of_le (by decide), BitVec.extractLsb'_append_eq_of_le (by decide),
      BitVec.extractLsb'_eq_self]
  calc Sign.ofBitVec (unpackSign (packComponents Format.binary64 s biased fraction))
      = Sign.ofBitVec s.toBitVec := congrArg Sign.ofBitVec hhighest
    _ = s := by cases s <;> rfl

/-- What the fields of a word that is put together from them make of it. -/
lemma unpack_packComponents (s : Sign) (biased : BitVec 11) (fraction : BitVec 52) :
    let unpacked := UnpackedFloat.unpack Format.binary64 (packComponents Format.binary64 s biased fraction)
    biased.toNat = 2047 ∧ fraction.toNat = 0 ∧ unpacked = .infinity s ∨
      biased.toNat = 2047 ∧ fraction.toNat ≠ 0 ∧ unpacked = .notANumber ∨
      biased.toNat = 0 ∧ fraction.toNat = 0 ∧ unpacked = .zero s ∨
      biased.toNat = 0 ∧ (∃ h, unpacked = .finite s fraction.toNat leastExponent h) ∨
      biased.toNat ≠ 2047 ∧ biased.toNat ≠ 0 ∧
        ∃ h, unpacked = .finite s (fraction.toNat + leadingBit) (leastExponent + (biased.toNat - 1)) h := by
  have hcases := unpack_cases (packComponents Format.binary64 s biased fraction)
  have hfraction : (packComponents Format.binary64 s biased fraction).toNat % leadingBit = fraction.toNat := by
    rw [← toNat_unpackMantissa, unpackMantissa_packComponents]
  have hbiased : (packComponents Format.binary64 s biased fraction).toNat / leadingBit % 2048 = biased.toNat := by
    rw [← toNat_unpackExponent, unpackExponent_packComponents]
  dsimp only at hcases
  rwa [hfraction, hbiased, ofBitVec_unpackSign_packComponents] at hcases

lemma unpack_pack {s : Sign} {m : ℕ} {e : ℤ} {hm : 0 < m} (h : Canonical (.finite s m e hm)) :
    UnpackedFloat.unpack Format.binary64 (UnpackedFloat.pack Format.binary64 (.finite s m e hm)) =
      .finite s m e hm := by
  obtain ⟨hlt, hlow, hhigh, hnormal⟩ := h
  have hlead : leadingBit = 2 ^ 52 := rfl
  have hlog : m.log2 + 1 = 53 ↔ 2 ^ 52 ≤ m := by
    rw [← Nat.le_log2 hm.ne']
    have := (Nat.log2_lt hm.ne').mpr hlt
    omega
  have hfits : ¬2 ^ 11 ≤ (e + (1023 : ℕ) + (52 : ℕ)).toNat + 1 := by omega
  have hpack : UnpackedFloat.pack Format.binary64 (.finite s m e hm) =
      if m.log2 + 1 = 53 then
        packComponents Format.binary64 s (BitVec.ofNat 11 (e + (1023 : ℕ) + (52 : ℕ)).toNat) (BitVec.ofNat 52 m)
      else packComponents Format.binary64 s 0#11 (BitVec.ofNat 52 m) :=
    if_neg hfits
  -- Either way the fields of the word are known, and one case of five is left.
  by_cases hsize : 2 ^ 52 ≤ m
  · rw [hpack, if_pos (hlog.mpr hsize)]
    have h := unpack_packComponents s (BitVec.ofNat 11 (e + (1023 : ℕ) + (52 : ℕ)).toNat) (BitVec.ofNat 52 m)
    dsimp only at h
    rw [BitVec.toNat_ofNat, BitVec.toNat_ofNat, Nat.mod_eq_of_lt (by omega)] at h
    rcases h with ⟨he, -⟩ | ⟨he, -⟩ | ⟨he, -⟩ | ⟨he, -⟩ | ⟨-, -, hpos, h⟩
    · omega
    · omega
    · omega
    · omega
    · rw [h]
      refine finite_congr ?_ ?_
      · omega
      · unfold leastExponent
        omega
  · rw [hpack, if_neg (mt hlog.mp hsize)]
    have he : e = -1074 := hnormal.resolve_left hsize
    have h := unpack_packComponents s 0#11 (BitVec.ofNat 52 m)
    dsimp only at h
    rw [BitVec.toNat_ofNat, BitVec.toNat_ofNat, Nat.mod_eq_of_lt (Nat.lt_of_not_le hsize)] at h
    rcases h with ⟨he', -⟩ | ⟨he', -⟩ | ⟨-, hm', -⟩ | ⟨-, hpos, h⟩ | ⟨-, he', -⟩
    · cases he'
    · cases he'
    · omega
    · rw [h]
      exact finite_congr rfl he.symm
    · exact absurd rfl he'

/-- A size under a sign. -/
def signed : Sign → ℚ → ℚ
  | .negative, q => -q
  | .positive, q => q

lemma valueOf_eq (s : Sign) (m : ℕ) (e : ℤ) : valueOf (s == .negative) m e = signed s (m * 2 ^ e) := by
  have hsize : mkRat m 1 * powerOfTwo e = (m : ℚ) * 2 ^ e := by
    rw [powerOfTwo_eq, Rat.mkRat_eq_div, Nat.cast_one, div_one, Int.cast_natCast]
  unfold valueOf
  rw [hsize]
  cases s <;> rfl

lemma value?_finite (s : Sign) (m : ℕ) (e : ℤ) (hm : 0 < m) :
    (ofUnpacked (.finite s m e hm)).value? = some (signed s (m * 2 ^ e)) := by
  rw [ofUnpacked_finite, value?, valueOf_eq]

lemma value?_zero (s : Sign) : (ofUnpacked (.zero s)).value? = some 0 := by
  rw [ofUnpacked_zero, value?, valueOf_eq, Nat.cast_zero, zero_mul]
  cases s with
  | negative => exact congrArg some neg_zero
  | positive => rfl

lemma value_le_of_isLE {s t : Sign} {m n : ℕ} {e f : ℤ} {hm : 0 < m} {hn : 0 < n}
    (hx : Canonical (.finite s m e hm)) (hy : Canonical (.finite t n f hn))
    (h : ((compare e f).then (compare m n)).isLE) : (m : ℚ) * 2 ^ e ≤ n * 2 ^ f := by
  rcases lt_trichotomy e f with hlt | rfl | hgt
  · -- The number with the greater exponent uses all 53 bits, the other has no more of them.
    have hlarge : 2 ^ 52 ≤ n := hy.2.2.2.resolve_right (by have := hx.2.1; omega)
    have hm' : (m : ℚ) ≤ 2 ^ (53 : ℤ) := by exact_mod_cast hx.1.le
    have hn' : (2 : ℚ) ^ (52 : ℤ) ≤ n := by exact_mod_cast hlarge
    calc (m : ℚ) * 2 ^ e ≤ 2 ^ (53 : ℤ) * 2 ^ e := mul_le_mul_of_nonneg_right hm' (two_zpow_pos e).le
      _ = 2 ^ (53 + e) := (zpow_add₀ (by norm_num) _ _).symm
      _ ≤ 2 ^ (52 + f) := zpow_le_zpow_right₀ (by norm_num) (by omega)
      _ = 2 ^ (52 : ℤ) * 2 ^ f := zpow_add₀ (by norm_num) _ _
      _ ≤ n * 2 ^ f := mul_le_mul_of_nonneg_right hn' (two_zpow_pos f).le
  · rw [compare_eq_iff_eq.mpr rfl, Ordering.eq_then, Nat.isLE_compare] at h
    exact mul_le_mul_of_nonneg_right (Nat.cast_le.mpr h) (two_zpow_pos e).le
  · rw [compare_gt_iff_gt.mpr hgt] at h
    cases h

lemma value_le_of_le {a b : UnpackedFloat} {p q : ℚ} (ha : Canonical a) (hb : Canonical b)
    (hp : (ofUnpacked a).value? = some p) (hq : (ofUnpacked b).value? = some q) (h : a.le b) : p ≤ q := by
  have hnonneg (m : ℕ) (e : ℤ) : (0 : ℚ) ≤ m * 2 ^ e := mul_nonneg m.cast_nonneg (two_zpow_pos e).le
  cases a with
  | notANumber => cases hp
  | infinity s => cases hp
  | zero s =>
    rw [value?_zero, Option.some.injEq] at hp
    cases b with
    | notANumber => cases hq
    | infinity t => cases hq
    | zero t =>
      rw [value?_zero, Option.some.injEq] at hq
      rw [← hp, ← hq]
    | finite t n f hn =>
      rw [value?_finite, Option.some.injEq] at hq
      cases t with
      | negative => cases h
      | positive => exact hp ▸ hq ▸ hnonneg n f
  | finite s m e hm =>
    rw [value?_finite, Option.some.injEq] at hp
    cases b with
    | notANumber => cases hq
    | infinity t => cases hq
    | zero t =>
      rw [value?_zero, Option.some.injEq] at hq
      cases s with
      | negative => exact hp ▸ hq ▸ neg_nonpos.mpr (hnonneg m e)
      | positive => cases h
    | finite t n f hn =>
      rw [value?_finite, Option.some.injEq] at hq
      rw [← hp, ← hq]
      cases s with
      | negative =>
        cases t with
        | negative =>
          have hswap : ((compare f e).then (compare n m)).isLE := by
            rw [← Int.compare_swap, ← Nat.compare_swap, ← Ordering.swap_then]
            exact h
          exact neg_le_neg (value_le_of_isLE hb ha hswap)
        | positive => exact (neg_nonpos.mpr (hnonneg m e)).trans (hnonneg n f)
      | positive =>
        cases t with
        | negative => cases h
        | positive => exact value_le_of_isLE ha hb h

/-- One number is at most another only if it has no greater value, or one of them is infinite on the
outer side. -/
theorem le_cases {x y : Float} (h : x ≤ y) :
    ofFloat x = .infinite true ∨ ofFloat y = .infinite false ∨
      ∃ p q, (ofFloat x).value? = some p ∧ (ofFloat y).value? = some q ∧ p ≤ q := by
  have hx := canonical_unpack x
  have hy := canonical_unpack y
  have h : x.toModel.unpack.le y.toModel.unpack = true := of_decide_eq_true h
  rw [ofFloat_eq, ofFloat_eq]
  generalize x.toModel.unpack = a at *
  generalize y.toModel.unpack = b at *
  have hcompare : ∀ p q, (ofUnpacked a).value? = some p → (ofUnpacked b).value? = some q → p ≤ q := by
    intro p q hp hq
    exact value_le_of_le hx hy hp hq h
  cases a with
  | notANumber => cases h
  | infinity s =>
    cases s with
    | negative => exact .inl rfl
    | positive =>
      cases b with
      | infinity t =>
        cases t with
        | negative => cases h
        | positive => exact .inr (.inl rfl)
      | _ => cases h
  | _ =>
    cases b with
    | notANumber => cases h
    | infinity t =>
      cases t with
      | negative => cases h
      | positive => exact .inr (.inl rfl)
    | _ => exact .inr (.inr ⟨_, _, rfl, rfl, hcompare _ _ rfl rfl⟩)

lemma le_of_lt {x y : Float} (h : x < y) : x ≤ y := by
  have hlt : x.toModel.unpack.compare y.toModel.unpack = some .lt := eq_of_beq (of_decide_eq_true h)
  have hle : x.toModel.unpack.le y.toModel.unpack = true := by
    rw [UnpackedFloat.le, hlt]
    rfl
  exact decide_eq_true hle

lemma ofFloat_of_isNaN {x : Float} (h : x.isNaN) : ofFloat x = .nan := by
  have h : x.toModel.unpack.isNaN = true := h
  rw [ofFloat_eq]
  generalize x.toModel.unpack = a at *
  cases a with
  | notANumber => rfl
  | _ => cases h

end AddressAtlas.Binary64

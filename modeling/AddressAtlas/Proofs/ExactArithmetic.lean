import AddressAtlas.Proofs.FloatValue

/-!
# Exact arithmetic

A product, quotient or difference whose exact value has a significand of 53 bits is that value. All
operations round by shifting a significand to its target exponent, and the shift drops zeros only if the
value is representable; no operation is looked into any further.
-/

namespace AddressAtlas.Binary64

open Float.Model Float.Model.UnpackedFloat

variable {a b : UnpackedFloat} {p q : ℚ} {s : Sign} {m n : ℕ} {e f : ℤ}

lemma targetExponent_eq (T : ℤ) : Format.binary64.targetExponent T = max (T - 53) (-1074) :=
  rfl

lemma log2_mul_two_pow (hn : 0 < n) (k : ℕ) : (n * 2 ^ k).log2 = n.log2 + k := by
  rw [Nat.log2_eq_iff (by positivity)]
  have hle := Nat.mul_le_mul_right (2 ^ k) (Nat.log2_self_le hn.ne')
  have hlt := Nat.mul_lt_mul_of_pos_right (Nat.lt_log2_self (n := n)) (Nat.two_pow_pos k)
  rw [← Nat.pow_add] at hle hlt
  rw [Nat.add_right_comm]
  exact ⟨hle, hlt⟩

lemma log_mul_two_zpow (hn : 0 < n) (e : ℤ) : Int.log 2 ((n : ℚ) * 2 ^ e) = n.log2 + e := by
  have hpos : (0 : ℚ) < n * 2 ^ e := mul_pos (Nat.cast_pos.mpr hn) (two_zpow_pos e)
  have hle : (2 : ℚ) ^ ((n.log2 : ℤ) + e) ≤ n * 2 ^ e := by
    rw [zpow_add₀ (by norm_num)]
    refine mul_le_mul_of_nonneg_right ?_ (two_zpow_pos e).le
    exact_mod_cast Nat.log2_self_le hn.ne'
  have hlt : (n : ℚ) * 2 ^ e < 2 ^ ((n.log2 : ℤ) + 1 + e) := by
    rw [zpow_add₀ (by norm_num)]
    refine mul_lt_mul_of_pos_right ?_ (two_zpow_pos e)
    exact_mod_cast Nat.lt_log2_self
  have h1 := (two_zpow_le_iff hpos).mp hle
  have h2 := (lt_two_zpow_iff hpos).mp hlt
  omega

lemma cast_shifted (n k : ℕ) (e : ℤ) : ((n * 2 ^ k : ℕ) : ℚ) * 2 ^ e = n * 2 ^ (k + e) := by
  rw [Nat.cast_mul, Nat.cast_pow, Nat.cast_ofNat, mul_assoc, ← zpow_natCast, ← zpow_add₀ (by norm_num)]

lemma shiftRight_exact (n k : ℕ) :
    ExtendedMantissa.ofMantissaAndAccuracy (n * 2 ^ k) .exact >>> k = ⟨n, false, false⟩ := by
  change k.repeat ExtendedMantissa.shiftRightOne ⟨n * 2 ^ k, false, false⟩ = _
  induction k generalizing n with
  | zero => simp [Nat.repeat]
  | succ k ih =>
    have hdouble : n * 2 ^ (k + 1) = n * 2 * 2 ^ k := by
      rw [Nat.pow_succ']
      ring
    rw [Nat.repeat, hdouble, ih (n * 2)]
    simp [ExtendedMantissa.shiftRightOne]

lemma shiftToTargetExponent_exact (n k : ℕ) (e : ℤ)
    (h : Format.binary64.targetExponent (totalExponent (n * 2 ^ k) e) = e + k) :
    shiftToTargetExponent Format.binary64 (n * 2 ^ k) e .exact = (⟨n, false, false⟩, e + k) := by
  have hshift : (e + k - e).toNat = k := by omega
  unfold shiftToTargetExponent shiftToExponent
  simp only [h, hshift, shiftRight_exact]

/-- Bits that are all zero are shifted out without a trace. -/
lemma roundWithAccuracy_exact (s : Sign) (hn : 0 < n) (k : ℕ) (e : ℤ)
    (h : max ((n.log2 : ℤ) + k + e - 52) (-1074) = e + k) :
    roundWithAccuracy Format.binary64 s (n * 2 ^ k) e .exact = .finite s n (e + k) hn := by
  have hfirst : Format.binary64.targetExponent (totalExponent (n * 2 ^ k) e) = e + k := by
    rw [targetExponent_eq, totalExponent, log2_mul_two_pow hn]
    push_cast
    omega
  have hsecond := shiftToTargetExponent_exact n 0 (e + k) (by
    rw [targetExponent_eq, totalExponent, pow_zero, mul_one]
    omega)
  rw [pow_zero, mul_one, Nat.cast_zero, add_zero] at hsecond
  unfold roundWithAccuracy
  rw [shiftToTargetExponent_exact n k e hfirst]
  change (let (final, exponent) := shiftToTargetExponent Format.binary64 n (e + k) .exact
    if h : final.mantissa = 0 then UnpackedFloat.zero s
      else .finite s final.mantissa exponent (Nat.pos_of_ne_zero h)) = _
  rw [hsecond]
  exact dif_neg hn.ne'

/-- A finite number in canonical form, and its value. -/
def Denotes (a : UnpackedFloat) (q : ℚ) : Prop :=
  Canonical a ∧ (ofUnpacked a).value? = some q

lemma denotes_zero (s : Sign) : Denotes (.zero s) 0 :=
  ⟨trivial, value?_zero s⟩

lemma denotes_finite {hm : 0 < m} (h : Canonical (.finite s m e hm)) :
    Denotes (.finite s m e hm) (signed s (m * 2 ^ e)) :=
  ⟨h, value?_finite s m e hm⟩

lemma Representable.neg (h : Representable q) : Representable (-q) := by
  obtain ⟨n, e, hn, hlow, hhigh, rfl⟩ := h
  refine ⟨-n, e, by rwa [abs_neg], hlow, hhigh, ?_⟩
  rw [Int.cast_neg, neg_mul]

lemma Representable.of_signed (h : Representable (signed s q)) : Representable q := by
  cases s with
  | negative => exact neg_neg q ▸ h.neg
  | positive => exact h

/-- A positive representable number has a positive significand that fits. -/
lemma Representable.exists_significand (hq : 0 < q) (h : Representable q) :
    ∃ (n : ℕ) (f : ℤ), 0 < n ∧ n.log2 < 53 ∧ -1074 ≤ f ∧ f ≤ 971 ∧ q = n * 2 ^ f := by
  obtain ⟨n, f, hn, hlow, hhigh, rfl⟩ := h
  have hpos : 0 < n := by exact_mod_cast pos_of_mul_pos_left hq (two_zpow_pos f).le
  obtain ⟨n, rfl⟩ := Int.eq_ofNat_of_zero_le hpos.le
  refine ⟨n, f, by omega, ?_, hlow, hhigh, by rw [Int.cast_natCast]⟩
  rw [Nat.log2_lt (by omega)]
  rw [abs_of_nonneg hpos.le] at hn
  exact_mod_cast hn

/-- A positive representable number with any significand has one that fits a multiple of two away. -/
lemma Representable.exists_shift (hm : 0 < m) (h : Representable (m * 2 ^ e))
    (he : e ≤ max ((m.log2 : ℤ) + e - 52) (-1074)) :
    ∃ n k : ℕ, 0 < n ∧ m = n * 2 ^ k ∧ e + k ≤ 971 ∧ max ((m.log2 : ℤ) + e - 52) (-1074) = e + k := by
  obtain ⟨n, f, hn, hbits, hlow, hhigh, hvalue⟩ :=
    h.exists_significand (mul_pos (Nat.cast_pos.mpr hm) (two_zpow_pos e))
  have hlog : (m.log2 : ℤ) + e = n.log2 + f := by
    rw [← log_mul_two_zpow hm, hvalue, log_mul_two_zpow hn]
  obtain ⟨k, hk⟩ := Int.eq_ofNat_of_zero_le (sub_nonneg.mpr he)
  obtain ⟨d, hd⟩ : ∃ d : ℕ, f - (e + k) = d := Int.eq_ofNat_of_zero_le (by omega)
  refine ⟨n * 2 ^ d, k, by positivity, ?_, by omega, by omega⟩
  have hexponent : f = (d + k : ℕ) + e := by omega
  rw [hexponent, zpow_add₀ (by norm_num), ← mul_assoc, mul_right_cancel_iff_of_pos (two_zpow_pos e)] at hvalue
  rw [mul_assoc, ← pow_add]
  exact_mod_cast hvalue

theorem denotes_roundWithAccuracy (s : Sign) (hm : 0 < m) (h : Representable (m * 2 ^ e))
    (he : e ≤ max ((m.log2 : ℤ) + e - 52) (-1074)) :
    Denotes (roundWithAccuracy Format.binary64 s m e .exact) (signed s (m * 2 ^ e)) := by
  obtain ⟨n, k, hn, rfl, hhigh, ht⟩ := h.exists_shift hm he
  rw [log2_mul_two_pow hn, Nat.cast_add] at ht
  have hvalue : ((n * 2 ^ k : ℕ) : ℚ) * 2 ^ e = n * 2 ^ (e + k) := by
    rw [cast_shifted, add_comm]
  rw [roundWithAccuracy_exact s hn k e ht, hvalue]
  refine denotes_finite ⟨?_, by omega, hhigh, ?_⟩
  · rw [← Nat.log2_lt hn.ne']
    omega
  · rw [← Nat.le_log2 hn.ne']
    omega

theorem denotes_round (s : Sign) (hm : 0 < m) (h : Representable (m * 2 ^ e)) :
    Denotes (UnpackedFloat.round Format.binary64 s m e) (signed s (m * 2 ^ e)) := by
  obtain ⟨k, hk⟩ : ∃ k : ℕ, (e - Format.binary64.targetExponent (totalExponent m e)).toNat = k := ⟨_, rfl⟩
  have htarget : Format.binary64.targetExponent (totalExponent m e) =
      max ((m.log2 : ℤ) + e - 52) (-1074) := by
    rw [targetExponent_eq, totalExponent]
    omega
  have hvalue : ((m * 2 ^ k : ℕ) : ℚ) * 2 ^ (e - k) = m * 2 ^ e := by
    rw [cast_shifted, add_sub_cancel]
  unfold UnpackedFloat.round decreaseExponent
  simp only [hk, Nat.shiftLeft_eq]
  rw [← hvalue] at h ⊢
  refine denotes_roundWithAccuracy s (by positivity) h ?_
  rw [log2_mul_two_pow hm]
  push_cast
  omega

theorem denotes_normalize {m : ℤ} (z : Sign) (h : Representable (m * 2 ^ e)) :
    Denotes (UnpackedFloat.normalize Format.binary64 m e z) (m * 2 ^ e) := by
  unfold UnpackedFloat.normalize
  rcases lt_trichotomy m 0 with hm | rfl | hm
  · obtain ⟨n, hn⟩ := Int.eq_ofNat_of_zero_le (neg_nonneg.mpr hm.le)
    obtain rfl : m = -n := by omega
    rw [Int.compare_eq_lt.mpr hm, neg_neg, Int.toNat_natCast]
    rw [Int.cast_neg, Int.cast_natCast, neg_mul] at h ⊢
    exact denotes_round .negative (by omega) (neg_neg ((n : ℚ) * 2 ^ e) ▸ h.neg)
  · rw [Int.compare_eq_eq.mpr rfl, Int.cast_zero, zero_mul]
    exact denotes_zero z
  · obtain ⟨n, rfl⟩ := Int.eq_ofNat_of_zero_le hm.le
    rw [Int.compare_eq_gt.mpr hm, Int.toNat_natCast]
    exact denotes_round .positive (by omega) h

theorem denotes_ofNat (n : ℕ) (h : Representable n) : Denotes (UnpackedFloat.ofNat Format.binary64 n) n := by
  have hone : ((n : ℤ) : ℚ) * 2 ^ (0 : ℤ) = n := by rw [zpow_zero, mul_one, Int.cast_natCast]
  rw [← hone] at h ⊢
  exact denotes_normalize .positive h

lemma signed_mul (s t : Sign) (p q : ℚ) : signed (s * t) (p * q) = signed s p * signed t q := by
  cases s with
  | negative =>
    cases t with
    | negative => exact (neg_mul_neg p q).symm
    | positive => exact (neg_mul p q).symm
  | positive =>
    cases t with
    | negative => exact (mul_neg p q).symm
    | positive => rfl

lemma signed_div (s t : Sign) (p q : ℚ) : signed (s / t) (p / q) = signed s p / signed t q := by
  cases s with
  | negative =>
    cases t with
    | negative => exact (neg_div_neg_eq p q).symm
    | positive => exact (neg_div q p).symm
  | positive =>
    cases t with
    | negative => exact (div_neg p).symm
    | positive => rfl

/-- Only zeros and finite unpacked numbers denote a value. -/
lemma Denotes.cases (h : Denotes a p) :
    (∃ s, a = .zero s ∧ p = 0) ∨ ∃ s m e hm, a = .finite s m e hm ∧ p = signed s (m * 2 ^ e) := by
  obtain ⟨-, hvalue⟩ := h
  cases a with
  | notANumber => cases hvalue
  | infinity s => cases hvalue
  | zero s =>
    rw [value?_zero, Option.some.injEq] at hvalue
    exact .inl ⟨s, rfl, hvalue.symm⟩
  | finite s m e hm =>
    rw [value?_finite, Option.some.injEq] at hvalue
    exact .inr ⟨s, m, e, hm, rfl, hvalue.symm⟩

theorem Denotes.mul (ha : Denotes a p) (hb : Denotes b q) (h : Representable (p * q)) :
    Denotes (UnpackedFloat.mul Format.binary64 a b) (p * q) := by
  rcases ha.cases with ⟨s, rfl, rfl⟩ | ⟨s, m, e, hm, rfl, rfl⟩
  · rw [zero_mul]
    rcases hb.cases with ⟨t, rfl, -⟩ | ⟨t, n, f, hn, rfl, -⟩
    · exact denotes_zero _
    · exact denotes_zero _
  · rcases hb.cases with ⟨t, rfl, rfl⟩ | ⟨t, n, f, hn, rfl, rfl⟩
    · rw [mul_zero]
      exact denotes_zero _
    · have hvalue : (m : ℚ) * 2 ^ e * (n * 2 ^ f) = ((m * n : ℕ) : ℚ) * 2 ^ (e + f) := by
        rw [zpow_add₀ (by norm_num), Nat.cast_mul]
        ring
      rw [← signed_mul, hvalue] at h ⊢
      refine denotes_roundWithAccuracy (s * t) (Nat.mul_pos hm hn) h.of_signed ?_
      -- A product has 53 bits if one factor has them; otherwise its exponent is far below the least one.
      obtain ⟨⟨-, -, -, hsizeA⟩, -⟩ := ha
      obtain ⟨⟨-, -, -, hsizeB⟩, -⟩ := hb
      by_cases hbits : 2 ^ 52 ≤ m * n
      · have hlog := (Nat.le_log2 (Nat.mul_pos hm hn).ne').mpr hbits
        omega
      · have hmle : m ≤ m * n := Nat.le_mul_of_pos_right m hn
        have hnle : n ≤ m * n := Nat.le_mul_of_pos_left n hm
        omega

lemma signed_neg (s : Sign) (q : ℚ) : signed (-s) q = -signed s q := by
  cases s with
  | negative => exact (neg_neg q).symm
  | positive => rfl

/-- A significand is shifted to a smaller exponent without loss. -/
lemma apply_decreaseExponent (s : Sign) (m : ℕ) {e t : ℤ} (h : t ≤ e) :
    (s.apply (decreaseExponent m e t).1 : ℤ) * (2 : ℚ) ^ t = signed s (m * 2 ^ e) := by
  obtain ⟨k, hk⟩ := Int.eq_ofNat_of_zero_le (sub_nonneg.mpr h)
  have hvalue : ((m * 2 ^ k : ℕ) : ℚ) * 2 ^ t = m * 2 ^ e := by
    rw [cast_shifted, ← hk, sub_add_cancel]
  unfold decreaseExponent
  simp only [hk, Int.toNat_natCast, Nat.shiftLeft_eq]
  rw [← hvalue]
  cases s with
  | negative => rw [Sign.apply, signed, Int.cast_neg, Int.cast_natCast, neg_mul]
  | positive => rfl

theorem Denotes.sub (ha : Denotes a p) (hb : Denotes b q) (h : Representable (p - q)) :
    Denotes (UnpackedFloat.sub Format.binary64 a b) (p - q) := by
  rcases ha.cases with ⟨s, rfl, rfl⟩ | ⟨s, m, e, hm, rfl, rfl⟩
  · rw [zero_sub]
    rcases hb.cases with ⟨t, rfl, rfl⟩ | ⟨t, n, f, hn, rfl, rfl⟩
    · rw [neg_zero]
      cases s <;> cases t <;> exact denotes_zero _
    · rw [← signed_neg]
      exact denotes_finite hb.1
  · rcases hb.cases with ⟨t, rfl, rfl⟩ | ⟨t, n, f, hn, rfl, rfl⟩
    · rw [sub_zero]
      exact ha
    · have hvalue := sub_mul ((s.apply (decreaseExponent m e (min e f)).1 : ℤ) : ℚ)
        (t.apply (decreaseExponent n f (min e f)).1 : ℤ) (2 ^ min e f)
      rw [apply_decreaseExponent s m (min_le_left e f), apply_decreaseExponent t n (min_le_right e f),
        ← Int.cast_sub] at hvalue
      rw [← hvalue] at h ⊢
      exact denotes_normalize .positive h

/-- The division of significands leaves no rest if the quotient is representable. -/
lemma divCore_exact (hm : 0 < m) (hn : 0 < n) (h : Representable (m * 2 ^ e / (n * 2 ^ f))) :
    ∃ k t, divCore Format.binary64 m e n f = (k, t, .exact) ∧ 0 < k ∧
      (k : ℚ) * 2 ^ t = m * 2 ^ e / (n * 2 ^ f) ∧ t ≤ max ((k.log2 : ℤ) + t - 52) (-1074) := by
  have hmpos : (0 : ℚ) < m * 2 ^ e := mul_pos (Nat.cast_pos.mpr hm) (two_zpow_pos e)
  have hnpos : (0 : ℚ) < n * 2 ^ f := mul_pos (Nat.cast_pos.mpr hn) (two_zpow_pos f)
  obtain ⟨r, g, hr, hbits, hlow, -, hvalue⟩ := h.exists_significand (div_pos hmpos hnpos)
  have hproduct : (m : ℚ) * 2 ^ e = r * 2 ^ g * (n * 2 ^ f) := by
    rw [← hvalue, div_mul_cancel₀ _ hnpos.ne']
  have hlog : (m.log2 : ℤ) + e - (n.log2 + f) ≤ r.log2 + g + 1 := by
    have hjoined : (m : ℚ) * 2 ^ e = (r * n : ℕ) * 2 ^ (g + f) := by
      rw [hproduct, zpow_add₀ (by norm_num), Nat.cast_mul]
      ring
    have hequal := congrArg (Int.log 2) hjoined
    rw [log_mul_two_zpow hm, log_mul_two_zpow (Nat.mul_pos hr hn)] at hequal
    have hfactors : (r * n).log2 < r.log2 + 1 + (n.log2 + 1) := by
      rw [Nat.log2_lt (Nat.mul_pos hr hn).ne', pow_add]
      exact Nat.mul_lt_mul'' Nat.lt_log2_self Nat.lt_log2_self
    omega
  obtain ⟨t, ht⟩ : ∃ t, t = min (e - f)
      (Format.binary64.targetExponent (totalExponent m e - totalExponent n f)) := ⟨_, rfl⟩
  have htarget : t ≤ max ((r.log2 : ℤ) + g - 52) (-1074) := by
    rw [ht, targetExponent_eq, totalExponent, totalExponent]
    omega
  obtain ⟨d, hd⟩ : ∃ d : ℕ, e - f - t = d := Int.eq_ofNat_of_zero_le (by omega)
  obtain ⟨c, hc⟩ : ∃ c : ℕ, g - t = c := Int.eq_ofNat_of_zero_le (by omega)
  have hdvd : m * 2 ^ d = n * (r * 2 ^ c) := by
    have he : e = d + (t + f) := by omega
    have hg : g = c + t := by omega
    have hcast : ((m * 2 ^ d : ℕ) : ℚ) * 2 ^ (t + f) = (n * (r * 2 ^ c) : ℕ) * 2 ^ (t + f) := by
      rw [he, hg, zpow_add₀ (by norm_num), zpow_add₀ (by norm_num) (c : ℤ), zpow_natCast,
        zpow_natCast] at hproduct
      push_cast
      rw [mul_assoc, hproduct, zpow_add₀ (by norm_num)]
      ring
    exact_mod_cast mul_right_cancel₀ (two_zpow_pos (t + f)).ne' hcast
  have hk : (r * 2 ^ c : ℕ) * (2 : ℚ) ^ t = r * 2 ^ g := by
    rw [cast_shifted, ← hc, sub_add_cancel]
  refine ⟨r * 2 ^ c, t, ?_, by positivity, hk.trans hvalue.symm, ?_⟩
  · unfold divCore
    simp only [← ht, hd, Int.toNat_natCast, Nat.shiftLeft_eq, hdvd]
    rw [Nat.mul_div_cancel_left _ hn, Nat.mul_mod_right]
    rfl
  · rw [log2_mul_two_pow hr]
    omega

theorem Denotes.div (ha : Denotes a p) (hb : Denotes b q) (hq : q ≠ 0) (h : Representable (p / q)) :
    Denotes (UnpackedFloat.div Format.binary64 a b) (p / q) := by
  rcases hb.cases with ⟨t, rfl, rfl⟩ | ⟨t, n, f, hn, rfl, rfl⟩
  · exact absurd rfl hq
  · rcases ha.cases with ⟨s, rfl, rfl⟩ | ⟨s, m, e, hm, rfl, rfl⟩
    · rw [zero_div]
      exact denotes_zero _
    · rw [← signed_div] at h ⊢
      obtain ⟨k, u, hcore, hk, hvalue, hu⟩ := divCore_exact hm hn h.of_signed
      unfold UnpackedFloat.div
      simp only [hcore]
      rw [← hvalue] at h ⊢
      exact denotes_roundWithAccuracy (s / t) hk h.of_signed hu

lemma unpack_toModel_pack (h : Denotes a q) : (Float.Model.pack a).unpack = a := by
  rcases h.cases with ⟨s, rfl, -⟩ | ⟨s, m, e, hm, rfl, -⟩
  · cases s with
    | negative => rfl
    | positive => rfl
  · exact unpack_pack h.1

/-- A number of 64 bits with a value. -/
def Holds (x : Float) (q : ℚ) : Prop :=
  (ofFloat x).value? = some q

lemma holds_iff {x : Float} : Holds x q ↔ Denotes x.toModel.unpack q := by
  unfold Holds Denotes
  rw [ofFloat_eq]
  exact (and_iff_right (canonical_unpack x)).symm

lemma Denotes.holds (h : Denotes a q) : Holds (.ofModel (.pack a)) q :=
  holds_iff.mpr ((unpack_toModel_pack h).symm ▸ h)

section Operations

variable {x y : Float}

/-- The operations yield the exact result if it is representable. -/
theorem Holds.mul (hx : Holds x p) (hy : Holds y q) (h : Representable (p * q)) : Holds (x * y) (p * q) :=
  ((holds_iff.mp hx).mul (holds_iff.mp hy) h).holds

@[inherit_doc Holds.mul]
theorem Holds.sub (hx : Holds x p) (hy : Holds y q) (h : Representable (p - q)) : Holds (x - y) (p - q) :=
  ((holds_iff.mp hx).sub (holds_iff.mp hy) h).holds

@[inherit_doc Holds.mul]
theorem Holds.div (hx : Holds x p) (hy : Holds y q) (hq : q ≠ 0) (h : Representable (p / q)) :
    Holds (x / y) (p / q) :=
  ((holds_iff.mp hx).div (holds_iff.mp hy) hq h).holds

theorem holds_toFloat (n : UInt32) : Holds n.toFloat n.toNat := by
  refine (denotes_ofNat n.toNat ⟨n.toNat, 0, ?_, by decide, by decide, ?_⟩).holds
  · have := n.toNat_lt
    rw [abs_of_nonneg (by omega)]
    omega
  · rw [zpow_zero, mul_one, Int.cast_natCast]

end Operations

end AddressAtlas.Binary64

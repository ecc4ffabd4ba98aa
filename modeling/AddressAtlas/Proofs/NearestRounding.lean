import AddressAtlas.Binary64.Basic
import Mathlib.Algebra.Order.Floor.Ring
import Mathlib.Data.Int.Log
import Mathlib.Data.Rat.Floor
import Mathlib.Tactic.Linarith
import Mathlib.Tactic.NormNum
import Mathlib.Tactic.Ring

/-!
# Rounding to 53 bits

`roundRat` leaves a number alone whose significand fits into 53 bits and keeps the order of all others.
Both follow from the same two facts about `nearest`, the rounding to integers: a number is first scaled
by a power of two that depends on its binade alone.
-/

namespace AddressAtlas.Binary64

variable {x y p q : ℚ}

/-- The integer nearest to a number; of two the even one. -/
def nearest (q : ℚ) : ℤ :=
  nearestQuotient q.num q.den

/-- The integer above is nearer, or as near and even. -/
def RoundsUp (q : ℚ) : Prop :=
  1 / 2 < Int.fract q ∨ Int.fract q = 1 / 2 ∧ ⌊q⌋ % 2 = 1

lemma nearest_cases (q : ℚ) : RoundsUp q ∧ nearest q = ⌊q⌋ + 1 ∨ ¬RoundsUp q ∧ nearest q = ⌊q⌋ := by
  have hfloor : q.num / (q.den : ℤ) = ⌊q⌋ := Rat.floor_def q ▸ rfl
  have hden : (0 : ℚ) < q.den := by exact_mod_cast q.den_pos
  have hrest : ((2 * (q.num % q.den) : ℤ) : ℚ) = 2 * Int.fract q * (q.den : ℤ) := by
    have hsplit : ((q.den * (q.num / q.den) + q.num % q.den : ℤ) : ℚ) = q.num := by
      exact_mod_cast Int.mul_ediv_add_emod q.num q.den
    have hq : q * q.den = q.num := Rat.mul_den_eq_num q
    rw [hfloor] at hsplit
    rw [Int.fract]
    push_cast at hsplit ⊢
    linarith
  have hbelow : 2 * (q.num % q.den) < q.den ↔ Int.fract q < 1 / 2 := by
    rw [← Int.cast_lt (R := ℚ), hrest, Int.cast_natCast, mul_lt_iff_lt_one_left hden,
      lt_div_iff₀' (by norm_num)]
  have habove : (q.den : ℤ) < 2 * (q.num % q.den) ↔ 1 / 2 < Int.fract q := by
    rw [← Int.cast_lt (R := ℚ), hrest, Int.cast_natCast, lt_mul_iff_one_lt_left hden,
      div_lt_iff₀' (by norm_num)]
  unfold nearest nearestQuotient RoundsUp
  simp only [hbelow, habove, hfloor]
  rcases lt_trichotomy (Int.fract q) (1 / 2) with h | h | h
  · exact .inr ⟨by rintro (h' | ⟨h', -⟩) <;> linarith, if_pos h⟩
  · rw [if_neg h.not_lt, if_neg h.not_gt]
    by_cases heven : ⌊q⌋ % 2 = 0
    · exact .inr ⟨by rintro (h' | ⟨-, h'⟩) <;> [linarith; omega], if_pos heven⟩
    · exact .inl ⟨.inr ⟨h, by omega⟩, if_neg heven⟩
  · exact .inl ⟨.inl h, by rw [if_neg h.not_gt, if_pos h]⟩

lemma nearest_intCast (n : ℤ) : nearest n = n := by
  rcases nearest_cases n with ⟨hup, -⟩ | ⟨-, h⟩
  · unfold RoundsUp at hup
    rw [Int.fract_intCast] at hup
    norm_num at hup
  · rw [h, Int.floor_intCast]

lemma nearest_mono (h : p ≤ q) : nearest p ≤ nearest q := by
  rcases (Int.floor_le_floor h).lt_or_eq with hlt | heq
  · rcases nearest_cases p with ⟨-, hp⟩ | ⟨-, hp⟩ <;> rcases nearest_cases q with ⟨-, hq⟩ | ⟨-, hq⟩ <;> omega
  · -- Above one integer the choice between it and the next depends on the fraction alone.
    have hfract : Int.fract p ≤ Int.fract q := by
      rw [Int.fract, Int.fract, heq]
      linarith
    have hup : RoundsUp p → RoundsUp q := by
      rintro (hp | ⟨hp, hodd⟩)
      · exact .inl (hp.trans_le hfract)
      · rcases hfract.lt_or_eq with hlt | hsame
        · exact .inl (hp ▸ hlt)
        · exact .inr ⟨hsame ▸ hp, heq ▸ hodd⟩
    rcases nearest_cases p with ⟨hp, hp'⟩ | ⟨-, hp'⟩
    · rcases nearest_cases q with ⟨-, hq'⟩ | ⟨hq, -⟩
      · omega
      · exact absurd (hup hp) hq
    · rcases nearest_cases q with ⟨-, hq'⟩ | ⟨-, hq'⟩ <;> omega

lemma nearest_neg (q : ℚ) : nearest (-q) = -nearest q := by
  by_cases hq : Int.fract q = 0
  · obtain ⟨n, rfl⟩ := Int.fract_eq_zero_iff.mp hq
    rw [← Int.cast_neg, nearest_intCast, nearest_intCast]
  · have hfract : Int.fract (-q) = 1 - Int.fract q := Int.fract_neg hq
    have hfloor : ⌊-q⌋ = -⌊q⌋ - 1 := by
      have hsum := Int.floor_add_fract (-q)
      have hsum' := Int.floor_add_fract q
      have hcast : ((⌊-q⌋ : ℤ) : ℚ) = ((-⌊q⌋ - 1 : ℤ) : ℚ) := by
        push_cast
        linarith
      exact Int.cast_injective hcast
    have hup : RoundsUp (-q) ↔ ¬RoundsUp q := by
      unfold RoundsUp
      rw [hfract, hfloor]
      rcases lt_trichotomy (Int.fract q) (1 / 2) with h | h | h
      · exact iff_of_true (.inl (by linarith)) (by rintro (h' | ⟨h', -⟩) <;> linarith)
      · rw [h]
        norm_num
        omega
      · exact iff_of_false (by rintro (h' | ⟨h', -⟩) <;> linarith) (not_not.mpr (.inl h))
    rcases nearest_cases q with ⟨hq', hq⟩ | ⟨hq', hq⟩
    · rcases nearest_cases (-q) with ⟨hneg, -⟩ | ⟨-, hneg⟩
      · exact absurd hq' (hup.mp hneg)
      · omega
    · rcases nearest_cases (-q) with ⟨-, hneg⟩ | ⟨hneg, -⟩
      · omega
      · exact absurd (hup.mpr hq') hneg

lemma powerOfTwo_eq (e : ℤ) : powerOfTwo e = (2 : ℚ) ^ e := by
  cases e with
  | ofNat n => simp [powerOfTwo, Rat.mkRat_eq_div]
  | negSucc n => simp [powerOfTwo, Rat.mkRat_eq_div]

lemma two_zpow_pos (e : ℤ) : (0 : ℚ) < 2 ^ e :=
  zpow_pos (by norm_num) e

lemma two_zpow_le_iff {e : ℤ} (hx : 0 < x) : (2 : ℚ) ^ e ≤ x ↔ e ≤ Int.log 2 x := by
  exact_mod_cast Int.zpow_le_iff_le_log (b := 2) (by norm_num) hx

lemma lt_two_zpow_iff {e : ℤ} (hx : 0 < x) : x < (2 : ℚ) ^ e ↔ Int.log 2 x < e := by
  rw [← not_le, two_zpow_le_iff hx, not_le]

lemma binade_eq (hx : x ≠ 0) : binade x = Int.log 2 |x| := by
  have hnum : x.num.natAbs ≠ 0 := Int.natAbs_ne_zero.mpr (Rat.num_ne_zero.mpr hx)
  have hpos : 0 < |x| := abs_pos.mpr hx
  have hden : (0 : ℚ) < x.den := by exact_mod_cast x.den_pos
  have habs : mkRat x.num.natAbs x.den = |x| := by
    rw [Rat.mkRat_eq_div, Rat.abs_def, Rat.divInt_eq_div]
    rfl
  have hquot : |x| * x.den = x.num.natAbs := by
    rw [← habs, Rat.mkRat_eq_div, Int.cast_natCast]
    exact div_mul_cancel₀ _ hden.ne'
  have hguess : (x.num.natAbs.log2 : ℤ) - x.den.log2 - 1 ≤ Int.log 2 |x| ∧
      Int.log 2 |x| < (x.num.natAbs.log2 : ℤ) - x.den.log2 + 1 := by
    have hnumLe : (2 : ℚ) ^ (x.num.natAbs.log2 : ℤ) ≤ x.num.natAbs := by
      exact_mod_cast Nat.log2_self_le hnum
    have hnumLt : (x.num.natAbs : ℚ) < 2 ^ ((x.num.natAbs.log2 : ℤ) + 1) := by
      exact_mod_cast Nat.lt_log2_self
    have hdenLe : (2 : ℚ) ^ (x.den.log2 : ℤ) ≤ x.den := by
      exact_mod_cast Nat.log2_self_le x.den_ne_zero
    have hdenLt : (x.den : ℚ) < 2 ^ ((x.den.log2 : ℤ) + 1) := by
      exact_mod_cast Nat.lt_log2_self
    generalize (x.num.natAbs.log2 : ℤ) = a at *
    generalize (x.den.log2 : ℤ) = b at *
    constructor
    · rw [← two_zpow_le_iff hpos, ← mul_le_mul_iff_left₀ hden, hquot]
      have hsplit : (2 : ℚ) ^ a = 2 ^ (a - b - 1) * 2 ^ (b + 1) := by
        rw [← zpow_add₀ (by norm_num)]
        ring_nf
      exact (mul_le_mul_of_nonneg_left hdenLt.le (two_zpow_pos _).le).trans (hsplit ▸ hnumLe)
    · rw [← lt_two_zpow_iff hpos, ← mul_lt_mul_iff_left₀ hden, hquot]
      have hsplit : (2 : ℚ) ^ (a + 1) = 2 ^ (a - b + 1) * 2 ^ b := by
        rw [← zpow_add₀ (by norm_num)]
        ring_nf
      exact (hsplit ▸ hnumLt).trans_le (mul_le_mul_of_nonneg_left hdenLe (two_zpow_pos _).le)
  unfold binade
  simp only [habs, powerOfTwo_eq, two_zpow_le_iff hpos]
  split_ifs <;> omega

lemma roundRat_eq (hx : x ≠ 0) :
    roundRat x = nearest (x * 2 ^ (52 - Int.log 2 |x|)) * 2 ^ (Int.log 2 |x| - 52) := by
  unfold roundRat
  simp only [if_neg hx, binade_eq hx, powerOfTwo_eq, neg_sub, Rat.mkRat_eq_div]
  rw [Nat.cast_one, div_one]
  rfl

@[simp] lemma roundRat_zero : roundRat 0 = 0 :=
  rfl

lemma roundRat_neg (x : ℚ) : roundRat (-x) = -roundRat x := by
  by_cases hx : x = 0
  · rw [hx, neg_zero, roundRat_zero, neg_zero]
  · rw [roundRat_eq hx, roundRat_eq (neg_ne_zero.mpr hx), abs_neg, neg_mul, nearest_neg, Int.cast_neg,
      neg_mul]

lemma roundRat_pos_bounds (hx : 0 < x) :
    2 ^ Int.log 2 x ≤ roundRat x ∧ roundRat x ≤ 2 ^ (Int.log 2 x + 1) := by
  have hunit : (0 : ℚ) < 2 ^ (Int.log 2 x - 52) := two_zpow_pos _
  have hend (n : ℕ) (e : ℤ) (hn : (n : ℤ) = 52 + e) :
      (2 : ℚ) ^ (Int.log 2 x + e) = ((2 ^ n : ℤ) : ℚ) * 2 ^ (Int.log 2 x - 52) ∧
        (2 : ℚ) ^ (Int.log 2 x + e) * 2 ^ (52 - Int.log 2 x) = ((2 ^ n : ℤ) : ℚ) := by
    push_cast
    rw [← zpow_natCast, hn, ← zpow_add₀ (by norm_num), ← zpow_add₀ (by norm_num)]
    constructor <;> ring_nf
  have hlow : 2 ^ (Int.log 2 x + 0) ≤ x := (two_zpow_le_iff hx).mpr (by omega)
  have hhigh : x ≤ 2 ^ (Int.log 2 x + 1) := ((lt_two_zpow_iff hx).mpr (by omega)).le
  have hscale : (0 : ℚ) ≤ 2 ^ (52 - Int.log 2 x) := (two_zpow_pos _).le
  rw [roundRat_eq hx.ne', abs_of_pos hx]
  constructor
  · obtain ⟨hvalue, hscaled⟩ := hend 52 0 rfl
    have hnearest := nearest_mono (hscaled ▸ mul_le_mul_of_nonneg_right hlow hscale)
    rw [nearest_intCast] at hnearest
    rw [add_zero] at hvalue
    rw [hvalue]
    exact mul_le_mul_of_nonneg_right (Int.cast_le.mpr hnearest) hunit.le
  · obtain ⟨hvalue, hscaled⟩ := hend 53 1 rfl
    have hnearest := nearest_mono (hscaled ▸ mul_le_mul_of_nonneg_right hhigh hscale)
    rw [nearest_intCast] at hnearest
    rw [hvalue]
    exact mul_le_mul_of_nonneg_right (Int.cast_le.mpr hnearest) hunit.le

lemma roundRat_pos (hx : 0 < x) : 0 < roundRat x :=
  (two_zpow_pos _).trans_le (roundRat_pos_bounds hx).1

lemma roundRat_mono_of_pos (hx : 0 < x) (h : x ≤ y) : roundRat x ≤ roundRat y := by
  have hy : 0 < y := hx.trans_le h
  rcases (Int.log_mono_right (b := 2) hx h).lt_or_eq with hlt | heq
  · -- Numbers of different binades stay on their sides of the power of two between them.
    calc roundRat x ≤ 2 ^ (Int.log 2 x + 1) := (roundRat_pos_bounds hx).2
      _ ≤ 2 ^ Int.log 2 y := zpow_le_zpow_right₀ (by norm_num) (by omega)
      _ ≤ roundRat y := (roundRat_pos_bounds hy).1
  · rw [roundRat_eq hx.ne', roundRat_eq hy.ne', abs_of_pos hx, abs_of_pos hy, heq]
    have hscaled := mul_le_mul_of_nonneg_right h (two_zpow_pos (52 - Int.log 2 y)).le
    exact mul_le_mul_of_nonneg_right (Int.cast_le.mpr (nearest_mono hscaled)) (two_zpow_pos _).le

/-- Rounding keeps the order. -/
theorem roundRat_mono (h : x ≤ y) : roundRat x ≤ roundRat y := by
  rcases lt_trichotomy 0 x with hx | rfl | hx
  · exact roundRat_mono_of_pos hx h
  · rcases h.lt_or_eq with hy | rfl
    · exact (roundRat_pos hy).le
    · exact le_rfl
  · have hneg := roundRat_pos (neg_pos.mpr hx)
    rw [roundRat_neg] at hneg
    rcases lt_trichotomy 0 y with hy | rfl | hy
    · have hpos := roundRat_pos hy
      linarith
    · rw [roundRat_zero]
      linarith
    · have hflip := roundRat_mono_of_pos (neg_pos.mpr hy) (neg_le_neg h)
      rw [roundRat_neg, roundRat_neg] at hflip
      exact neg_le_neg_iff.mp hflip

/-- The number is one of those of 64 bits: its significand has at most 53, and its exponent is in range. -/
def Representable (q : ℚ) : Prop :=
  ∃ n e : ℤ, |n| < 2 ^ 53 ∧ -1074 ≤ e ∧ e ≤ 971 ∧ q = n * 2 ^ e

/-- Rounding leaves representable numbers alone. -/
theorem roundRat_of_representable (h : Representable q) : roundRat q = q := by
  obtain ⟨n, e, hn, -, -, rfl⟩ := h
  by_cases hzero : n = 0
  · rw [hzero, Int.cast_zero, zero_mul, roundRat_zero]
  · have hsize : |(n : ℚ) * 2 ^ e| = |(n : ℚ)| * 2 ^ e := by rw [abs_mul, abs_of_pos (two_zpow_pos e)]
    have hpos : 0 < |(n : ℚ) * 2 ^ e| :=
      abs_pos.mpr (mul_ne_zero (Int.cast_ne_zero.mpr hzero) (two_zpow_pos e).ne')
    have hlog : Int.log 2 |(n : ℚ) * 2 ^ e| < 53 + e := by
      rw [← lt_two_zpow_iff hpos, hsize, zpow_add₀ (by norm_num)]
      have hcast : |(n : ℚ)| < 2 ^ (53 : ℤ) := by exact_mod_cast hn
      exact mul_lt_mul_of_pos_right hcast (two_zpow_pos e)
    -- The unit of the binade divides the number, which is an integer when scaled.
    obtain ⟨k, hk⟩ : ∃ k : ℕ, e + (52 - Int.log 2 |(n : ℚ) * 2 ^ e|) = k :=
      Int.eq_ofNat_of_zero_le (by omega)
    have hscaled : (n : ℚ) * 2 ^ e * 2 ^ (52 - Int.log 2 |(n : ℚ) * 2 ^ e|) = ((n * 2 ^ k : ℤ) : ℚ) := by
      rw [mul_assoc, ← zpow_add₀ (by norm_num), hk]
      push_cast
      rw [zpow_natCast]
    rw [roundRat_eq (abs_pos.mp hpos), hscaled, nearest_intCast, ← hscaled, mul_assoc,
      ← zpow_add₀ (by norm_num), sub_add_sub_cancel, sub_self, zpow_zero, mul_one]

end AddressAtlas.Binary64

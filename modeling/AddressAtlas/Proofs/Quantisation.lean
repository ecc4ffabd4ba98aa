import AddressAtlas.Geo.Degrees
import AddressAtlas.Proofs.ExactArithmetic

/-!
# Quantised degrees

The angles at which steps start form a grid. On the grid all arithmetic is exact, so that a step starts at
an angle that falls on the step again. What lies between two angles of the grid is left to the order, which
every operation keeps: an angle falls on the step before it or on one of its neighbours.
-/

namespace AddressAtlas.Degrees

open Binary64

variable {x y : Float} {p q v : ℚ}

/-- The angle at which step `k` starts. -/
def gridAngle (k : ℕ) : ℚ :=
  k * 360 / 2048 - 180

/-- The numbers that occur on the way from step `k` to its angle, and on the way back. -/
def intermediates (k : ℕ) : List ℚ :=
  [k, k * 360, k * 360 / 2048, gridAngle k, gridAngle k + 180, (gridAngle k + 180) / 360,
    (gridAngle k + 180) / 360 * 2048]

lemma representable_of_mul_eq {n : ℤ} (h : q * 2048 = n) (hlow : -2 ^ 53 < n) (hhigh : n < 2 ^ 53) :
    Representable q := by
  refine ⟨n, -11, abs_lt.mpr ⟨hlow, hhigh⟩, by decide, by decide, ?_⟩
  rw [← h, mul_assoc]
  norm_num

/-- Nothing is rounded on the grid. -/
theorem representable_intermediates {k : ℕ} (hk : k ≤ 2048) : ∀ q ∈ intermediates k, Representable q := by
  have hmul (n : ℕ) (q : ℚ) (h : q * 2048 = n) (hn : n < 2 ^ 53) : Representable q :=
    representable_of_mul_eq (n := n) (by exact_mod_cast h) (by omega) (by omega)
  unfold intermediates
  simp only [List.forall_mem_cons, List.not_mem_nil, false_imp_iff, implies_true, and_true]
  refine ⟨?_, ?_, ?_, ?_, ?_, ?_, ?_⟩
  · exact hmul (k * 2048) _ (by push_cast; ring) (by omega)
  · exact hmul (k * 360 * 2048) _ (by push_cast; ring) (by omega)
  · exact hmul (k * 360) _ (by push_cast; ring) (by omega)
  · refine representable_of_mul_eq (n := k * 360 - 368640) ?_ (by omega) (by omega)
    rw [gridAngle]
    push_cast
    ring
  · exact hmul (k * 360) _ (by rw [gridAngle]; push_cast; ring) (by omega)
  · exact hmul k _ (by rw [gridAngle]; ring) (by omega)
  · exact hmul (k * 2048) _ (by rw [gridAngle]; push_cast; ring) (by omega)

lemma scaled_gridAngle {k : ℕ} (hk : k ≤ 2048) : scaled (gridAngle k) = k := by
  obtain ⟨-, -, -, -, hshifted, hturns, hsteps⟩ :
      Representable k ∧ Representable (k * 360) ∧ Representable (k * 360 / 2048) ∧
        Representable (gridAngle k) ∧ Representable (gridAngle k + 180) ∧
        Representable ((gridAngle k + 180) / 360) ∧ Representable ((gridAngle k + 180) / 360 * 2048) := by
    simpa [intermediates] using representable_intermediates hk
  unfold scaled
  simp only [roundRat_of_representable hshifted, roundRat_of_representable hturns,
    roundRat_of_representable hsteps]
  rw [gridAngle]
  ring

lemma scaled_mono (h : p ≤ q) : scaled p ≤ scaled q := by
  have hshifted := roundRat_mono (add_le_add_left h 180)
  have hturns := roundRat_mono (div_le_div_of_nonneg_right hshifted (by norm_num : (0 : ℚ) ≤ 360))
  exact roundRat_mono (mul_le_mul_of_nonneg_right hturns (by norm_num))

lemma toNat_clampStep (q : ℚ) : (clampStep q).toNat = min ⌊q⌋.toNat 2047 := by
  unfold clampStep
  rw [BitVec.toNat_ofNat, Nat.mod_eq_of_lt (by omega)]
  rfl

lemma clampStep_mono (h : p ≤ q) : clampStep p ≤ clampStep q := by
  have hfloor := Int.floor_le_floor h
  rw [BitVec.le_def, toNat_clampStep, toNat_clampStep]
  omega

lemma clampStep_natCast (k : ℕ) : (clampStep k).toNat = min k 2047 := by
  rw [toNat_clampStep, Int.floor_natCast, Int.toNat_natCast]

lemma quantise_of_holds (h : Holds x v) : quantise x = clampStep (scaled v) := by
  unfold quantise
  unfold Holds at h
  split
  · rename_i hx
    rw [hx] at h
    cases h
  · rename_i hx
    rw [hx] at h
    cases h
  · rename_i hx
    rw [hx] at h
    cases h
  · rename_i negative significand exponent hx
    rw [hx] at h
    rw [Option.some.inj h]

theorem quantise_mono (h : x ≤ y) : quantise x ≤ quantise y := by
  rcases le_cases h with hx | hy | ⟨p, q, hp, hq, hpq⟩
  · have hzero : quantise x = 0 := by
      unfold quantise
      rw [hx]
    rw [hzero]
    exact Nat.zero_le _
  · have hlast : quantise y = 2047 := by
      unfold quantise
      rw [hy]
    rw [hlast, BitVec.le_def]
    have := (quantise x).isLt
    exact Nat.le_of_lt_succ this
  · rw [quantise_of_holds hp, quantise_of_holds hq]
    exact clampStep_mono (scaled_mono hpq)

lemma holds_of_ofFloat {s : Float.Model.UnpackedFloat.Sign} {m : ℕ} {e : ℤ}
    (h : ofFloat x = .finite (s == .negative) m e) : Holds x (signed s (m * 2 ^ e)) := by
  unfold Holds
  rw [h, value?, valueOf_eq]

lemma holds_circle : Holds 360.0 360 := by
  have h : Holds 360.0 (signed .positive _) := holds_of_ofFloat (m := 360 * 2 ^ 44) (e := -44) rfl
  norm_num [signed] at h
  exact h

lemma holds_steps : Holds 2048.0 2048 := by
  have h : Holds 2048.0 (signed .positive _) := holds_of_ofFloat (m := 2 ^ 52) (e := -41) rfl
  norm_num [signed] at h
  exact h

lemma holds_half : Holds 180.0 180 := by
  have h : Holds 180.0 (signed .positive _) := holds_of_ofFloat (m := 180 * 2 ^ 45) (e := -45) rfl
  norm_num [signed] at h
  exact h

lemma holds_neg_half : Holds (-180.0) (-180) := by
  have h : Holds (-180.0) (signed .negative _) := holds_of_ofFloat (m := 180 * 2 ^ 45) (e := -45) rfl
  norm_num [signed] at h
  exact h

theorem holds_ofStep (step : Step) : Holds (ofStep step) (gridAngle step.toNat) := by
  obtain ⟨-, hmultiple, hquotient, hangle, -⟩ :
      Representable step.toNat ∧ Representable (step.toNat * 360) ∧ Representable (step.toNat * 360 / 2048) ∧
        Representable (gridAngle step.toNat) ∧ _ := by
    simpa [intermediates] using representable_intermediates (Nat.le_of_lt step.isLt)
  have hstep : Holds step.toNat.toUInt32.toFloat step.toNat := by
    have h := holds_toFloat step.toNat.toUInt32
    rwa [Nat.toUInt32, UInt32.toNat_ofNat', Nat.mod_eq_of_lt (by omega)] at h
  exact ((hstep.mul holds_circle hmultiple).div holds_steps (by norm_num) hquotient).sub holds_half hangle

/-- The start of a step falls on the step. -/
theorem quantise_ofStep (step : Step) : quantise (ofStep step) = step := by
  have hlt := step.isLt
  apply BitVec.eq_of_toNat_eq
  rw [quantise_of_holds (holds_ofStep step), scaled_gridAngle (by omega), clampStep_natCast]
  omega

/-- What packing leaves of an angle. -/
def restored (degrees : Float) : Float :=
  ofStep (quantise degrees)

lemma gridAngle_succ (k : ℕ) : gridAngle (k + 1) = gridAngle k + 360 / 2048 := by
  unfold gridAngle
  push_cast
  ring

lemma step_le_of_le_gridAngle {k : ℕ} (hk : k ≤ 2048) (h : v ≤ gridAngle k) :
    (clampStep (scaled v)).toNat ≤ min k 2047 := by
  have hstep := BitVec.le_def.mp (clampStep_mono (scaled_mono h))
  rwa [scaled_gridAngle hk, clampStep_natCast] at hstep

lemma le_step_of_gridAngle_le {k : ℕ} (hk : k ≤ 2048) (h : gridAngle k ≤ v) :
    min k 2047 ≤ (clampStep (scaled v)).toNat := by
  have hstep := BitVec.le_def.mp (clampStep_mono (scaled_mono h))
  rwa [scaled_gridAngle hk, clampStep_natCast] at hstep

lemma holds_of_between (hlow : -180.0 ≤ x) (hhigh : x ≤ 180.0) : ∃ v, Holds x v ∧ -180 ≤ v ∧ v ≤ 180 := by
  have hleast := holds_neg_half
  have hgreatest := holds_half
  unfold Holds at hleast hgreatest ⊢
  rcases le_cases hlow with h | h | ⟨p, v, hp, hv, hle⟩
  · rw [h] at hleast
    cases hleast
  · rcases le_cases hhigh with h' | h' | ⟨v, q, hv, -, -⟩
    · cases h.symm.trans h'
    · rw [h'] at hgreatest
      cases hgreatest
    · rw [h] at hv
      cases hv
  · rcases le_cases hhigh with h' | h' | ⟨v', q, hv', hq, hle'⟩
    · rw [h'] at hv
      cases hv
    · rw [h'] at hgreatest
      cases hgreatest
    · obtain rfl := Option.some.inj (hp.symm.trans hleast)
      obtain rfl := Option.some.inj (hq.symm.trans hgreatest)
      obtain rfl := Option.some.inj (hv.symm.trans hv')
      exact ⟨v, hv, hle, hle'⟩

/-- An angle on the circle comes back at most one step away. -/
theorem restored_near (hlow : -180.0 ≤ x) (hhigh : x ≤ 180.0) :
    ∃ v w, Holds x v ∧ Holds (restored x) w ∧ |w - v| ≤ 360 / 2048 := by
  obtain ⟨v, hv, hvlow, hvhigh⟩ := holds_of_between hlow hhigh
  obtain ⟨k, hk⟩ : ∃ k, k = (clampStep (scaled v)).toNat := ⟨_, rfl⟩
  have hlt : k < 2048 := hk ▸ (clampStep (scaled v)).isLt
  have hrestored : Holds (restored x) (gridAngle k) := by
    rw [restored, quantise_of_holds hv, hk]
    exact holds_ofStep _
  refine ⟨v, gridAngle k, hv, hrestored, abs_le.mpr ⟨?_, ?_⟩⟩
  · -- An angle behind the next step would have fallen there, unless there is none.
    rcases le_or_gt v (gridAngle (k + 1)) with h | h
    · rw [gridAngle_succ] at h
      linarith
    · have hstep := le_step_of_gridAngle_le (by omega) h.le
      obtain rfl : k = 2047 := by omega
      norm_num [gridAngle] at h
      linarith
  · -- An angle before the previous step would have fallen there.
    rcases Nat.eq_zero_or_eq_succ_pred k with hzero | hsucc
    · rw [hzero, gridAngle]
      norm_num
      linarith
    · rw [hsucc, gridAngle_succ]
      rcases le_or_gt (gridAngle (k.pred)) v with h | h
      · linarith
      · have hstep := step_le_of_le_gridAngle (by omega) h.le
        omega

/-- What lies before the circle, or is no number, falls on the first step. -/
theorem quantise_eq_zero (h : x < -180.0 ∨ x.isNaN) : quantise x = 0 := by
  rcases h with hlt | hnan
  · have hle := quantise_mono (le_of_lt hlt)
    have hfirst := step_le_of_le_gridAngle (v := -180) (k := 0) (by omega) (by norm_num [gridAngle])
    rw [quantise_of_holds holds_neg_half, BitVec.le_def] at hle
    apply BitVec.eq_of_toNat_eq
    change (quantise x).toNat = 0
    omega
  · unfold quantise
    rw [ofFloat_of_isNaN hnan]

/-- What lies at the end of the circle or behind it falls on the last step. -/
theorem quantise_eq_last (h : 180.0 ≤ x) : quantise x = 2047 := by
  have hle := quantise_mono h
  have hlast := le_step_of_gridAngle_le (v := 180) (k := 2048) (by omega) (by norm_num [gridAngle])
  have hlt := (quantise x).isLt
  rw [quantise_of_holds holds_half, BitVec.le_def] at hle
  apply BitVec.eq_of_toNat_eq
  change (quantise x).toNat = 2047
  omega

end AddressAtlas.Degrees

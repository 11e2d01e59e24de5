import Mathlib

/-! # Rounding

A binary format stores the numbers `m * 2 ^ e` with a short mantissa and an exponent from its
least one up. Rounding to nearest does not step over a number of the format, so sums and products
stay below every such bound of the exact result. What stays below the first power of two that is
too large survives packing, and a larger result is packed as an infinity, not as a float that is
no number.
-/

namespace BatchAxpby.Rounding

open Float.Model (Format UnpackedFloat totalExponent)
open Float.Model.UnpackedFloat

variable {spec : Format} {q : ℚ} {u v : UnpackedFloat} {s : Sign} {m n k : ℕ} {e : ℤ}

/-- The number that a float stands for; zero if it is not finite. -/
def value : UnpackedFloat → ℚ
  | .finite s m e _ => (s.apply m : ℤ) * 2 ^ e
  | _ => 0

@[simp] theorem value_zero (s : Sign) : value (.zero s) = 0 := rfl

/-- A finite float in the form that the format stores, but for an exponent that may be too large:
the mantissa is full, or the exponent is the least one. -/
def Canonical (spec : Format) : UnpackedFloat → Prop
  | .finite _ m e _ => m < 2 ^ spec.mantissaBits ∧ spec.minExponent ≤ e ∧
      (2 ^ spec.mantissaBitsWithoutImplicit ≤ m ∨ e = spec.minExponent)
  | .zero _ => True
  | _ => False

/-- A number with a short mantissa and an exponent from the least one up. -/
def Representable (spec : Format) (q : ℚ) : Prop :=
  ∃ (m : ℕ) (e : ℤ), m < 2 ^ spec.mantissaBits ∧ spec.minExponent ≤ e ∧ q = m * 2 ^ e

/-- A finite float of the format whose size is at most `q`. -/
structure Within (spec : Format) (q : ℚ) (u : UnpackedFloat) : Prop where
  canonical : Canonical spec u
  abs_le : |value u| ≤ q

/-- A finite float that the format stores: it is below the first power of two that is too
large. -/
structure Stored (spec : Format) (u : UnpackedFloat) : Prop where
  canonical : Canonical spec u
  abs_lt : |value u| < 2 ^ (spec.exponentBias + 1)

abbrev packed (spec : Format) (u : UnpackedFloat) : UnpackedFloat := unpack spec (pack spec u)

theorem within_zero (s : Sign) (hq : 0 ≤ q) : Within spec q (.zero s) :=
  ⟨trivial, by simpa using hq⟩

theorem abs_value_finite (s : Sign) (e : ℤ) (hm : 0 < m) :
    |value (.finite s m e hm)| = m * 2 ^ e := by
  have hpos : (0 : ℚ) ≤ m * 2 ^ e := by positivity
  cases s with
  | positive => exact abs_of_nonneg hpos
  | negative =>
    rw [value, Sign.apply, Int.cast_neg, neg_mul, abs_neg]
    exact abs_of_nonneg hpos

theorem Canonical.representable (h : Canonical spec u) : Representable spec |value u| := by
  cases u with
  | finite s m e hm => exact ⟨m, e, h.1, h.2.1, abs_value_finite s e hm⟩
  | zero s => exact ⟨0, spec.minExponent, by positivity, le_rfl, by simp⟩
  | infinity s => exact h.elim
  | notANumber => exact h.elim

theorem pow_mantissaBits (spec : Format) :
    2 ^ spec.mantissaBits = 2 * 2 ^ spec.mantissaBitsWithoutImplicit := by
  rw [Format.mantissaBits, Nat.pow_add, Nat.pow_one]

theorem two_pow_exponentBits (spec : Format) :
    2 ^ spec.exponentBits = 2 * (spec.exponentBias + 1) := by
  have hpos : 0 < 2 ^ (spec.exponentBits - 1) := by positivity
  have hsucc : 2 ^ spec.exponentBits = 2 * 2 ^ (spec.exponentBits - 1) := by
    rw [← pow_succ', Nat.sub_add_cancel spec.he]
  rw [hsucc, Format.exponentBias]
  omega

theorem minExponent_eq (spec : Format) :
    spec.minExponent = 1 - spec.exponentBias - spec.mantissaBitsWithoutImplicit := by
  have hpos : 0 < 2 ^ (spec.exponentBits - 1) := by positivity
  have hcast : (2 : ℤ) ^ (spec.exponentBits - 1) = (2 ^ (spec.exponentBits - 1) : ℕ) := by norm_cast
  rw [Format.minExponent, Format.exponentBias, Format.mantissaBits, hcast]
  omega

theorem scaled_le {j : ℕ} : (m : ℚ) * 2 ^ e ≤ k * 2 ^ (e + j) ↔ m ≤ k * 2 ^ j := by
  rw [zpow_add₀ two_ne_zero, zpow_natCast, mul_comm ((2 : ℚ) ^ e), ← mul_assoc,
    mul_le_mul_iff_left₀ (by positivity)]
  norm_cast

abbrev shifted (m n : ℕ) : ExtendedMantissa :=
  ExtendedMantissa.ofMantissaAndAccuracy m .exact >>> n

theorem shifted_succ (m n : ℕ) : shifted m (n + 1) = (shifted m n).shiftRightOne := rfl

theorem shifted_mul (k n : ℕ) : shifted (k * 2 ^ n) n = ⟨k, false, false⟩ := by
  induction n generalizing k with
  | zero => rw [pow_zero, mul_one]; rfl
  | succ n ih =>
    rw [shifted_succ, pow_succ', ← mul_assoc, ih]
    simp [ExtendedMantissa.shiftRightOne]

theorem mantissa_shifted (m n : ℕ) : (shifted m n).mantissa = m / 2 ^ n := by
  induction n with
  | zero => rw [pow_zero, Nat.div_one]; rfl
  | succ n ih =>
    rw [shifted_succ, ExtendedMantissa.shiftRightOne, ih, Nat.div_div_eq_div_mul, pow_succ]

theorem roundedMantissa_bounds (em : ExtendedMantissa) :
    em.mantissa ≤ em.roundedMantissa ∧ em.roundedMantissa ≤ em.mantissa + 1 := by
  obtain ⟨m, _ | _, _ | _⟩ := em <;>
    simp only [ExtendedMantissa.roundedMantissa, ExtendedMantissa.accuracy,
      Accuracy.roundToNearestEven] <;>
    omega

abbrev rounded (m n : ℕ) : ℕ := (shifted m n).roundedMantissa

theorem rounded_le (h : m ≤ k * 2 ^ n) : rounded m n ≤ k := by
  rcases h.eq_or_lt with rfl | hlt
  · rw [rounded, shifted_mul]
    rfl
  · have hdiv := Nat.div_lt_of_lt_mul (hlt.trans_eq (Nat.mul_comm ..))
    have hround := (roundedMantissa_bounds (shifted m n)).2
    rw [mantissa_shifted] at hround
    exact hround.trans hdiv

theorem le_rounded (h : k * 2 ^ n ≤ m) : k ≤ rounded m n := by
  have hround := (roundedMantissa_bounds (shifted m n)).1
  rw [mantissa_shifted] at hround
  exact ((Nat.le_div_iff_mul_le (by positivity)).mpr h).trans hround

theorem shiftToTargetExponent_eq {t : ℤ}
    (h : spec.targetExponent (totalExponent m e) = t) (hn : e + n = t) :
    shiftToTargetExponent spec m e .exact = (shifted m n, t) := by
  have hshift : (t - e).toNat = n := by omega
  rw [shiftToTargetExponent, h, shiftToExponent, hshift, hn]

theorem shiftToTargetExponent_of_lt (hm : m < 2 ^ spec.mantissaBits)
    (he : spec.minExponent ≤ e) :
    shiftToTargetExponent spec m e .exact = (⟨m, false, false⟩, e) := by
  have hlog : m.log2 < spec.mantissaBits := by
    by_cases h : m = 0
    · rw [h, Nat.log2_zero, Format.mantissaBits]
      omega
    · exact (Nat.log2_lt h).mpr hm
  have hshift : (spec.targetExponent (totalExponent m e) - e).toNat = 0 := by
    rw [Format.targetExponent, totalExponent]
    omega
  rw [shiftToTargetExponent, shiftToExponent, hshift]
  exact Prod.ext rfl (add_zero e)

theorem shiftToTargetExponent_carry (he : spec.minExponent ≤ e) :
    shiftToTargetExponent spec (2 ^ spec.mantissaBits) e .exact =
      (⟨2 ^ spec.mantissaBitsWithoutImplicit, false, false⟩, e + 1) := by
  have htarget : spec.targetExponent (totalExponent (2 ^ spec.mantissaBits) e) = e + 1 := by
    rw [Format.targetExponent, totalExponent, Nat.log2_two_pow]
    omega
  rw [shiftToTargetExponent_eq htarget (show e + (1 : ℕ) = e + 1 from rfl), pow_mantissaBits,
    Nat.mul_comm]
  exact congrArg (·, e + 1) (shifted_mul _ 1)

theorem within_carry (s : Sign) (hm : m ≤ 2 ^ spec.mantissaBits) (he : spec.minExponent ≤ e)
    (hfull : m ≠ 0 → 2 ^ spec.mantissaBitsWithoutImplicit ≤ m ∨ e = spec.minExponent)
    (hle : (m : ℚ) * 2 ^ e ≤ q) :
    Within spec q
      (if h : (shiftToTargetExponent spec m e .exact).1.mantissa = 0 then .zero s
        else .finite s (shiftToTargetExponent spec m e .exact).1.mantissa
          (shiftToTargetExponent spec m e .exact).2 (Nat.pos_of_ne_zero h)) := by
  have hq : 0 ≤ q := le_trans (by positivity) hle
  rcases hm.lt_or_eq with hlt | rfl
  · rw [shiftToTargetExponent_of_lt hlt he]
    by_cases hzero : m = 0
    · simp only [hzero, ↓reduceDIte]
      exact within_zero s hq
    · simp only [hzero, ↓reduceDIte]
      exact ⟨⟨hlt, he, hfull hzero⟩, (abs_value_finite ..).trans_le hle⟩
  -- The rounded mantissa is a power of two one bit too long: one shift makes it fit, exactly.
  · have hpos : 2 ^ spec.mantissaBitsWithoutImplicit ≠ 0 := by positivity
    rw [shiftToTargetExponent_carry he]
    simp only [hpos, ↓reduceDIte]
    refine ⟨⟨?_, by omega, Or.inl le_rfl⟩, (abs_value_finite ..).trans_le ?_⟩
    · rw [pow_mantissaBits]
      omega
    · rw [pow_mantissaBits] at hle
      push_cast at hle ⊢
      rw [zpow_add₀ two_ne_zero, zpow_one]
      linarith

/-- A full mantissa is above every short one with a smaller exponent. -/
theorem lt_of_full {E : ℤ} (hk : k < 2 ^ spec.mantissaBits)
    (hm : 2 ^ spec.mantissaBitsWithoutImplicit * 2 ^ n ≤ m) (hE : E < e + n) :
    (k : ℚ) * 2 ^ E < m * 2 ^ e := by
  have hlarge : (2 : ℚ) ^ spec.mantissaBitsWithoutImplicit * 2 ^ n ≤ m := mod_cast hm
  have hsmall : (k : ℚ) < 2 * 2 ^ spec.mantissaBitsWithoutImplicit := by
    rw [pow_mantissaBits] at hk
    exact_mod_cast hk
  calc (k : ℚ) * 2 ^ E
      < 2 * 2 ^ spec.mantissaBitsWithoutImplicit * 2 ^ E := by gcongr
    _ = 2 ^ spec.mantissaBitsWithoutImplicit * 2 ^ (E + 1) := by
      rw [zpow_add₀ two_ne_zero, zpow_one]
      ring
    _ ≤ 2 ^ spec.mantissaBitsWithoutImplicit * 2 ^ (e + n) :=
      mul_le_mul_of_nonneg_left (zpow_le_zpow_right₀ one_le_two (by omega)) (by positivity)
    _ = 2 ^ spec.mantissaBitsWithoutImplicit * 2 ^ n * 2 ^ e := by
      rw [zpow_add₀ two_ne_zero, zpow_natCast]
      ring
    _ ≤ m * 2 ^ e := by gcongr

/-- Rounding does not step over a number of the format. -/
theorem within_roundWithAccuracy (s : Sign) (he : e ≤ spec.targetExponent (totalExponent m e))
    (hq : Representable spec q) (hle : (m : ℚ) * 2 ^ e ≤ q) :
    Within spec q (roundWithAccuracy spec s m e .exact) := by
  obtain ⟨k, E, hk, hE, rfl⟩ := hq
  obtain ⟨t, ht⟩ : ∃ t, spec.targetExponent (totalExponent m e) = t := ⟨_, rfl⟩
  obtain ⟨n, hn⟩ : ∃ n : ℕ, e + n = t := ⟨(t - e).toNat, by omega⟩
  have hmax : t = max (m.log2 + 1 + e - spec.mantissaBits) spec.minExponent := ht.symm
  have hshort : m ≤ 2 ^ spec.mantissaBits * 2 ^ n := by
    rw [← Nat.pow_add]
    exact (Nat.lt_log2_self.trans_le (Nat.pow_le_pow_right two_pos (by omega))).le
  -- Above the least exponent the mantissa is full.
  have hfull : m ≠ 0 → t ≠ spec.minExponent →
      2 ^ spec.mantissaBitsWithoutImplicit * 2 ^ n ≤ m := by
    intro hm hmin
    rw [← Nat.pow_add, ← Nat.le_log2 hm]
    have hbits : spec.mantissaBits = 1 + spec.mantissaBitsWithoutImplicit := rfl
    omega
  rw [roundWithAccuracy, shiftToTargetExponent_eq ht hn]
  refine within_carry s (rounded_le hshort) (by omega) ?_ ?_
  · intro hne
    by_cases hmin : t = spec.minExponent
    · exact Or.inr hmin
    · refine Or.inl (le_rounded (hfull ?_ hmin))
      rintro rfl
      exact hne (Nat.le_zero.mp (rounded_le (Nat.zero_le _)))
  · by_cases htE : t ≤ E
    · obtain ⟨j, rfl⟩ : ∃ j : ℕ, E = t + j := ⟨(E - t).toNat, by omega⟩
      refine scaled_le.mpr (rounded_le ?_)
      rw [← hn, add_assoc, ← Nat.cast_add] at hle
      rw [mul_assoc, ← pow_add, add_comm j]
      exact scaled_le.mp hle
    · by_cases hm : m = 0
      · have hzero : rounded m n = 0 := Nat.le_zero.mp (rounded_le (by omega))
        simp only [hzero, Nat.cast_zero, zero_mul]
        positivity
      · exact absurd hle (not_le.mpr (lt_of_full hk (hfull hm (by omega)) (by omega)))

theorem log2_mul_two_pow (hm : m ≠ 0) (n : ℕ) : (m * 2 ^ n).log2 = m.log2 + n := by
  have hne : m * 2 ^ n ≠ 0 := by positivity
  apply le_antisymm
  · rw [← Nat.lt_succ_iff, Nat.log2_lt hne, Nat.succ_eq_add_one, Nat.add_right_comm, Nat.pow_add]
    exact Nat.mul_lt_mul_of_pos_right Nat.lt_log2_self (by positivity)
  · rw [Nat.le_log2 hne, Nat.pow_add]
    exact Nat.mul_le_mul_right _ (Nat.log2_self_le hm)

theorem value_decreaseExponent (m : ℕ) (e t : ℤ) :
    ((decreaseExponent m e t).1 : ℚ) * 2 ^ (decreaseExponent m e t).2 = m * 2 ^ e := by
  rw [decreaseExponent, Nat.shiftLeft_eq, Nat.cast_mul, Nat.cast_pow, mul_assoc, ← zpow_natCast,
    Nat.cast_ofNat, ← zpow_add₀ two_ne_zero]
  congr 2
  omega

theorem within_round (s : Sign) (hm : m ≠ 0) (hq : Representable spec q)
    (hle : (m : ℚ) * 2 ^ e ≤ q) : Within spec q (UnpackedFloat.round spec s m e) := by
  rw [← value_decreaseExponent m e (spec.targetExponent (totalExponent m e))] at hle
  refine within_roundWithAccuracy s ?_ hq hle
  simp only [Nat.shiftLeft_eq, totalExponent, log2_mul_two_pow hm,
    Format.targetExponent]
  omega

theorem within_normalize (M e : ℤ) (zeroSign : Sign) (hq : Representable spec q)
    (hle : |(M : ℚ) * 2 ^ e| ≤ q) : Within spec q (UnpackedFloat.normalize spec M e zeroSign) := by
  have hpos : (0 : ℚ) < 2 ^ e := zpow_pos two_pos e
  rw [abs_mul, abs_of_pos hpos, ← Int.cast_abs, ← Int.natCast_natAbs, Int.cast_natCast] at hle
  rw [UnpackedFloat.normalize]
  rcases lt_trichotomy M 0 with h | rfl | h
  · rw [compare_lt_iff_lt.mpr h]
    exact within_round _ (by omega) hq (by rwa [show (-M).toNat = M.natAbs by omega])
  · exact within_zero zeroSign (by simpa using hle)
  · rw [compare_gt_iff_gt.mpr h]
    exact within_round _ (by omega) hq (by rwa [show M.toNat = M.natAbs by omega])

theorem value_roundWithAccuracy_nonneg (m : ℕ) (e : ℤ) :
    0 ≤ value (roundWithAccuracy spec .positive m e .exact) := by
  rw [roundWithAccuracy]
  dsimp only
  split_ifs
  · exact le_rfl
  · simp only [value, Sign.apply]
    positivity

theorem value_normalize_nonneg {M : ℤ} (hM : 0 ≤ M) (e : ℤ) (zeroSign : Sign) :
    0 ≤ value (UnpackedFloat.normalize spec M e zeroSign) := by
  rw [UnpackedFloat.normalize]
  rcases hM.eq_or_lt with rfl | h
  · exact le_rfl
  · rw [compare_gt_iff_gt.mpr h]
    exact value_roundWithAccuracy_nonneg ..

theorem minExponent_nonpos (spec : Format) : spec.minExponent ≤ 0 := by
  have hm := spec.hm
  rw [minExponent_eq]
  omega

theorem le_targetExponent_mul {s' : Sign} {m' : ℕ} {e' : ℤ} {hm : 0 < m} {hm' : 0 < m'}
    (hu : Canonical spec (.finite s m e hm)) (hv : Canonical spec (.finite s' m' e' hm')) :
    e + e' ≤ spec.targetExponent (totalExponent (m * m') (e + e')) := by
  have hbits : spec.mantissaBits = 1 + spec.mantissaBitsWithoutImplicit := rfl
  have hmin := minExponent_nonpos spec
  have hne : m * m' ≠ 0 := (Nat.mul_pos hm hm').ne'
  have hfull : 2 ^ spec.mantissaBitsWithoutImplicit ≤ m * m' →
      spec.mantissaBitsWithoutImplicit ≤ (m * m').log2 := (Nat.le_log2 hne).mpr
  rw [Format.targetExponent, totalExponent]
  rcases hu.2.2 with h | h
  · have := hfull (h.trans (Nat.le_mul_of_pos_right _ hm'))
    omega
  · rcases hv.2.2 with h' | h'
    · have := hfull (h'.trans (Nat.le_mul_of_pos_left _ hm))
      omega
    · omega

theorem within_mul (hu : Canonical spec u) (hv : Canonical spec v) (hq : Representable spec q)
    (hle : |value u * value v| ≤ q) : Within spec q (mul spec u v) := by
  have hnonneg : 0 ≤ q := (abs_nonneg _).trans hle
  cases u with
  | infinity => exact hu.elim
  | notANumber => exact hu.elim
  | zero s =>
    cases v with
    | infinity => exact hv.elim
    | notANumber => exact hv.elim
    | zero => exact within_zero _ hnonneg
    | finite => exact within_zero _ hnonneg
  | finite s m e hm =>
    cases v with
    | infinity => exact hv.elim
    | notANumber => exact hv.elim
    | zero => exact within_zero _ hnonneg
    | finite s' m' e' hm' =>
      rw [abs_mul, abs_value_finite, abs_value_finite] at hle
      -- Only here is anything rounded.
      refine within_roundWithAccuracy _ ?_ hq ?_
      · exact le_targetExponent_mul hu hv
      · rw [zpow_add₀ two_ne_zero]
        push_cast
        linarith

theorem value_mul_nonneg (hu : 0 ≤ value u) (hv : 0 ≤ value v) : 0 ≤ value (mul spec u v) := by
  have hsign : ∀ {s m e} {hm : 0 < m}, 0 ≤ value (.finite s m e hm) → s = .positive := by
    intro s m e hm h
    cases s with
    | positive => rfl
    | negative =>
      have hpos : (0 : ℚ) < m * 2 ^ e := by positivity
      rw [value, Sign.apply] at h
      push_cast at h
      linarith
  cases u with
  | finite s m e hm =>
    cases v with
    | finite s' m' e' hm' =>
      obtain rfl := hsign hu
      obtain rfl := hsign hv
      exact value_roundWithAccuracy_nonneg ..
    | _ => exact le_rfl
  | _ => cases v <;> exact le_rfl

theorem value_finite_eq (s : Sign) (m : ℕ) (e t : ℤ) (hm : 0 < m) (h : t ≤ e) :
    value (.finite s m e hm) = (s.apply (decreaseExponent m e t).1 : ℤ) * 2 ^ t := by
  have hvalue := value_decreaseExponent m e t
  have hexp : (decreaseExponent m e t).2 = t := by
    simp only [decreaseExponent]
    omega
  rw [hexp] at hvalue
  cases s with
  | positive => exact hvalue.symm
  | negative =>
    simp only [value, Sign.apply]
    push_cast
    linarith

theorem within_add (hu : Canonical spec u) (hv : Canonical spec v) (hq : Representable spec q)
    (hle : |value u + value v| ≤ q) : Within spec q (add spec u v) := by
  have hnonneg : 0 ≤ q := (abs_nonneg _).trans hle
  cases u with
  | infinity => exact hu.elim
  | notANumber => exact hu.elim
  | zero s =>
    cases v with
    | infinity => exact hv.elim
    | notANumber => exact hv.elim
    | zero =>
      rw [add]
      split_ifs
      · exact within_zero _ hnonneg
      · exact within_zero _ hnonneg
    | finite => exact ⟨hv, by rwa [value_zero, zero_add] at hle⟩
  | finite s m e hm =>
    cases v with
    | infinity => exact hv.elim
    | notANumber => exact hv.elim
    | zero => exact ⟨hu, by rwa [value_zero, add_zero] at hle⟩
    | finite s' m' e' hm' =>
      -- Under the smaller exponent the sum is exact, and it is rounded once.
      refine within_normalize _ _ _ hq ?_
      rwa [value_finite_eq s m e (min e e') hm (min_le_left ..),
        value_finite_eq s' m' e' (min e e') hm' (min_le_right ..), ← add_mul, ← Int.cast_add] at hle

theorem toNat_one_append {w : ℕ} (x : BitVec w) : (1#1 ++ x).toNat = 2 ^ w + x.toNat := by
  rw [BitVec.toNat_append, ← Nat.shiftLeft_add_eq_or_of_lt x.isLt, Nat.shiftLeft_eq]
  simp

theorem ofNat_ne_neg_one {w b : ℕ} (h : b + 1 < 2 ^ w) : BitVec.ofNat w b ≠ -1#w := by
  intro heq
  have := congrArg BitVec.toNat heq
  rw [BitVec.toNat_ofNat, Nat.mod_eq_of_lt (by omega), BitVec.neg_one_eq_allOnes,
    BitVec.toNat_allOnes] at this
  omega

theorem zero_ne_neg_one (spec : Format) : (0#_ : BitVec spec.exponentBits) ≠ -1#_ :=
  ofNat_ne_neg_one (by rw [two_pow_exponentBits]; omega)

theorem packed_ne_notANumber (h : u ≠ .notANumber) : packed spec u ≠ .notANumber := by
  rw [packed]
  have hzero := zero_ne_neg_one spec
  fun_cases pack spec u with
  | case1 => exact absurd rfl h
  | case2 s => simp [unpack, packedInfinity]
  | case3 s => simp
  | case4 s m e hm biased hlarge => simp [unpack, packedInfinity]
  | case5 s m e hm bits biased hlarge hfull =>
    have hexp := ofNat_ne_neg_one (not_le.mp hlarge)
    simp only [unpack, unpackExponent_packComponents, hexp, ↓reduceIte]
    split_ifs <;> rintro ⟨⟩
  | case6 s m e hm bits biased hlarge hfull =>
    simp only [unpack, unpackExponent_packComponents, hzero, ↓reduceIte]
    split_ifs <;> rintro ⟨⟩

theorem Stored.exponent_le (hbias : 0 < spec.exponentBias) {hm : 0 < m}
    (h : Stored spec (.finite s m e hm)) :
    e + spec.mantissaBitsWithoutImplicit ≤ spec.exponentBias := by
  have hlt := h.abs_lt
  rcases h.canonical.2.2 with hfull | rfl
  · rw [abs_value_finite] at hlt
    have hpow : (2 : ℚ) ^ (e + spec.mantissaBitsWithoutImplicit) <
        2 ^ ((spec.exponentBias + 1 : ℕ) : ℤ) := by
      rw [zpow_add₀ two_ne_zero, zpow_natCast, zpow_natCast, mul_comm]
      refine lt_of_le_of_lt ?_ hlt
      gcongr
      exact_mod_cast hfull
    have := (zpow_lt_zpow_iff_right₀ one_lt_two).mp hpow
    omega
  · rw [minExponent_eq]
    omega

theorem unpack_full {b : ℕ} (s : Sign) (hb : 0 < b) (hb' : b + 1 < 2 ^ spec.exponentBits)
    (hm : 0 < m) (hfull : 2 ^ spec.mantissaBitsWithoutImplicit ≤ m)
    (hshort : m < 2 ^ spec.mantissaBits) :
    unpack spec (packComponents spec s (BitVec.ofNat _ b) (BitVec.ofNat _ m)) =
      .finite s m (b - (spec.exponentBias + spec.mantissaBitsWithoutImplicit)) hm := by
  have hones := ofNat_ne_neg_one hb'
  have hbits : (BitVec.ofNat spec.exponentBits b).toNat = b := by
    rw [BitVec.toNat_ofNat, Nat.mod_eq_of_lt (by omega)]
  have hzero : BitVec.ofNat spec.exponentBits b ≠ 0#_ := by
    intro h
    rw [h, BitVec.toNat_zero] at hbits
    omega
  have hmantissa : (1#1 ++ BitVec.ofNat spec.mantissaBitsWithoutImplicit m).toNat = m := by
    rw [pow_mantissaBits] at hshort
    rw [toNat_one_append, BitVec.toNat_ofNat, Nat.mod_eq_sub_mod hfull, Nat.mod_eq_of_lt (by omega)]
    omega
  simp only [unpack, unpackExponent_packComponents, unpackMantissa_packComponents,
    unpackSign_packComponents, Sign.ofBitVec_toBitVec, hones, hzero, hmantissa, hbits, ↓reduceIte]

theorem unpack_subnormal (s : Sign) (hm : 0 < m)
    (hshort : m < 2 ^ spec.mantissaBitsWithoutImplicit) :
    unpack spec (packComponents spec s 0#_ (BitVec.ofNat _ m)) =
      .finite s m spec.minExponent hm := by
  have hones := zero_ne_neg_one spec
  have hbits : (BitVec.ofNat spec.mantissaBitsWithoutImplicit m).toNat = m := by
    rw [BitVec.toNat_ofNat, Nat.mod_eq_of_lt hshort]
  have hzero : BitVec.ofNat spec.mantissaBitsWithoutImplicit m ≠ 0#_ := by
    intro h
    rw [h, BitVec.toNat_zero] at hbits
    omega
  have hexp : ((0#_ : BitVec spec.exponentBits).toNat : ℤ) -
      (spec.exponentBias + spec.mantissaBitsWithoutImplicit) + 1 = spec.minExponent := by
    rw [minExponent_eq, BitVec.toNat_zero]
    omega
  simp only [unpack, unpackExponent_packComponents, unpackMantissa_packComponents,
    unpackSign_packComponents, Sign.ofBitVec_toBitVec, hones, hzero, hbits, hexp, ↓reduceIte,
    ↓reduceDIte]

/-- A float that the format stores is packed without loss. -/
theorem Stored.packed_eq (hbias : 0 < spec.exponentBias) (h : Stored spec u) :
    packed spec u = u := by
  cases u with
  | infinity => exact h.canonical.elim
  | notANumber => exact h.canonical.elim
  | zero s => exact unpack_packedZero
  | finite s m e hm =>
    have hle := h.exponent_le hbias
    have hbits := two_pow_exponentBits spec
    have hmin := minExponent_eq spec
    obtain ⟨hshort, he, hfull⟩ := h.canonical
    obtain ⟨b, hb⟩ : ∃ b : ℕ, e + spec.exponentBias + spec.mantissaBitsWithoutImplicit = b :=
      ⟨(e + spec.exponentBias + spec.mantissaBitsWithoutImplicit).toNat, by omega⟩
    have hsmall : ¬ 2 ^ spec.exponentBits ≤ b + 1 := by omega
    rw [packed, pack, hb, Int.toNat_natCast, if_neg hsmall]
    by_cases hnormal : 2 ^ spec.mantissaBitsWithoutImplicit ≤ m
    · have hlog : m.log2 + 1 = spec.mantissaBits := by
        have hlow := (Nat.le_log2 hm.ne').mpr hnormal
        have hhigh := (Nat.log2_lt hm.ne').mpr hshort
        rw [Format.mantissaBits] at hhigh ⊢
        omega
      rw [if_pos hlog, unpack_full s (by omega) (by omega) hm hnormal hshort]
      congr 1
      omega
    · have hlog : m.log2 + 1 ≠ spec.mantissaBits := by
        have hlow := (Nat.log2_lt hm.ne').mpr (not_le.mp hnormal)
        rw [Format.mantissaBits]
        omega
      rw [if_neg hlog, unpack_subnormal s hm (not_le.mp hnormal), hfull.resolve_left hnormal]

theorem mul_zpow_lt (hm : m < 2 ^ k) (h : k + e ≤ n) : (m : ℚ) * 2 ^ e < 2 ^ n := by
  calc (m : ℚ) * 2 ^ e
      < 2 ^ k * 2 ^ e := by
        gcongr
        exact_mod_cast hm
    _ = 2 ^ ((k : ℤ) + e) := by rw [zpow_add₀ two_ne_zero, zpow_natCast]
    _ ≤ 2 ^ (n : ℤ) := zpow_le_zpow_right₀ one_le_two h
    _ = 2 ^ n := zpow_natCast ..

/-- The finite bit patterns are what the format stores. -/
theorem stored_unpack (b : BitVec spec.numBits) (h : (unpack spec b).isFinite = true) :
    Stored spec (unpack spec b) := by
  have hbits := two_pow_exponentBits spec
  have hmin := minExponent_eq spec
  have hshort := (unpackMantissa b).isLt
  have hmax := (unpackExponent b).isLt
  rw [unpack] at h ⊢
  split_ifs at h ⊢ with hones hmant hzero hmant
  · exact absurd h Bool.false_ne_true
  · exact absurd h Bool.false_ne_true
  · exact ⟨trivial, by rw [value_zero, abs_zero]; positivity⟩
  · rw [hzero, BitVec.toNat_zero]
    refine ⟨⟨?_, by omega, Or.inr (by omega)⟩, ?_⟩
    · rw [pow_mantissaBits]
      omega
    · rw [abs_value_finite]
      exact mul_zpow_lt hshort (by omega)
  · have hpos : (unpackExponent b).toNat ≠ 0 := fun h0 => hzero (BitVec.eq_of_toNat_eq h0)
    have hlast : (unpackExponent b).toNat ≠ 2 ^ spec.exponentBits - 1 := fun h1 =>
      hones (BitVec.eq_of_toNat_eq (by rw [h1, BitVec.neg_one_eq_allOnes, BitVec.toNat_allOnes]))
    have hfull := (1#1 ++ unpackMantissa b).isLt
    refine ⟨⟨hfull, by omega, Or.inl ?_⟩, ?_⟩
    · rw [toNat_one_append]
      omega
    · rw [abs_value_finite]
      exact mul_zpow_lt hfull (by omega)

def power (spec : Format) (s : Sign) (j : ℤ) : UnpackedFloat :=
  .finite s (2 ^ spec.mantissaBitsWithoutImplicit) (j - spec.mantissaBitsWithoutImplicit)
    (by positivity)

theorem canonical_power (s : Sign) {j : ℤ} (hj : 1 - (spec.exponentBias : ℤ) ≤ j) :
    Canonical spec (power spec s j) := by
  have hpos : 0 < 2 ^ spec.mantissaBitsWithoutImplicit := by positivity
  refine ⟨?_, ?_, Or.inl le_rfl⟩
  · rw [pow_mantissaBits]
    omega
  · rw [minExponent_eq]
    omega

theorem value_power (s : Sign) (j : ℤ) : value (power spec s j) = (s.apply 1 : ℤ) * 2 ^ j := by
  have hexp : (2 : ℚ) ^ spec.mantissaBitsWithoutImplicit *
      2 ^ (j - spec.mantissaBitsWithoutImplicit) = 2 ^ j := by
    rw [← zpow_natCast, ← zpow_add₀ two_ne_zero]
    congr 1
    omega
  cases s <;> simp [value, power, Sign.apply, hexp]

theorem representable_power (spec : Format) (j : ℤ) (hj : 1 - (spec.exponentBias : ℤ) ≤ j) :
    Representable spec (2 ^ j) := by
  have h := (canonical_power .positive hj).representable
  rwa [value_power, Sign.apply, Int.cast_one, one_mul, abs_of_pos (zpow_pos two_pos j)] at h

end BatchAxpby.Rounding

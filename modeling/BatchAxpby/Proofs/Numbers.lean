import BatchAxpby.Proofs.Rounding
import BatchAxpby.Scalar

/-! # Scalars that equal themselves

Comparing two results needs scalars that equal themselves. In single and in double precision
all of them do but the one that is not a number, which equals nothing. A seeded value has size
at most one, so its product with a finite coefficient is finite, and the sum of two such products
is a number.
-/

namespace BatchAxpby

/-- Seeded values, and what a finite update makes of them, equal themselves. -/
class LawfulScalar (α : Type) [Scalar α] : Prop where
  draw_beq_self : ∀ word i, (Scalar.draw word i == (Scalar.draw word i : α)) = true
  axpby_beq_self : ∀ alpha beta : α, Scalar.isFinite alpha = true → Scalar.isFinite beta = true →
    ∀ word i word' j,
      (Scalar.axpby alpha (Scalar.draw word i) beta (Scalar.draw word' j) ==
        Scalar.axpby alpha (Scalar.draw word i) beta (Scalar.draw word' j)) = true

/-- Values that equal each other are numbers, so what does not equal itself equals nothing. -/
class NumericEquality (α : Type) [Scalar α] : Prop where
  beq_self_of_beq : ∀ x y : α, (x == y) = true → (x == x) = true ∧ (y == y) = true

namespace Rounding

open Float.Model (Format UnpackedFloat)
open Float.Model.UnpackedFloat

variable {spec : Format} {q : ℚ} {u v : UnpackedFloat}

theorem beq_self (h : u ≠ .notANumber) : u.beq u = true :=
  (beq_iff_ne_notANumber_and_eq u u).mpr ⟨h, h, Or.inl rfl⟩

theorem beq_self_of_beq (h : u.beq v = true) : u.beq u = true ∧ v.beq v = true := by
  obtain ⟨hu, hv, -⟩ := (beq_iff_ne_notANumber_and_eq u v).mp h
  exact ⟨beq_self hu, beq_self hv⟩

theorem Within.ne_notANumber (h : Within spec q u) : u ≠ .notANumber := by
  rintro rfl
  exact h.canonical

theorem add_ne_notANumber (hu : Stored spec u) (hv : Stored spec v) :
    add spec u v ≠ .notANumber := by
  have hq : Representable spec (2 ^ ((spec.exponentBias + 2 : ℕ) : ℤ)) :=
    representable_power spec _ (by omega)
  refine (within_add hu.canonical hv.canonical hq ?_).ne_notANumber
  rw [zpow_natCast, pow_succ]
  linarith [abs_add_le (value u) (value v), hu.abs_lt, hv.abs_lt]

section

variable (hbias : 0 < spec.exponentBias)

include hbias

theorem Within.packed_eq (h : Within spec q u) (hq : q < 2 ^ (spec.exponentBias + 1)) :
    packed spec u = u :=
  Stored.packed_eq hbias ⟨h.canonical, h.abs_le.trans_lt hq⟩

theorem stored_packed_mul (hu : Stored spec u) (hv : Within spec 1 v) :
    Stored spec (packed spec (mul spec u v)) := by
  have hle : |value u * value v| ≤ |value u| := by
    rw [abs_mul]
    exact mul_le_of_le_one_right (abs_nonneg _) hv.abs_le
  have hmul := within_mul hu.canonical hv.canonical hu.canonical.representable hle
  rw [hmul.packed_eq hbias hu.abs_lt]
  exact ⟨hmul.canonical, hmul.abs_le.trans_lt hu.abs_lt⟩

/-- The multiply-add of stored coefficients with floats of size at most one is a number. -/
theorem axpby_ne_notANumber {alpha x beta y : UnpackedFloat} (halpha : Stored spec alpha)
    (hx : Within spec 1 x) (hbeta : Stored spec beta) (hy : Within spec 1 y) :
    packed spec (add spec (packed spec (mul spec alpha x)) (packed spec (mul spec beta y))) ≠
      .notANumber :=
  packed_ne_notANumber
    (add_ne_notANumber (stored_packed_mul hbias halpha hx) (stored_packed_mul hbias hbeta hy))

theorem two_lt_max : (2 : ℚ) < 2 ^ (spec.exponentBias + 1) := by
  have h : (2 : ℚ) ^ 1 < 2 ^ (spec.exponentBias + 1) :=
    pow_lt_pow_right₀ one_lt_two (Nat.lt_add_of_pos_left hbias)
  rwa [pow_one] at h

theorem within_sub_one {f : ℕ} (hf : f < 2 ^ spec.mantissaBitsWithoutImplicit)
    (hm : 0 < 2 ^ spec.mantissaBitsWithoutImplicit + f) :
    Within spec 1 (sub spec (.finite .positive (2 ^ spec.mantissaBitsWithoutImplicit + f)
      (-spec.mantissaBitsWithoutImplicit) hm) (power spec .positive 0)) ∧
    0 ≤ value (sub spec (.finite .positive (2 ^ spec.mantissaBitsWithoutImplicit + f)
      (-spec.mantissaBitsWithoutImplicit) hm) (power spec .positive 0)) := by
  have hsub : sub spec (.finite .positive (2 ^ spec.mantissaBitsWithoutImplicit + f)
      (-spec.mantissaBitsWithoutImplicit) hm) (power spec .positive 0) =
      UnpackedFloat.normalize spec f (-spec.mantissaBitsWithoutImplicit) .positive := by
    simp [sub, power, decreaseExponent, Sign.apply]
  rw [hsub]
  constructor
  · refine within_normalize _ _ _ (representable_power spec 0 (by omega)) ?_
    rw [abs_of_nonneg (by positivity), zpow_neg, zpow_natCast, Int.cast_natCast]
    exact mul_inv_le_one_of_le₀ (mod_cast hf.le) (by positivity)
  · exact value_normalize_nonneg (Int.natCast_nonneg f) ..

theorem within_double_sub_one (hu : Within spec 1 u) (hnonneg : 0 ≤ value u) :
    Within spec 1 (add spec (packed spec (mul spec u (power spec .positive 1)))
      (power spec .negative 0)) := by
  have htwo : value (power spec .positive 1) = 2 := by simp [value_power, Sign.apply]
  have hminus : value (power spec .negative 0) = -1 := by simp [value_power, Sign.apply]
  have hle := (abs_le.mp hu.abs_le).2
  -- The double lies in `[0, 2]`, so taking one leaves it in `[-1, 1]`.
  have hmul : Within spec 2 (mul spec u (power spec .positive 1)) := by
    refine within_mul hu.canonical (canonical_power _ (by omega)) ?_ ?_
    · exact zpow_one (2 : ℚ) ▸ representable_power spec 1 (by omega)
    · rw [htwo, abs_of_nonneg (by positivity)]
      linarith
  have hmul_nonneg : 0 ≤ value (mul spec u (power spec .positive 1)) :=
    value_mul_nonneg hnonneg (by rw [htwo]; exact two_pos.le)
  have hmul_le := (abs_le.mp hmul.abs_le).2
  rw [hmul.packed_eq hbias (two_lt_max hbias)]
  refine within_add hmul.canonical (canonical_power _ (by omega))
    (representable_power spec 0 (by omega)) ?_
  rw [hminus, abs_le]
  constructor <;> linarith

/-- The steps of a draw: a float in `[1, 2)` is moved down by one, doubled, and moved down by one
again. -/
def drawn (spec : Format) (u : UnpackedFloat) : UnpackedFloat :=
  packed spec (add spec (packed spec (mul spec (packed spec (sub spec (packed spec u)
    (power spec .positive 0))) (power spec .positive 1))) (power spec .negative 0))

/-- A draw has size at most one, whatever the bits of the mantissa are. -/
theorem within_drawn (mantissa : BitVec spec.mantissaBitsWithoutImplicit) :
    Within spec 1 (drawn spec (unpack spec
      (packComponents spec .positive (BitVec.ofNat _ spec.exponentBias) mantissa))) := by
  have hbits := two_pow_exponentBits spec
  have hf := mantissa.isLt
  have hmax := one_lt_two.trans (two_lt_max hbias)
  have hpos : 0 < 2 ^ spec.mantissaBitsWithoutImplicit + mantissa.toNat := by positivity
  have hmod : BitVec.ofNat _ (2 ^ spec.mantissaBitsWithoutImplicit + mantissa.toNat) =
      mantissa := by
    apply BitVec.eq_of_toNat_eq
    rw [BitVec.toNat_ofNat, Nat.add_mod_left, Nat.mod_eq_of_lt hf]
  have hunpack := unpack_full .positive hbias (by omega) hpos (Nat.le_add_right ..)
    (by rw [pow_mantissaBits]; omega)
  rw [hmod, sub_add_cancel_left] at hunpack
  have hstored := stored_unpack
    (packComponents spec .positive (BitVec.ofNat _ spec.exponentBias) mantissa)
    (by rw [hunpack]; rfl)
  obtain ⟨hlow, hnonneg⟩ := within_sub_one hbias hf hpos
  have hdraw := within_double_sub_one hbias hlow hnonneg
  rw [drawn, hstored.packed_eq hbias, hunpack, hlow.packed_eq hbias hmax,
    hdraw.packed_eq hbias hmax]
  exact hdraw

end

end Rounding

open Float.Model (Format)
open Float.Model.UnpackedFloat
open Rounding

theorem toNat_packComponents_positive {spec : Format} (exponent : BitVec spec.exponentBits)
    (mantissa : BitVec spec.mantissaBitsWithoutImplicit) :
    (packComponents spec .positive exponent mantissa).toNat =
      exponent.toNat <<< spec.mantissaBitsWithoutImplicit ||| mantissa.toNat := by
  simp [packComponents, BitVec.toNat_append, Sign.toBitVec]

theorem within_draw_float32 (word : ℕ → UInt32) (i : ℕ) :
    Within Format.binary32 1 (Scalar.draw word i : Float32).toModel.unpack := by
  have hbits : ((0x3f800000 : UInt32) ||| (word i >>> 9)).toBitVec =
      packComponents Format.binary32 .positive (BitVec.ofNat _ Format.binary32.exponentBias)
        ((word i >>> 9).toBitVec.setWidth 23) := by
    have hlt : (word i).toNat >>> 9 < 2 ^ 23 := by
      rw [Nat.shiftRight_eq_div_pow]
      exact Nat.div_lt_of_lt_mul (word i).toNat_lt
    apply BitVec.eq_of_toNat_eq
    rw [toNat_packComponents_positive, BitVec.toNat_setWidth, UInt32.toNat_toBitVec,
      UInt32.toNat_toBitVec, UInt32.toNat_or, UInt32.toNat_shiftRight]
    change _ = _ ||| ((word i).toNat >>> 9) % 2 ^ 23
    rw [Nat.mod_eq_of_lt hlt]
    rfl
  have hdraw := within_drawn (show 0 < Format.binary32.exponentBias by decide)
    ((word i >>> 9).toBitVec.setWidth 23)
  rw [← hbits] at hdraw
  exact hdraw

theorem within_draw_float (word : ℕ → UInt32) (i : ℕ) :
    Within Format.binary64 1 (Scalar.draw word i : Float).toModel.unpack := by
  let bits : UInt64 := (word (2 * i)).toUInt64 ||| ((word (2 * i + 1)).toUInt64 <<< 32)
  have hbits : ((0x3ff0000000000000 : UInt64) ||| (bits >>> 12)).toBitVec =
      packComponents Format.binary64 .positive (BitVec.ofNat _ Format.binary64.exponentBias)
        ((bits >>> 12).toBitVec.setWidth 52) := by
    have hlt : bits.toNat >>> 12 < 2 ^ 52 := by
      rw [Nat.shiftRight_eq_div_pow]
      exact Nat.div_lt_of_lt_mul bits.toNat_lt
    apply BitVec.eq_of_toNat_eq
    rw [toNat_packComponents_positive, BitVec.toNat_setWidth, UInt64.toNat_toBitVec,
      UInt64.toNat_toBitVec, UInt64.toNat_or, UInt64.toNat_shiftRight]
    change _ = _ ||| (bits.toNat >>> 12) % 2 ^ 52
    rw [Nat.mod_eq_of_lt hlt]
    rfl
  have hdraw := within_drawn (show 0 < Format.binary64.exponentBias by decide)
    ((bits >>> 12).toBitVec.setWidth 52)
  rw [← hbits] at hdraw
  exact hdraw

instance : NumericEquality Float32 where
  beq_self_of_beq _ _ := beq_self_of_beq

instance : NumericEquality Float where
  beq_self_of_beq _ _ := beq_self_of_beq

instance : LawfulScalar Float32 where
  draw_beq_self word i := beq_self (within_draw_float32 word i).ne_notANumber
  axpby_beq_self alpha beta halpha hbeta word i word' j :=
    beq_self (axpby_ne_notANumber (by decide) (stored_unpack _ halpha)
      (within_draw_float32 word i) (stored_unpack _ hbeta) (within_draw_float32 word' j))

instance : LawfulScalar Float where
  draw_beq_self word i := beq_self (within_draw_float word i).ne_notANumber
  axpby_beq_self alpha beta halpha hbeta word i word' j :=
    beq_self (axpby_ne_notANumber (by decide) (stored_unpack _ halpha)
      (within_draw_float word i) (stored_unpack _ hbeta) (within_draw_float word' j))

end BatchAxpby

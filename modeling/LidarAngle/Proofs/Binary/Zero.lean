import LidarAngle.Proofs.Binary.Error

/-!
# Zeros of either sign

There are two zeros, of the same value. A zero that is added to a number does not change it, unless
the number is the negative zero. Adding does not lead to the negative zero from any other number, and
neither does subtracting a number from itself.

## Main definitions

* `Binary.signedZero` - the zero of a sign

## Main statements

* `Binary.exists_eq_zero` - the numbers that have the value zero
* `Binary.hasValue_add_of_zero`, `Binary.hasValue_mul_of_zero` - the values of sums and products with
  a zero
* `Binary.add_eq_self` - a sum with a zero
* `Binary.sub_eq_zero` - the difference of a number and itself
* `Binary.add_ne_neg_zero` - no sum is the negative zero if its second term is not
-/

namespace LidarAngle.Binary

open Float.Model Float.Model.UnpackedFloat
open Decimal (ofModel_pack)

/-- The zero of a sign. -/
def signedZero (s : Sign) : Float :=
  .ofModel (.pack (.zero s))

theorem signedZero_positive : signedZero .positive = 0 := by
  decide

theorem signedZero_negative : signedZero .negative = -0 := by
  decide

theorem unpack_signedZero (s : Sign) : (signedZero s).toModel.unpack = .zero s := by
  cases s with
  | positive => rfl
  | negative => rfl

theorem hasValue_signedZero (s : Sign) : HasValue (signedZero s) 0 :=
  hasValue_zero s

/-- A zero that is not the negative one has a positive sign. -/
theorem sign_eq_positive_of_ne {s : Sign} (h : signedZero s ≠ -0) : s = .positive := by
  cases s with
  | positive => rfl
  | negative => exact absurd signedZero_negative h

variable {x y z : Float}

theorem eq_zero_of_unpack {s : Sign} (h : x.toModel.unpack = .zero s) : x = signedZero s :=
  (ofModel_pack h).symm

/-- Only the two zeros have the value zero. -/
theorem exists_eq_zero (h : HasValue z 0) : ∃ s, z = signedZero s := by
  have hfinite : z.isFinite = true := h.isFinite (abs_zero.trans_lt limit_pos)
  have hvalue := h.value_eq
  obtain ⟨s, hu⟩ | ⟨s, m, q, hpos, hu⟩ := @eq_zero_or_finite z.toModel.unpack hfinite
  · exact ⟨s, eq_zero_of_unpack hu⟩
  · have habs := abs_factor_mul s ((m : ℚ) * 2 ^ q)
    rw [value, hu, partsValue] at hvalue
    rw [hvalue, abs_zero, abs_of_pos (magnitude_pos hpos)] at habs
    exact absurd habs (magnitude_pos hpos).ne

theorem hasValue_add_of_zero (hx : x.isFinite = true) (hz : HasValue z 0) :
    HasValue (x + z) (value x) := by
  have hsum := hasValue_add hx (hz.isFinite (abs_zero.trans_lt limit_pos))
  rwa [hz.value_eq, add_zero, rounded_value (isNaN_of_isFinite hx)] at hsum

theorem hasValue_mul_of_zero (hz : HasValue z 0) (hx : x.isFinite = true) :
    HasValue (z * x) 0 := by
  have hproduct := hasValue_mul (hz.isFinite (abs_zero.trans_lt limit_pos)) hx
  rwa [hz.value_eq, zero_mul, rounded_zero] at hproduct

/-- A sum in terms of its parts. -/
theorem add_eq_of_parts {u : UnpackedFloat}
    (h : UnpackedFloat.add Format.binary64 x.toModel.unpack y.toModel.unpack = u) :
    x + y = .ofModel (.pack u) := by
  rw [← h]
  rfl

/-- Adding a zero changes nothing but the sign of the negative zero. -/
theorem add_eq_self (hx : x.isFinite = true) (hne : x ≠ -0) (hz : HasValue z 0) : x + z = x := by
  obtain ⟨s', rfl⟩ := exists_eq_zero hz
  obtain ⟨s, hu⟩ | ⟨s, m, q, hpos, hu⟩ := @eq_zero_or_finite x.toModel.unpack hx
  · obtain rfl := eq_zero_of_unpack hu
    obtain rfl := sign_eq_positive_of_ne hne
    cases s' with
    | positive => decide
    | negative => decide
  · have hsum : UnpackedFloat.add Format.binary64 x.toModel.unpack (signedZero s').toModel.unpack =
        x.toModel.unpack := by
      rw [unpack_signedZero, hu]
      rfl
    rw [add_eq_of_parts hsum, ofModel_pack rfl]

/-- Nothing times a positive number is the positive zero. -/
theorem zero_mul_eq_zero (hx : x.isFinite = true) (hpos : 0 < value x) : 0 * x = 0 := by
  have hparts : UnpackedFloat.mul Format.binary64 (0 : Float).toModel.unpack x.toModel.unpack =
      .zero .positive := by
    rw [← signedZero_positive, unpack_signedZero]
    unfold value at hpos
    obtain ⟨s, hu⟩ | ⟨s, m, q, hm, hu⟩ := @eq_zero_or_finite x.toModel.unpack hx
    · rw [hu, partsValue] at hpos
      exact absurd hpos (lt_irrefl 0)
    · rw [hu] at hpos ⊢
      obtain rfl := sign_eq_positive hpos.le
      rfl
  calc 0 * x = .ofModel (.pack (UnpackedFloat.mul Format.binary64 (0 : Float).toModel.unpack
        x.toModel.unpack)) := rfl
    _ = 0 := by rw [hparts, ← signedZero_positive, signedZero]

/-- A number less itself is the positive zero. -/
theorem sub_eq_zero (hx : x.isFinite = true) : x - x = 0 := by
  have hparts : UnpackedFloat.sub Format.binary64 x.toModel.unpack x.toModel.unpack =
      .zero .positive := by
    obtain ⟨s, hu⟩ | ⟨s, m, q, hpos, hu⟩ := @eq_zero_or_finite x.toModel.unpack hx
    · rw [hu]
      cases s with
      | positive => rfl
      | negative => rfl
    · rw [hu, UnpackedFloat.sub]
      dsimp only
      rw [Int.sub_self]
      rfl
  rw [← signedZero_positive, signedZero, ← hparts]
  rfl

/-- What is rounded to zero is zero, if it is in units of the least place. -/
theorem IsFine.eq_zero_of_rounded {v : ℚ} (hv : IsFine v) (h : rounded v = 0) : v = 0 := by
  have herror := hv.abs_rounded_sub_le (by rw [h, abs_zero]; exact limit_pos)
  have hnonneg := abs_nonneg v
  rw [h, zero_sub, abs_neg] at herror
  norm_num at herror
  exact abs_eq_zero.1 (le_antisymm (by linarith) hnonneg)

/-- The negative zero is only the sum of two of them. -/
theorem add_ne_neg_zero (hx : x.isFinite = true) (hy : y.isFinite = true) (hne : y ≠ -0) :
    x + y ≠ -0 := by
  intro hsum
  obtain ⟨s', hw⟩ | ⟨s', n, r, hn, hw⟩ := @eq_zero_or_finite y.toModel.unpack hy
  · obtain rfl := eq_zero_of_unpack hw
    obtain rfl := sign_eq_positive_of_ne hne
    by_cases hneg : x = -0
    · rw [hneg] at hsum
      exact absurd hsum (by decide)
    · rw [add_eq_self hx hneg (hasValue_signedZero .positive)] at hsum
      exact hneg hsum
  · have hvalue : value x + value y = 0 := by
      have hrounded := (hasValue_add hx hy).value_eq
      rw [hsum] at hrounded
      exact ((isFine_value hx).add (isFine_value hy)).eq_zero_of_rounded hrounded.symm
    obtain ⟨s, hu⟩ | ⟨s, m, q, hm, hu⟩ := @eq_zero_or_finite x.toModel.unpack hx
    · have hparts : UnpackedFloat.add Format.binary64 x.toModel.unpack y.toModel.unpack =
          y.toModel.unpack := by
        rw [hu, hw]
        rfl
      rw [add_eq_of_parts hparts, ofModel_pack rfl] at hsum
      exact hne hsum
    -- The two cancel each other, which leaves the positive zero.
    · have hmantissa := partsValue_add_finite s s' q r hm hn
      rw [← hu, ← hw, show partsValue _ + partsValue _ = _ from hvalue] at hmantissa
      have hzero := (mul_eq_zero.1 hmantissa).resolve_right (zpow_pos (by norm_num) _).ne'
      have hparts : UnpackedFloat.add Format.binary64 x.toModel.unpack y.toModel.unpack =
          .zero .positive := by
        rw [hu, hw, add_finite, Int.cast_eq_zero.1 hzero]
        rfl
      rw [add_eq_of_parts hparts] at hsum
      exact absurd hsum (by decide)

end LidarAngle.Binary

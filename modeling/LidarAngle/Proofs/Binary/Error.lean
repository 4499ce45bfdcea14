import LidarAngle.Proofs.Binary.Spacing

/-!
# The error of an operation

An operation on finite binary numbers, if its result is finite, is off by no more than the last of
54 bits of the exact result. Only a product may be so small that it loses bits at the lower end of
the range, too. The difference of two numbers that are near each other is exact.

## Main definitions

* `Binary.underflow` - what a product may lose at the lower end of the range

## Main statements

* `Binary.abs_value_add_sub_le`, `Binary.abs_value_sub_sub_le`, `Binary.abs_value_mul_sub_le` - the
  error of an operation
* `Binary.value_sub_of_near` - the difference of two numbers that are near each other
* `Binary.isFinite_add_of_small` - a small addend does not lead out of range
* `Binary.abs_value_add_mul_add_sub_le` - the error of a sum of a number, a product and a number
-/

namespace LidarAngle.Binary

open Float.Model Float.Model.UnpackedFloat
open Decimal (isCanonical_of_unpack)

/-- Half of the least place. -/
def underflow : ℚ :=
  1 / 2 ^ 1075

theorem underflow_pos : 0 < underflow := by
  unfold underflow
  positivity

theorem underflow_mul_two_pow_le {m n : ℕ} (h : m + n ≤ 1075) : underflow * 2 ^ m ≤ 1 / 2 ^ n := by
  have hpower : (2 : ℚ) ^ (m + n) ≤ 2 ^ 1075 := pow_le_pow_right₀ (by norm_num) h
  rw [underflow, div_mul_eq_mul_div, one_mul, div_le_div_iff₀ (by positivity) (by positivity),
    one_mul, ← pow_add]
  exact hpower

section Rounded

variable {v w : ℚ}

theorem abs_rounded (v : ℚ) : |rounded v| = rounded |v| := by
  rcases le_total 0 v with hv | hv
  · rw [abs_of_nonneg hv, abs_of_nonneg (rounded_nonneg hv)]
  · rw [abs_of_nonpos hv, rounded_neg, abs_of_nonpos]
    have hnonneg := rounded_nonneg (neg_nonneg.2 hv)
    rw [rounded_neg] at hnonneg
    exact neg_nonneg.1 hnonneg

theorem abs_rounded_mono (h : |v| ≤ |w|) : |rounded v| ≤ |rounded w| := by
  rw [abs_rounded, abs_rounded]
  exact rounded_mono h

theorem abs_rounded_lt_limit_iff : |rounded v| < limit ↔ |v| < overflow := by
  rw [abs_rounded, rounded_lt_limit_iff]

theorem abs_rounded_sub_le (h : |rounded v| < limit) :
    |rounded v - v| ≤ |v| / 2 ^ 53 + underflow := by
  rw [rounded_eq_unbounded_of_abs_lt h]
  exact abs_unbounded_sub_le v

theorem IsFine.abs_rounded_sub_le (hv : IsFine v) (h : |rounded v| < limit) :
    |rounded v - v| ≤ |v| / 2 ^ 53 := by
  rw [rounded_eq_unbounded_of_abs_lt h]
  exact hv.abs_unbounded_sub_le

/-- A difference that is not greater than either of two numbers is a multiple of the lower one of
their last places, and has no more than 53 bits. -/
theorem unbounded_sub_eq_self (hv : unbounded v = v) (hw : unbounded w = w) (h : |w - v| ≤ |v|)
    (h' : |w - v| ≤ |w|) : unbounded (w - v) = w - v := by
  obtain ⟨k, hk⟩ := exists_eq_mul_of_le hv (min_le_left (place v) (place w))
  obtain ⟨l, hl⟩ := exists_eq_mul_of_le hw (min_le_right (place v) (place w))
  have hplace : place (w - v) ≤ min (place v) (place w) := le_min (place_mono h) (place_mono h')
  generalize min (place v) (place w) = q at hk hl hplace
  have hdifference : w - v = (l - k : ℤ) * 2 ^ q := by
    rw [hk, hl]
    push_cast
    ring
  rw [hdifference] at hplace ⊢
  exact unbounded_eq_self hplace

end Rounded

section Operations

variable {x y z : Float}

theorem HasValue.isFinite_iff {v : ℚ} (h : HasValue x v) : x.isFinite = true ↔ |v| < limit := by
  rw [Binary.isFinite_iff, h.value_eq, and_iff_right h.isNaN_eq]

theorem hasValue_neg {v : ℚ} (h : HasValue x v) : HasValue (-x) (-v) := by
  have hneg := hasValue_pack (isProper_neg (isProper_unpack h.isNaN_eq))
  rw [partsValue_neg] at hneg
  rw [← h.value_eq]
  exact hneg

theorem abs_value_le_greatest (hx : x.isFinite = true) : |value x| ≤ limit - 2 ^ 971 := by
  unfold value
  obtain ⟨s, hu⟩ | ⟨s, m, q, hpos, hu⟩ := @eq_zero_or_finite x.toModel.unpack hx
  · have hle : (2 : ℚ) ^ 971 ≤ limit := two_pow_le_limit (by norm_num)
    rw [hu, partsValue, abs_zero]
    exact sub_nonneg.2 hle
  · have hcanonical := isCanonical_of_unpack hu
    have hlt := hcanonical.lt
    have hmost : (m : ℚ) ≤ 2 ^ 53 - 1 := by
      have : (m : ℚ) + 1 ≤ 2 ^ 53 := by exact_mod_cast hlt
      linarith
    rw [hu, partsValue, abs_factor_mul, abs_of_pos (magnitude_pos hpos)]
    calc (m : ℚ) * 2 ^ q ≤ (2 ^ 53 - 1) * 2 ^ (971 : ℤ) :=
          mul_le_mul hmost (zpow_le_zpow_right₀ (by norm_num) hcanonical.most) (by positivity)
            (by norm_num)
      _ = limit - 2 ^ 971 := by rw [limit_eq, sub_mul, one_mul]; rfl

theorem isFinite_add (hx : x.isFinite = true) (hy : y.isFinite = true)
    (h : |value x + value y| < overflow) : (x + y).isFinite = true :=
  (hasValue_add hx hy).isFinite_iff.2 (abs_rounded_lt_limit_iff.2 h)

theorem isFinite_sub (hx : x.isFinite = true) (hy : y.isFinite = true)
    (h : |value x - value y| < overflow) : (x - y).isFinite = true :=
  (hasValue_sub hx hy).isFinite_iff.2 (abs_rounded_lt_limit_iff.2 h)

/-- What is far less than the spacing at the greatest number does not lead beyond it. -/
theorem isFinite_add_of_small (hx : x.isFinite = true) (hy : y.isFinite = true)
    (h : |value y| ≤ 2 ^ 969) : (x + y).isFinite = true := by
  have hgap : limit - 2 ^ 971 + 2 ^ 969 < overflow := by
    have hpos : (0 : ℚ) < 2 ^ 969 := by positivity
    rw [overflow, limit, pow_succ 2 970, pow_succ 2 969]
    generalize (2 : ℚ) ^ 1024 = power
    generalize (2 : ℚ) ^ 969 = small at hpos ⊢
    linarith
  apply isFinite_add hx hy
  calc |value x + value y| ≤ |value x| + |value y| := abs_add_le _ _
    _ ≤ limit - 2 ^ 971 + 2 ^ 969 := add_le_add (abs_value_le_greatest hx) h
    _ < overflow := hgap

/-- A factor that is at most one does not lead out of range. -/
theorem isFinite_mul_of_le_one (hx : x.isFinite = true) (hy : y.isFinite = true) (h : |value y| ≤ 1) :
    (x * y).isFinite = true ∧ |value (x * y)| ≤ |value x| := by
  have hproduct := hasValue_mul hx hy
  have hle : |value x * value y| ≤ |value x| := by
    rw [abs_mul]
    exact mul_le_of_le_one_right (abs_nonneg _) h
  have hrounded := abs_rounded_mono hle
  rw [rounded_value (isNaN_of_isFinite hx)] at hrounded
  rw [hproduct.isFinite_iff, hproduct.value_eq]
  exact ⟨hrounded.trans_lt (Binary.isFinite_iff.1 hx).2, hrounded⟩

theorem abs_value_add_sub_le (hx : x.isFinite = true) (hy : y.isFinite = true)
    (h : (x + y).isFinite = true) :
    |value (x + y) - (value x + value y)| ≤ |value x + value y| / 2 ^ 53 := by
  have hsum := hasValue_add hx hy
  rw [hsum.value_eq]
  exact ((isFine_value hx).add (isFine_value hy)).abs_rounded_sub_le (hsum.isFinite_iff.1 h)

theorem abs_value_sub_sub_le (hx : x.isFinite = true) (hy : y.isFinite = true)
    (h : (x - y).isFinite = true) :
    |value (x - y) - (value x - value y)| ≤ |value x - value y| / 2 ^ 53 := by
  have hdifference := hasValue_sub hx hy
  rw [hdifference.value_eq]
  exact ((isFine_value hx).sub (isFine_value hy)).abs_rounded_sub_le (hdifference.isFinite_iff.1 h)

theorem abs_value_mul_sub_le (hx : x.isFinite = true) (hy : y.isFinite = true)
    (h : (x * y).isFinite = true) :
    |value (x * y) - value x * value y| ≤ |value x * value y| / 2 ^ 53 + underflow := by
  have hproduct := hasValue_mul hx hy
  rw [hproduct.value_eq]
  exact abs_rounded_sub_le (hproduct.isFinite_iff.1 h)

/-- The difference of two numbers is exact if it is at most half of either. -/
theorem value_sub_of_near (hx : x.isFinite = true) (hy : y.isFinite = true)
    (h : 2 * |value x - value y| ≤ |value y|) :
    (x - y).isFinite = true ∧ value (x - y) = value x - value y := by
  have hnear := abs_sub_abs_le_abs_sub (value y) (value x)
  have hnonneg := abs_nonneg (value x - value y)
  rw [abs_sub_comm] at hnear
  have hexact := unbounded_sub_eq_self (unbounded_value hy) (unbounded_value hx) (by linarith)
    (by linarith)
  have hrange : |value x - value y| < limit := by
    have hlt := (Binary.isFinite_iff.1 hy).2
    linarith
  have hdifference := hasValue_sub hx hy
  obtain ⟨hlow, hhigh⟩ := abs_le.1 hrange.le
  rw [rounded, hexact, min_eq_right hhigh, max_eq_right hlow] at hdifference
  exact ⟨hdifference.isFinite hrange, hdifference.value_eq⟩

/-- Two roundings in a sum of three numbers. -/
theorem abs_value_add_add_sub_le (hx : x.isFinite = true) (hy : y.isFinite = true)
    (hz : z.isFinite = true) (hxy : (x + y).isFinite = true) (h : (x + y + z).isFinite = true) :
    |value (x + y + z) - (value x + value y + value z)| ≤
      3 * (|value x| + |value y| + |value z|) / 2 ^ 53 := by
  have hfirst := abs_value_add_sub_le hx hy hxy
  have hsecond := abs_value_add_sub_le hxy hz h
  have hsum := abs_add_le (value x) (value y)
  have hsum' := abs_add_le (value (x + y)) (value z)
  have hrounded := abs_sub_abs_le_abs_sub (value (x + y)) (value x + value y)
  have htriangle := abs_sub_le (value (x + y + z)) (value (x + y) + value z)
    (value x + value y + value z)
  have hfirst' := abs_nonneg (value x + value y)
  have hz' := abs_nonneg (value z)
  rw [add_sub_add_right_eq_sub] at htriangle
  norm_num at hfirst hsecond ⊢
  linarith

/-- The error of a sum of a number, a product by something that is at most one, and a number, of
which all but the first are small. -/
theorem abs_value_add_mul_add_sub_le {factor : Float} (hx : x.isFinite = true)
    (hy : y.isFinite = true) (hz : z.isFinite = true) (hfactor : factor.isFinite = true)
    (hone : |value factor| ≤ 1) (hy' : |value y| ≤ 2 ^ 969) (hz' : |value z| ≤ 2 ^ 969) :
    (x + y * factor + z).isFinite = true ∧
      |value (x + y * factor + z) - (value x + value y * value factor + value z)| ≤
        4 * (|value x| + |value y| + |value z|) / 2 ^ 53 + underflow := by
  obtain ⟨hproduct, hle⟩ := isFinite_mul_of_le_one hy hfactor hone
  have hsum := isFinite_add_of_small hx hproduct (hle.trans hy')
  have hwhole := isFinite_add_of_small hsum hz hz'
  have herror := abs_value_mul_sub_le hy hfactor hproduct
  have herror' := abs_value_add_add_sub_le hx hproduct hz hsum hwhole
  have hexact : |value y * value factor| ≤ |value y| := by
    rw [abs_mul]
    exact mul_le_of_le_one_right (abs_nonneg _) hone
  have htriangle := abs_sub_le (value (x + y * factor + z))
    (value x + value (y * factor) + value z) (value x + value y * value factor + value z)
  have hx'' := abs_nonneg (value x)
  have hz'' := abs_nonneg (value z)
  rw [add_sub_add_right_eq_sub, add_sub_add_left_eq_sub] at htriangle
  refine ⟨hwhole, ?_⟩
  norm_num at herror' ⊢
  linarith

end Operations

end LidarAngle.Binary

import LidarAngle.Proofs.Binary.Error
import LidarAngle.Trig

/-!
# Conversions of angles, and sines

The factors by which angles are converted are binary numbers, so neither is exact. One degree is
slightly less than it should be, and one degree there and back again is off by less than one in the
last of 53 bits. Of a sine no more is known than that it is between minus one and one.

## Main statements

* `Trig.value_degree`, `Trig.value_radian` - the factors
* `Trig.degree_le_pi` - the first one against the exact factor
* `Trig.abs_radians_sub_le`, `Trig.abs_degrees_sub_le` - the error of a conversion
* `Trig.sine_bounds` - the range of a sine
-/

namespace LidarAngle.Trig

open Binary

theorem value_degree : value degree = 5030569068109113 * 2 ^ (-58 : ℤ) := by
  have hbits : degree = Float.ofBits 0x3F91DF46A2529D39 := by decide
  rw [hbits]
  exact one_mul _

theorem isFinite_degree : degree.isFinite = true := by
  decide

theorem radians_one : radians 1 = degree := by
  decide

theorem value_degree_pos : 0 < value degree := by
  rw [value_degree]
  norm_num

theorem value_degree_le : value degree ≤ 1 / 57 := by
  rw [value_degree]
  norm_num

theorem degree_le_pi : (value degree : ℝ) ≤ Real.pi / 180 := by
  have hpi := Real.pi_gt_d20
  rw [value_degree]
  push_cast
  norm_num at hpi ⊢
  linarith

section Conversions

variable {x : Float}

theorem isFinite_radians (h : x.isFinite = true) :
    (radians x).isFinite = true ∧ |value (radians x)| ≤ |value x| := by
  apply isFinite_mul_of_le_one h isFinite_degree
  rw [abs_of_pos value_degree_pos]
  exact value_degree_le.trans (by norm_num)

theorem abs_radians_sub_le (h : x.isFinite = true) :
    |value (radians x) - value x * value degree| ≤
      |value x| * value degree / 2 ^ 53 + underflow := by
  have herror := abs_value_mul_sub_le h isFinite_degree (isFinite_radians h).1
  rwa [abs_mul, abs_of_pos value_degree_pos] at herror

theorem abs_radians_le (h : x.isFinite = true) :
    |value (radians x)| ≤ |value x| * value degree * (1 + 1 / 2 ^ 53) + underflow := by
  have herror := abs_radians_sub_le h
  have hsize := abs_sub_abs_le_abs_sub (value (radians x)) (value x * value degree)
  rw [abs_mul, abs_of_pos value_degree_pos] at hsize
  linarith

/-- Conversion by the worth of one degree, which is computed first. -/
theorem hasValue_radians_one_mul (h : x.isFinite = true) :
    HasValue (radians 1 * x) (value (radians x)) := by
  have hproduct := hasValue_mul isFinite_degree h
  have hconverted : HasValue (radians x) (rounded (value x * value degree)) :=
    hasValue_mul h isFinite_degree
  rwa [mul_comm, ← hconverted.value_eq, ← radians_one] at hproduct

/-- Whatever the system makes of a sine, it is a number between minus one and one. -/
theorem sine_bounds (h : x.isFinite = true) :
    (sine x).isFinite = true ∧ |value (sine x)| ≤ 1 := by
  have hone : HasValue 1 (1 : ℕ) := hasValue_ofNat (by norm_num)
  have hminus : HasValue (-1) (-(1 : ℕ)) := hasValue_neg hone
  have hrange : ∀ {y : Float}, y.isNaN = false → |value y| ≤ 1 →
      y.isFinite = true ∧ |value y| ≤ 1 := by
    intro y hnan hy
    have hlimit := two_pow_le_limit (n := 1) (by norm_num)
    exact ⟨isFinite_iff.2 ⟨hnan, lt_of_lt_of_le (lt_of_le_of_lt hy (by norm_num)) hlimit⟩, hy⟩
  rw [sine, if_pos h, confine]
  push_cast at hone hminus
  split
  · next hle =>
    rw [le_iff, hone.value_eq] at hle
    split
    · next hge =>
      rw [le_iff, hminus.value_eq] at hge
      exact hrange hle.1 (abs_le.2 ⟨hge.2.2, hle.2.2⟩)
    · apply hrange hminus.isNaN_eq
      rw [hminus.value_eq, abs_neg, abs_one]
  · apply hrange hone.isNaN_eq
    rw [hone.value_eq, abs_one]

end Conversions

end LidarAngle.Trig

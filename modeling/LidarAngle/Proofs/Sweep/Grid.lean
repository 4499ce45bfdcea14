import LidarAngle.Proofs.Binary.Zero
import LidarAngle.Proofs.Sweep.Rows

/-!
# The angles of a sweep

The angle of a row is computed with two roundings, in the product of the row number and the step and
in the sum with the start. Both keep the order, so the angles do not decrease. All rows but the last
are at least nearly a step short of the stop, which is more than the roundings can add.

## Main definitions

* `Sweep.angleValue` - the value of the angle of a row

## Main statements

* `Sweep.IsAccepted.hasValue_angle` - the values of the angles
* `Sweep.IsAccepted.angle_ne_neg_zero` - no angle is the negative zero
* `Sweep.rows_spec` - the number of rows, and the angles
-/

namespace LidarAngle.Sweep

open Binary

variable {sweep : Sweep} {count : ℕ}

/-- The value of the angle of a row. The product overflows at most in the last row, which then is
infinite. -/
def angleValue (sweep : Sweep) (row : ℕ) : ℚ :=
  if rounded (row * value sweep.step) < limit then
    rounded (value sweep.start + rounded (row * value sweep.step))
  else limit

theorem angleValue_le_limit (sweep : Sweep) (row : ℕ) : sweep.angleValue row ≤ limit := by
  unfold angleValue
  split
  · exact (abs_le.1 (abs_rounded_le _)).2
  · exact le_rfl

namespace IsAccepted

theorem offset_nonneg (h : sweep.IsAccepted count) (row : ℕ) : 0 ≤ row * value sweep.step :=
  mul_nonneg (Nat.cast_nonneg row) h.step_pos.le

theorem hasValue_offset (h : sweep.IsAccepted count) {row : ℕ} (hrow : row < count) :
    HasValue (Float.ofNat row * sweep.step) (rounded (row * value sweep.step)) := by
  have hmost : row < 2 ^ 53 := hrow.trans_le (h.bounds.2.1.trans (by decide))
  have hnat := hasValue_ofNat hmost
  have hnat_finite := hnat.isFinite (by
    rw [Nat.abs_cast]
    have hlt : (row : ℚ) < 2 ^ 53 := by exact_mod_cast hmost
    exact hlt.trans_le (two_pow_le_limit (by norm_num)))
  have hproduct := hasValue_mul hnat_finite h.step_finite
  rwa [hnat.value_eq] at hproduct

theorem hasValue_angle (h : sweep.IsAccepted count) {row : ℕ} (hrow : row < count) :
    HasValue (sweep.angle row) (sweep.angleValue row) := by
  have hoffset := rounded_nonneg (h.offset_nonneg row)
  have hproduct := h.hasValue_offset hrow
  unfold angle angleValue
  split
  · next hlt =>
    have hsum := hasValue_add h.start_finite
      (hproduct.isFinite ((abs_of_nonneg hoffset).trans_lt hlt))
    rwa [hproduct.value_eq] at hsum
  · next hge =>
    have hlimit := not_ne_iff.1 (mt rounded_lt_limit hge)
    rw [hlimit] at hproduct
    exact (hasValue_limit_add hproduct h.start_finite).2

/-- The way from the start to a row is not the negative zero, even if there is none. -/
theorem offset_ne_neg_zero (h : sweep.IsAccepted count) {row : ℕ} (hrow : row < count) :
    Float.ofNat row * sweep.step ≠ -0 := by
  cases row with
  | zero =>
    have hzero : Float.ofNat 0 * sweep.step = 0 := zero_mul_eq_zero h.step_finite h.step_pos
    rw [hzero]
    decide
  | succ row =>
    intro hneg
    have hvalue := (h.hasValue_offset hrow).value_eq
    have hstep : value sweep.step ≤ (row + 1 : ℕ) * value sweep.step :=
      le_mul_of_one_le_left h.step_pos.le (by exact_mod_cast Nat.succ_pos row)
    have hle := rounded_mono hstep
    rw [rounded_value (isNaN_of_isFinite h.step_finite), ← hvalue, hneg] at hle
    exact absurd h.step_pos (not_lt.2 hle)

/-- No angle is the negative zero, not even if the start is. -/
theorem angle_ne_neg_zero (h : sweep.IsAccepted count) {row : ℕ} (hrow : row < count)
    (hfinite : (sweep.angle row).isFinite = true) : sweep.angle row ≠ -0 := by
  have hangle := h.hasValue_angle hrow
  have hoffset := h.hasValue_offset hrow
  have hlt : rounded (row * value sweep.step) < limit := by
    by_contra hge
    have hlimit : sweep.angleValue row = limit := if_neg hge
    have hrange := (isFinite_iff.1 hfinite).2
    rw [hangle.value_eq, hlimit, abs_of_pos limit_pos] at hrange
    exact lt_irrefl _ hrange
  have habs := abs_of_nonneg (rounded_nonneg (h.offset_nonneg row))
  exact add_ne_neg_zero h.start_finite (hoffset.isFinite (habs.trans_lt hlt))
    (h.offset_ne_neg_zero hrow)

theorem angleValue_mono (h : sweep.IsAccepted count) {i j : ℕ} (hij : i ≤ j) :
    sweep.angleValue i ≤ sweep.angleValue j := by
  have hcast : (i : ℚ) ≤ j := by exact_mod_cast hij
  have hoffset := rounded_mono (mul_le_mul_of_nonneg_right hcast h.step_pos.le)
  by_cases hlt : rounded (j * value sweep.step) < limit
  · rw [angleValue, angleValue, if_pos hlt, if_pos (hoffset.trans_lt hlt)]
    exact rounded_mono (add_le_add_right hoffset _)
  · have hlast : sweep.angleValue j = limit := if_neg hlt
    rw [hlast]
    exact sweep.angleValue_le_limit i

theorem angleValue_zero (h : sweep.IsAccepted count) : sweep.angleValue 0 = value sweep.start := by
  rw [angleValue, Nat.cast_zero, zero_mul, rounded_zero, if_pos limit_pos, add_zero,
    rounded_value (isNaN_of_isFinite h.start_finite)]

theorem quotient_mul_step (h : sweep.IsAccepted count) :
    sweep.quotient * value sweep.step = value sweep.stop - value sweep.start :=
  div_mul_cancel₀ _ h.step_pos.ne'

/-- A row that is not the last one is so far from the stop that rounding does not lead past it. -/
theorem offset_le (h : sweep.IsAccepted count) {row : ℕ} (hrow : row + 1 < count) :
    row * value sweep.step * (1 + 1 / 2 ^ 53) ≤ value sweep.stop - value sweep.start := by
  obtain ⟨-, hmost, -, hcount⟩ := h.bounds
  have hrow' : (row : ℚ) + 2 ≤ count := by exact_mod_cast hrow
  have hmost' : (row : ℚ) ≤ 1000000 := by exact_mod_cast (by omega : row ≤ maxRows)
  have hfit : (row : ℚ) * (1 + 1 / 2 ^ 53) ≤ sweep.quotient := by
    norm_num at hcount ⊢
    linarith
  calc row * value sweep.step * (1 + 1 / 2 ^ 53)
      = row * (1 + 1 / 2 ^ 53) * value sweep.step := by ring
    _ ≤ sweep.quotient * value sweep.step := mul_le_mul_of_nonneg_right hfit h.step_pos.le
    _ = value sweep.stop - value sweep.start := h.quotient_mul_step

theorem angleValue_le_stop (h : sweep.IsAccepted count) {row : ℕ} (hrow : row + 1 < count) :
    sweep.angleValue row ≤ value sweep.stop := by
  have hnonneg := h.offset_nonneg row
  have hfit := h.offset_le hrow
  have hoffset := rounded_le_of_isFine ((isFine_value h.step_finite).natCast_mul row) hnonneg
  have hexact : row * value sweep.step ≤ value sweep.stop - value sweep.start :=
    le_trans (le_mul_of_one_le_right hnonneg (by norm_num)) hfit
  have hlt := (rounded_mono hexact).trans_lt h.rounded_difference_lt
  rw [angleValue, if_pos hlt, ← rounded_value (isNaN_of_isFinite h.stop_finite)]
  apply rounded_mono
  linarith

end IsAccepted

/-- Every angle is that of a row. -/
theorem exists_angle_eq_of_mem {angles : List Float} (h : sweep.angles = .ok angles) {angle : Float}
    (hmem : angle ∈ angles) : ∃ row < angles.length, sweep.angle row = angle := by
  rw [angles_eq_map, length_of_angles h] at h
  rw [← Except.ok.inj h] at hmem
  obtain ⟨row, hrow, rfl⟩ := List.mem_map.1 hmem
  exact ⟨row, List.mem_range.1 hrow, rfl⟩

end LidarAngle.Sweep

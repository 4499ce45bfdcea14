import LidarAngle.Proofs.Correction.Scale

/-!
# The two forms of a correction without rounding

The degree form and the radian form of a correction take the sine of the same binary number. With
that sine given, both are roundings of one exact formula: the radian form in radians, with
amplitude and offset converted before they are used.

## Main definitions

* `Correction.swing` - the sine in a correction
* `Correction.unrounded`, `Correction.unroundedRad` - the corrected angle in either unit, not rounded
* `Correction.magnitude` - the magnitudes that go into it

## Main statements

* `Correction.IsCoherent.inDegrees_error`, `Correction.IsCoherent.inRadians_error` - each form is
  finite, and its error
* `Correction.IsCoherent.abs_throughRadians_sub_le` - the error of the radian form in degrees
-/

namespace LidarAngle.Correction

open Binary

/-- The sine in a correction, of an angle in radians. -/
def swing (c : Correction) (angle : Float) : Float :=
  Trig.sine (angle + c.phaseRad)

/-- The amplitude in radians. -/
def amplitudeRad (c : Correction) : Float :=
  Trig.radians 1 * c.amplitude

/-- The corrected angle in degrees, not rounded but for its sine. -/
def unrounded (c : Correction) (angle : Float) : ℚ :=
  value angle + value c.amplitude * value (c.swing (Trig.radians angle)) + value c.offsetDeg

/-- The corrected angle in radians, with the amplitude and the offset as they are converted, not
rounded but for its sine. -/
def unroundedRad (c : Correction) (angle : Float) : ℚ :=
  value angle + value (Trig.radians c.amplitude) * value (c.swing angle) +
    value (Trig.radians c.offsetDeg)

/-- The magnitudes that go into a corrected angle. -/
def magnitude (c : Correction) (angle : Float) : ℚ :=
  |value angle| + |value c.amplitude| + |value c.offsetDeg|

variable {c : Correction} {angle : Float}

theorem magnitude_nonneg (c : Correction) (angle : Float) : 0 ≤ c.magnitude angle := by
  unfold magnitude
  positivity

theorem small_le : (4 : ℚ) ≤ 2 ^ 969 :=
  (by norm_num : (4 : ℚ) ≤ 2 ^ 2).trans (pow_le_pow_right₀ (by norm_num) (by norm_num))

namespace IsCoherent

/-- The argument of a sine is finite, so the sine is one. -/
theorem swing_bounds (h : c.IsCoherent) (hangle : angle.isFinite = true) :
    (c.swing angle).isFinite = true ∧ |value (c.swing angle)| ≤ 1 := by
  apply Trig.sine_bounds
  apply isFinite_add_of_small hangle h.phaseRad_finite
  exact h.abs_phaseRad_le.trans (pow_le_pow_right₀ (by norm_num) (by norm_num))

theorem abs_swing_mul_le (h : c.IsCoherent) (hangle : angle.isFinite = true) (v : ℚ) :
    |v * value (c.swing angle)| ≤ |v| := by
  rw [abs_mul]
  exact mul_le_of_le_one_right (abs_nonneg v) (h.swing_bounds hangle).2

theorem inDegrees_error (h : c.IsCoherent) (hangle : angle.isFinite = true) :
    (c.inDegrees angle).isFinite = true ∧
      |value (c.inDegrees angle) - c.unrounded angle| ≤ 4 * c.magnitude angle / 2 ^ 53 + underflow := by
  obtain ⟨hswing, hone⟩ := h.swing_bounds (Trig.isFinite_radians hangle).1
  exact abs_value_add_mul_add_sub_le hangle h.amplitude_finite h.offsetDeg_finite hswing hone
    (h.abs_amplitude_le.trans small_le) (h.abs_offsetDeg_le.trans small_le)

theorem hasValue_offsetRad (h : c.IsCoherent) :
    HasValue c.offsetRad (value (Trig.radians c.offsetDeg)) := by
  rw [h.offsetRad_eq]
  exact ⟨isNaN_of_isFinite (Trig.isFinite_radians h.offsetDeg_finite).1, rfl⟩

theorem hasValue_amplitudeRad (h : c.IsCoherent) :
    HasValue c.amplitudeRad (value (Trig.radians c.amplitude)) :=
  Trig.hasValue_radians_one_mul h.amplitude_finite

theorem inRadians_error (h : c.IsCoherent) (hangle : angle.isFinite = true) :
    (c.inRadians angle).isFinite = true ∧
      |value (c.inRadians angle) - c.unroundedRad angle| ≤
        4 * (|value angle| + |value (Trig.radians c.amplitude)| +
          |value (Trig.radians c.offsetDeg)|) / 2 ^ 53 + underflow := by
  obtain ⟨hswing, hone⟩ := h.swing_bounds hangle
  obtain ⟨hamplitude, hamplitude'⟩ := Trig.isFinite_radians h.amplitude_finite
  obtain ⟨hoffset, hoffset'⟩ := Trig.isFinite_radians h.offsetDeg_finite
  have hamplitudeRad := h.hasValue_amplitudeRad
  have hoffsetRad := h.hasValue_offsetRad
  unfold unroundedRad
  rw [← hamplitudeRad.value_eq] at hamplitude' ⊢
  rw [← hoffsetRad.value_eq] at hoffset' ⊢
  exact abs_value_add_mul_add_sub_le hangle
    (hamplitudeRad.isFinite (isFinite_iff.1 hamplitude).2)
    (hoffsetRad.isFinite (isFinite_iff.1 hoffset).2) hswing hone
    (hamplitude'.trans (h.abs_amplitude_le.trans small_le))
    (hoffset'.trans (h.abs_offsetDeg_le.trans small_le))

/-- The exact formula in radians, up to one rounding of each of its parts. -/
theorem abs_unroundedRad_sub_le (h : c.IsCoherent) (hangle : angle.isFinite = true) :
    |c.unroundedRad (Trig.radians angle) - c.unrounded angle * value Trig.degree| ≤
      c.magnitude angle * value Trig.degree / 2 ^ 53 + 3 * underflow := by
  have hangle' := Trig.abs_radians_sub_le hangle
  have hamplitude := Trig.abs_radians_sub_le h.amplitude_finite
  have hoffset := Trig.abs_radians_sub_le h.offsetDeg_finite
  have hswing := h.abs_swing_mul_le (Trig.isFinite_radians hangle).1
    (value (Trig.radians c.amplitude) - value c.amplitude * value Trig.degree)
  have hparts : c.unroundedRad (Trig.radians angle) - c.unrounded angle * value Trig.degree =
      value (Trig.radians angle) - value angle * value Trig.degree +
        (value (Trig.radians c.amplitude) - value c.amplitude * value Trig.degree) *
          value (c.swing (Trig.radians angle)) +
        (value (Trig.radians c.offsetDeg) - value c.offsetDeg * value Trig.degree) := by
    unfold unroundedRad unrounded
    ring
  rw [hparts, magnitude]
  refine (abs_add_three _ _ _).trans ?_
  linarith

/-- The radian form is the exact formula in radians, up to one rounding of each of its parts and
those of the sum. -/
theorem abs_inRadians_sub_le (h : c.IsCoherent) (hangle : angle.isFinite = true) :
    |value (c.inRadians (Trig.radians angle)) - c.unrounded angle * value Trig.degree| ≤
      6 * (c.magnitude angle * value Trig.degree) / 2 ^ 53 + 5 * underflow := by
  have hform := (h.inRadians_error (Trig.isFinite_radians hangle).1).2
  have hparts := h.abs_unroundedRad_sub_le hangle
  have hangle' := Trig.abs_radians_le hangle
  have hamplitude := Trig.abs_radians_le h.amplitude_finite
  have hoffset := Trig.abs_radians_le h.offsetDeg_finite
  have hnonneg := mul_nonneg (c.magnitude_nonneg angle) Trig.value_degree_pos.le
  have hpos := underflow_pos
  have htriangle := abs_sub_le (value (c.inRadians (Trig.radians angle)))
    (c.unroundedRad (Trig.radians angle)) (c.unrounded angle * value Trig.degree)
  unfold magnitude at *
  norm_num at hform hparts hangle' hamplitude hoffset ⊢
  linarith

end IsCoherent

namespace IsCoherent

end IsCoherent

end LidarAngle.Correction

import LidarAngle.Proofs.Correction.Forms
import LidarAngle.Reply.Adopt

/-!
# How far a correction moves an angle

A sine is at most one, so a correction moves an angle by no more than its amplitude and its offset
together. In a reply these are 16 bits wide each, whatever words stand for them, which makes less
than seven degrees.

## Main definitions

* `Calibration.reach` - how far a calibration can move an angle

## Main statements

* `Correction.abs_inDegrees_sub_le`, `Correction.abs_inRadians_sub_le` - how far its correction moves
  an angle
* `Reply.receive_reach` - the same of a correction that was received
-/

namespace LidarAngle

open Binary

namespace Calibration

variable (calibration : Calibration)

/-- The amplitude and the offset together, in degrees. -/
def reach : ℚ :=
  (|(calibration.amplitude.toInt : ℚ)| + |(calibration.offset.toInt : ℚ)|) / 10000

theorem reach_nonneg : 0 ≤ calibration.reach := by
  unfold reach
  positivity

theorem reach_le : calibration.reach ≤ 6.5536 := by
  have hamplitude : |(calibration.amplitude.toInt : ℚ)| ≤ 2 ^ 15 :=
    mod_cast calibration.abs_amplitude_le
  have hoffset : |(calibration.offset.toInt : ℚ)| ≤ 2 ^ 15 := mod_cast calibration.abs_offset_le
  rw [reach, div_le_iff₀ (by norm_num)]
  norm_num at hamplitude hoffset ⊢
  linarith

end Calibration

namespace Correction

namespace IsCoherent

variable {c : Correction} {angle : Float} (h : c.IsCoherent) (hangle : angle.isFinite = true)
include h hangle

theorem abs_unrounded_sub_le :
    |c.unrounded angle - value angle| ≤ |value c.amplitude| + |value c.offsetDeg| := by
  have hswing := h.abs_swing_mul_le (Trig.isFinite_radians hangle).1 (value c.amplitude)
  rw [unrounded, add_assoc, add_sub_cancel_left]
  exact (abs_add_le _ _).trans (add_le_add_left hswing _)

theorem abs_unroundedRad_sub_angle_le :
    |c.unroundedRad angle - value angle| ≤
      |value (Trig.radians c.amplitude)| + |value (Trig.radians c.offsetDeg)| := by
  have hswing := h.abs_swing_mul_le hangle (value (Trig.radians c.amplitude))
  rw [unroundedRad, add_assoc, add_sub_cancel_left]
  exact (abs_add_le _ _).trans (add_le_add_left hswing _)

end IsCoherent

section OfCalibration

variable (calibration : Calibration)

/-- The figures of a correction are off by two roundings each. -/
theorem abs_figures_le :
    |value (ofCalibration calibration).amplitude| + |value (ofCalibration calibration).offsetDeg| ≤
      calibration.reach * (1 + 3 / 2 ^ 53) + 2 * underflow := by
  have hamplitude := abs_value_scale_le calibration.abs_amplitude_le_wide
  have hoffset := abs_value_scale_le calibration.abs_offset_le_wide
  unfold Calibration.reach
  change |value (scale _)| + |value (scale _)| ≤ _
  linarith

variable {angle : Float} (hangle : angle.isFinite = true)
include hangle

/-- The degree form, with all of its roundings. -/
theorem abs_inDegrees_sub_le :
    |value ((ofCalibration calibration).inDegrees angle) - value angle| ≤
      calibration.reach + (|value angle| + 8) / 2 ^ 50 := by
  have hcoherent := isCoherent_ofCalibration calibration
  have herror := (hcoherent.inDegrees_error hangle).2
  have hmoved := hcoherent.abs_unrounded_sub_le hangle
  have hfigures := abs_figures_le calibration
  have hreach := calibration.reach_le
  have hangle' := abs_nonneg (value angle)
  have hsmall := underflow_mul_two_pow_le (m := 0) (n := 60) (by norm_num)
  have htriangle := abs_sub_le (value ((ofCalibration calibration).inDegrees angle))
    ((ofCalibration calibration).unrounded angle) (value angle)
  unfold magnitude at herror
  norm_num at herror hfigures hreach hsmall ⊢
  linarith

/-- The radian form, in which amplitude and offset are converted with a rounding each. -/
theorem abs_inRadians_sub_le :
    |value ((ofCalibration calibration).inRadians angle) - value angle| ≤
      calibration.reach * value Trig.degree + (|value angle| + 1) / 2 ^ 50 := by
  have hcoherent := isCoherent_ofCalibration calibration
  have herror := (hcoherent.inRadians_error hangle).2
  have hmoved := hcoherent.abs_unroundedRad_sub_angle_le hangle
  have hamplitude := Trig.abs_radians_le hcoherent.amplitude_finite
  have hoffset := Trig.abs_radians_le hcoherent.offsetDeg_finite
  have hfigures := mul_le_mul_of_nonneg_right (abs_figures_le calibration) Trig.value_degree_pos.le
  have hreach : calibration.reach * value Trig.degree ≤ 6.5536 * (1 / 57) :=
    mul_le_mul calibration.reach_le Trig.value_degree_le Trig.value_degree_pos.le (by norm_num)
  have hlost : underflow * value Trig.degree ≤ underflow * (1 / 57) :=
    mul_le_mul_of_nonneg_left Trig.value_degree_le underflow_pos.le
  have hangle' := abs_nonneg (value angle)
  have hsmall := underflow_mul_two_pow_le (m := 0) (n := 60) (by norm_num)
  have htriangle := abs_sub_le (value ((ofCalibration calibration).inRadians angle))
    ((ofCalibration calibration).unroundedRad angle) (value angle)
  norm_num at herror hamplitude hoffset hfigures hreach hlost hsmall ⊢
  linarith

end OfCalibration

end Correction

/-- Whatever words an accepted reply has, its correction moves an angle by no more than the low
bits of its amplitude and of its offset allow, and the result is finite in either unit. -/
theorem Reply.receive_reach {framing : Framing} {reply : List UInt8} {c : Correction}
    (h : (receive framing reply).result = .ok c) :
    ∃ calibration, (decode framing reply).result = .ok calibration ∧
      ∀ angle, angle.isFinite = true →
        (c.inDegrees angle).isFinite = true ∧
        |value (c.inDegrees angle) - value angle| ≤
          (|(calibration.amplitude.toInt : ℚ)| + |(calibration.offset.toInt : ℚ)|) / 10000 +
            (|value angle| + 8) / 2 ^ 50 ∧
        |value (c.inDegrees angle) - value angle| ≤ 6.5536 + (|value angle| + 8) / 2 ^ 50 ∧
        (c.inRadians angle).isFinite = true ∧
        |(value (c.inRadians angle) - value angle : ℝ)| ≤
          (|(calibration.amplitude.toInt : ℝ)| + |(calibration.offset.toInt : ℝ)|) / 10000 *
            (Real.pi / 180) + (|(value angle : ℝ)| + 1) / 2 ^ 50 := by
  rw [result_receive] at h
  cases hdecode : (decode framing reply).result with
  | error fault =>
    rw [hdecode] at h
    exact nomatch h
  | ok calibration =>
    rw [hdecode] at h
    obtain rfl := Except.ok.inj h
    refine ⟨calibration, rfl, fun angle hangle => ?_⟩
    have hcoherent := Correction.isCoherent_ofCalibration calibration
    have hdegrees := Correction.abs_inDegrees_sub_le calibration hangle
    have hradians : (|value ((Correction.ofCalibration calibration).inRadians angle) -
        value angle| : ℝ) ≤
          calibration.reach * value Trig.degree + (|(value angle : ℝ)| + 1) / 2 ^ 50 :=
      mod_cast Correction.abs_inRadians_sub_le calibration hangle
    have hpi : (calibration.reach : ℝ) * value Trig.degree ≤ calibration.reach * (Real.pi / 180) :=
      mul_le_mul_of_nonneg_left Trig.degree_le_pi (mod_cast calibration.reach_nonneg)
    refine ⟨(hcoherent.inDegrees_error hangle).1, hdegrees,
      hdegrees.trans (by linarith [calibration.reach_le]),
      (hcoherent.inRadians_error hangle).1, ?_⟩
    rw [Calibration.reach] at hpi hradians
    push_cast at hpi hradians
    exact hradians.trans (by linarith)

/-- Words that are far wider than a calibration. -/
theorem Reply.receive_reach_wide :
    (receive .ascii (Text.utf8 "a b FFFFFFFFFFFF8000 12 0x10007FFF".toList)).result =
        .ok (.ofCalibration ⟨-32768, 18, 32767⟩) ∧
      (1e300 : Float).isFinite = true ∧
      |value ((Correction.ofCalibration ⟨-32768, 18, 32767⟩).inDegrees 1e300) - value 1e300| ≤
        6.5536 + (|value 1e300| + 8) / 2 ^ 50 := by
  have hreceive : (receive .ascii
      (Text.utf8 "a b FFFFFFFFFFFF8000 12 0x10007FFF".toList)).result =
        .ok (.ofCalibration ⟨-32768, 18, 32767⟩) := by
    rw [result_receive]
    decide
  obtain ⟨_, -, hreach⟩ := receive_reach hreceive
  have hfinite : (1e300 : Float).isFinite = true := by decide +kernel
  exact ⟨hreceive, hfinite, (hreach _ hfinite).2.2.1⟩

end LidarAngle

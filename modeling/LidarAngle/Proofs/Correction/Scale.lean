import LidarAngle.Correction
import LidarAngle.Proofs.Trig

/-!
# Calibrations in engineering units

The worth of a unit of a calibration is not a binary number, so the figures of a correction are off
by two roundings, that of the unit and that of the product. All of them are small.

## Main definitions

* `Correction.IsCoherent` - what the figures of a correction are like if they are from a calibration

## Main statements

* `Correction.abs_value_scale_sub_le` - the error of a figure
* `Correction.value_scale_eq_zero_iff` - only no units at all are nothing
* `Correction.isCoherent_ofCalibration` - corrections of calibrations
-/

namespace LidarAngle

namespace Binary

theorem hasValue_ofInt {n : ℤ} (h : |n| < 2 ^ 53) : HasValue (Float.ofInt n) n := by
  cases n with
  | ofNat n =>
    have hn : n < 2 ^ 53 := by simpa using h
    exact hasValue_ofNat hn
  | negSucc n =>
    have hn : n.succ < 2 ^ 53 := by
      rw [abs_of_neg (Int.negSucc_lt_zero n)] at h
      omega
    rw [Int.cast_negSucc]
    exact hasValue_neg (hasValue_ofNat hn)

theorem isFinite_ofInt {n : ℤ} (h : |n| < 2 ^ 53) : (Float.ofInt n).isFinite = true := by
  have hlt : |(n : ℚ)| < 2 ^ 53 := by exact_mod_cast h
  exact (hasValue_ofInt h).isFinite (hlt.trans_le (two_pow_le_limit (by norm_num)))

end Binary

namespace Calibration

variable (calibration : Calibration)

theorem abs_amplitude_le : |calibration.amplitude.toInt| ≤ 2 ^ 15 :=
  abs_le.2 ⟨calibration.amplitude.le_toInt, calibration.amplitude.toInt_lt.le⟩

theorem abs_phase_le : |calibration.phase.toInt| ≤ 2 ^ 31 :=
  abs_le.2 ⟨calibration.phase.le_toInt, calibration.phase.toInt_lt.le⟩

theorem abs_offset_le : |calibration.offset.toInt| ≤ 2 ^ 15 :=
  abs_le.2 ⟨calibration.offset.le_toInt, calibration.offset.toInt_lt.le⟩

/-- The amplitude is in the range of the phase, too. -/
theorem abs_amplitude_le_wide : |calibration.amplitude.toInt| ≤ 2 ^ 31 :=
  calibration.abs_amplitude_le.trans (by norm_num)

/-- The offset is in the range of the phase, too. -/
theorem abs_offset_le_wide : |calibration.offset.toInt| ≤ 2 ^ 31 :=
  calibration.abs_offset_le.trans (by norm_num)

end Calibration

namespace Correction

open Binary

theorem value_unit : value unit = 7378697629483821 * 2 ^ (-66 : ℤ) := by
  have hbits : unit = Float.ofBits 0x3F1A36E2EB1C432D := by decide
  rw [hbits]
  exact one_mul _

theorem isFinite_unit : unit.isFinite = true := by
  decide

theorem abs_value_unit_sub_le : |value unit - 1 / 10000| ≤ 1 / 10000 / 2 ^ 53 := by
  rw [value_unit]
  norm_num [abs_le]

theorem abs_value_unit_le : |value unit| ≤ 2 / 10000 := by
  rw [value_unit]
  norm_num [abs_le]

section Scale

variable {n : ℤ} (h : |n| ≤ 2 ^ 31)
include h

theorem isFinite_scale : (scale n).isFinite = true := by
  apply (isFinite_mul_of_le_one (isFinite_ofInt (by omega)) isFinite_unit _).1
  rw [value_unit]
  norm_num [abs_le]

/-- A figure of a correction is off by two roundings. -/
theorem abs_value_scale_sub_le :
    |value (scale n) - n / 10000| ≤ 3 * (|(n : ℚ)| / 10000) / 2 ^ 53 + underflow := by
  have hnonneg := abs_nonneg (n : ℚ)
  have hproduct := abs_value_mul_sub_le (isFinite_ofInt (by omega)) isFinite_unit (isFinite_scale h)
  have hsize := mul_le_mul_of_nonneg_left abs_value_unit_le hnonneg
  have hunit := mul_le_mul_of_nonneg_left abs_value_unit_sub_le hnonneg
  have htriangle := abs_sub_le (value (scale n)) (n * value unit) (n / 10000)
  have hexact : (n : ℚ) * value unit - n / 10000 = n * (value unit - 1 / 10000) := by ring
  rw [(hasValue_ofInt (by omega)).value_eq, abs_mul] at hproduct
  rw [hexact, abs_mul] at htriangle
  change |value (scale n) - n * value unit| ≤ _ at hproduct
  norm_num at hproduct hsize hunit ⊢
  linarith

theorem abs_value_scale_le :
    |value (scale n)| ≤ |(n : ℚ)| / 10000 * (1 + 3 / 2 ^ 53) + underflow := by
  have herror := abs_value_scale_sub_le h
  have hsize := abs_sub_abs_le_abs_sub (value (scale n)) (n / 10000 : ℚ)
  have hten : |(n : ℚ) / 10000| = |(n : ℚ)| / 10000 := abs_div _ _
  rw [hten] at hsize
  linarith

theorem value_scale_eq_zero_iff : value (scale n) = 0 ↔ n = 0 := by
  constructor
  · intro hzero
    have herror := abs_value_scale_sub_le h
    have hsmall := underflow_mul_two_pow_le (m := 0) (n := 20) (by norm_num)
    by_contra hne
    have hone : (1 : ℚ) ≤ |(n : ℚ)| := by exact_mod_cast Int.one_le_abs hne
    have hten : |(n : ℚ) / 10000| = |(n : ℚ)| / 10000 := abs_div _ _
    rw [hzero, zero_sub, abs_neg, hten] at herror
    norm_num at herror hsmall
    linarith
  · rintro rfl
    decide

end Scale

/-- The figures are finite and small, and the offset is the same in both units. -/
structure IsCoherent (c : Correction) : Prop where
  amplitude_finite : c.amplitude.isFinite = true
  abs_amplitude_le : |value c.amplitude| ≤ 4
  phaseRad_finite : c.phaseRad.isFinite = true
  abs_phaseRad_le : |value c.phaseRad| ≤ 2 ^ 20
  offsetDeg_finite : c.offsetDeg.isFinite = true
  abs_offsetDeg_le : |value c.offsetDeg| ≤ 4
  offsetRad_eq : c.offsetRad = Trig.radians c.offsetDeg

theorem abs_value_scale_le_of_le {n bound : ℤ} (h : |n| ≤ bound) (hbound : bound ≤ 2 ^ 31) :
    |value (scale n)| ≤ bound / 10000 + 1 / 2 := by
  have hsize := abs_value_scale_le (h.trans hbound)
  have hsmall := underflow_mul_two_pow_le (m := 0) (n := 20) (by norm_num)
  have hunits : |(n : ℚ)| ≤ bound := by exact_mod_cast h
  have hmost : (bound : ℚ) ≤ 2 ^ 31 := by exact_mod_cast hbound
  norm_num at hsize hsmall hmost
  linarith

theorem isCoherent_ofCalibration (calibration : Calibration) :
    (ofCalibration calibration).IsCoherent := by
  have hamplitude := calibration.abs_amplitude_le
  have hphase := calibration.abs_phase_le
  have hoffset := calibration.abs_offset_le
  have hphaseDeg := isFinite_scale hphase
  obtain ⟨hphaseRad, hle⟩ := Trig.isFinite_radians hphaseDeg
  exact {
    amplitude_finite := isFinite_scale calibration.abs_amplitude_le_wide
    abs_amplitude_le := (abs_value_scale_le_of_le hamplitude (by norm_num)).trans (by norm_num)
    phaseRad_finite := hphaseRad
    abs_phaseRad_le := hle.trans ((abs_value_scale_le_of_le hphase le_rfl).trans (by norm_num))
    offsetDeg_finite := isFinite_scale calibration.abs_offset_le_wide
    abs_offsetDeg_le := (abs_value_scale_le_of_le hoffset (by norm_num)).trans (by norm_num)
    offsetRad_eq := rfl }

end Correction

end LidarAngle

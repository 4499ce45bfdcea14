import LidarAngle.Proofs.Sweep.Grid
import LidarAngle.Proofs.Table.Lines

/-!
# Corrections that move no angle

A correction whose amplitude and offset are zero adds zeros of some sign to an angle, whatever its
phase is. So the result is the angle itself, except that the negative zero may become the positive
one. No row of a table has the negative zero for its angle, so its columns do not even show that.

## Main statements

* `Correction.isIdentity_iff` - the calibrations whose corrections are so
* `Correction.IsCoherent.hasValue_inDegrees`, `Correction.IsCoherent.hasValue_inRadians` - the
  corrected angle is the same number
* `Correction.IsCoherent.inDegrees_eq` - and the same binary number in a row
* `Correction.identity_spec` - all of this for a calibration, and the tables
-/

namespace LidarAngle.Correction

open Binary

section Calibration

variable (calibration : Calibration)

/-- No units but zero of them are scaled to zero. -/
theorem scale_beq_zero_iff {n : ℤ} (h : |n| ≤ 2 ^ 31) : (scale n == 0) = true ↔ n = 0 := by
  have hzero : HasValue 0 0 := hasValue_zero .positive
  rw [beq_iff, hzero.value_eq, and_iff_right (isNaN_of_isFinite (isFinite_scale h)),
    and_iff_right hzero.isNaN_eq, value_scale_eq_zero_iff h]

theorem isIdentity_iff :
    (ofCalibration calibration).isIdentity = true ↔
      calibration.amplitude = 0 ∧ calibration.offset = 0 := by
  have hamplitude := scale_beq_zero_iff calibration.abs_amplitude_le_wide
  have hoffset := scale_beq_zero_iff calibration.abs_offset_le_wide
  rw [← Int16.toInt_inj, ← Int16.toInt_inj, Int16.toInt_zero, ← hamplitude, ← hoffset, isIdentity,
    Bool.and_eq_true]
  rfl

end Calibration

variable {c : Correction} {angle : Float}

/-- Amplitude and offset are zeros. -/
structure HasNoFigures (c : Correction) : Prop where
  amplitude : HasValue c.amplitude 0
  offsetDeg : HasValue c.offsetDeg 0

theorem hasNoFigures (h : c.isIdentity = true) : c.HasNoFigures := by
  have hzero : value 0 = 0 := rfl
  obtain ⟨hamplitude, hoffset⟩ := Bool.and_eq_true_iff.1 h
  rw [beq_iff, hzero] at hamplitude hoffset
  exact ⟨⟨hamplitude.1, hamplitude.2.2⟩, ⟨hoffset.1, hoffset.2.2⟩⟩

namespace IsCoherent

/-- The swing of the degree form is a zero of some sign. -/
theorem hasValue_swing (h : c.IsCoherent) (hnone : c.HasNoFigures) (hangle : angle.isFinite = true) :
    HasValue (c.amplitude * c.swing (Trig.radians angle)) 0 :=
  hasValue_mul_of_zero hnone.amplitude (h.swing_bounds (Trig.isFinite_radians hangle).1).1

theorem hasValue_inDegrees (h : c.IsCoherent) (hnone : c.HasNoFigures)
    (hangle : angle.isFinite = true) : HasValue (c.inDegrees angle) (value angle) := by
  have hsum := hasValue_add_of_zero hangle (h.hasValue_swing hnone hangle)
  have hfinite := hsum.isFinite (isFinite_iff.1 hangle).2
  have hwhole := hasValue_add_of_zero hfinite hnone.offsetDeg
  rwa [hsum.value_eq] at hwhole

theorem hasValue_inRadians (h : c.IsCoherent) (hnone : c.HasNoFigures)
    (hangle : angle.isFinite = true) : HasValue (c.inRadians angle) (value angle) := by
  have hconverted : ∀ {x : Float}, HasValue x 0 → HasValue (Trig.radians x) 0 :=
    fun hx => hasValue_mul_of_zero hx Trig.isFinite_degree
  have hamplitude : HasValue c.amplitudeRad 0 :=
    (hconverted hnone.amplitude).value_eq ▸ h.hasValue_amplitudeRad
  have hoffset : HasValue c.offsetRad 0 :=
    (hconverted hnone.offsetDeg).value_eq ▸ h.hasValue_offsetRad
  have hswing := hasValue_mul_of_zero hamplitude (h.swing_bounds hangle).1
  have hsum := hasValue_add_of_zero hangle hswing
  have hfinite := hsum.isFinite (isFinite_iff.1 hangle).2
  have hwhole := hasValue_add_of_zero hfinite hoffset
  rwa [hsum.value_eq] at hwhole

/-- An angle that is not the negative zero is left as it is, bit by bit. -/
theorem inDegrees_eq (h : c.IsCoherent) (hnone : c.HasNoFigures) (hangle : angle.isFinite = true)
    (hne : angle ≠ -0) : c.inDegrees angle = angle := by
  calc c.inDegrees angle
      = angle + c.amplitude * c.swing (Trig.radians angle) + c.offsetDeg := rfl
    _ = angle + c.offsetDeg := by rw [add_eq_self hangle hne (h.hasValue_swing hnone hangle)]
    _ = angle := add_eq_self hangle hne hnone.offsetDeg

/-- A row of an angle that is left as it is. -/
theorem columns_eq (h : c.IsCoherent) (hnone : c.HasNoFigures) (hangle : angle.isFinite = true)
    (hne : angle ≠ -0) :
    (Table.line c angle).splitOn ';' =
      [Table.cell angle, Table.cell angle, "  0.000000".toList] := by
  have hzero : Table.cell 0 = "  0.000000".toList := by decide
  rw [Table.splitOn_line, h.inDegrees_eq hnone hangle hne, sub_eq_zero hangle, hzero]

end IsCoherent

/-- The correction of a calibration leaves every angle where it is just if the calibration has
neither an amplitude nor an offset, and then its tables show as much. -/
theorem identity_spec (calibration : Calibration) {c : Correction}
    (hc : c = .ofCalibration calibration) :
    (c.isIdentity = true ↔ calibration.amplitude = 0 ∧ calibration.offset = 0) ∧
    (c.isIdentity = true →
      (∀ angle : Float, angle.isFinite = true →
        (c.inDegrees angle == angle) = true ∧ (c.inRadians angle == angle) = true) ∧
      ∀ (sweep : Sweep) (angles : List Float), sweep.angles = .ok angles →
        ∃ lines, (Table.write c sweep {}).result =
            ({ held := Text.bytes (Table.text c angles) }, .ok angles.length) ∧
          (Table.text c angles).splitOn '\n' =
            "Input   ;Output  ;Correction".toList :: (lines ++ [[]]) ∧
          List.Forall₂ (fun angle line => angle.isFinite = true → ∃ input output,
            line.splitOn ';' = [input, output, "  0.000000".toList] ∧
              input = Table.cell angle ∧ output = input) angles lines) := by
  subst hc
  refine ⟨isIdentity_iff calibration, fun h => ?_⟩
  have hcoherent := isCoherent_ofCalibration calibration
  have hnone := hasNoFigures h
  refine ⟨fun angle hangle => ?_, fun sweep angles hangles => ?_⟩
  · have hdegrees := hcoherent.hasValue_inDegrees hnone hangle
    have hradians := hcoherent.hasValue_inRadians hnone hangle
    have hnan := isNaN_of_isFinite hangle
    exact ⟨beq_iff.2 ⟨hdegrees.isNaN_eq, hnan, hdegrees.value_eq⟩,
      beq_iff.2 ⟨hradians.isNaN_eq, hnan, hradians.value_eq⟩⟩
  · refine ⟨angles.map (Table.line _), ?_, Table.splitOn_text _ angles, ?_⟩
    · rw [Table.result_write_of_unlimited rfl rfl hangles, ByteArray.empty_append]
    · rw [List.forall₂_map_right_iff, List.forall₂_same]
      intro angle hmem hangle
      have haccepted := Sweep.isAccepted_of_rows (Sweep.length_of_angles hangles)
      obtain ⟨row, hrow, rfl⟩ := Sweep.exists_angle_eq_of_mem hangles hmem
      exact ⟨_, _, hcoherent.columns_eq hnone hangle (haccepted.angle_ne_neg_zero hrow hangle),
        rfl, rfl⟩

/-- A correction of nothing but a phase, from the negative zero on. -/
theorem identity_spec_phase :
    (ofCalibration ⟨0, -1800000, 0⟩).isIdentity = true ∧
      ((ofCalibration ⟨0, -1800000, 0⟩).inRadians 1e300 == 1e300) = true ∧
      ({ start := -0, stop := 1, step := 1 } : Sweep).angles = .ok [0, 1] ∧
      ∃ lines, (Table.text (ofCalibration ⟨0, -1800000, 0⟩) [0, 1]).splitOn '\n' =
          "Input   ;Output  ;Correction".toList :: (lines ++ [[]]) ∧
        ∀ line ∈ lines, ∃ input output,
          line.splitOn ';' = [input, output, "  0.000000".toList] ∧ output = input := by
  have hangles : ({ start := -0, stop := 1, step := 1 } : Sweep).angles = .ok [0, 1] := by
    decide
  have hfinite : (0 : Float).isFinite = true ∧ (1 : Float).isFinite = true ∧
      (1e300 : Float).isFinite = true := by
    decide +kernel
  obtain ⟨hiff, hidentity⟩ := identity_spec ⟨0, -1800000, 0⟩ rfl
  have htrue := hiff.2 ⟨rfl, rfl⟩
  obtain ⟨hsame, htables⟩ := hidentity htrue
  obtain ⟨lines, -, hlines, hrows⟩ := htables _ _ hangles
  refine ⟨htrue, (hsame _ hfinite.2.2).2, hangles, lines, hlines, ?_⟩
  cases hrows with
  | cons hzero hrest =>
    cases hrest with
    | cons hone hnil =>
      cases hnil
      rw [List.forall_mem_cons, List.forall_mem_singleton]
      obtain ⟨_, _, hzero', -, hout⟩ := hzero hfinite.1
      obtain ⟨_, _, hone', -, hout'⟩ := hone hfinite.2.1
      exact ⟨⟨_, _, hzero', hout⟩, ⟨_, _, hone', hout'⟩⟩

end LidarAngle.Correction

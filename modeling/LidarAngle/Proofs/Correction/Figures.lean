import LidarAngle.Proofs.Correction.Scale
import LidarAngle.Proofs.Decimal.Column
import LidarAngle.Proofs.Session.Step

/-!
# Figures of corrections

The figures of a correction are not the numbers that a calibration means, as these are not binary.
They are so near that with four decimal places they are written as if they were. So a correction
tells the calibration that it is from, and two accepted replies leave the same correction only if
they decode to the same calibration.

## Main definitions

* `Correction.sameFigures` - two corrections with the same numbers for figures

## Main statements

* `Correction.fixed_scale` - how a figure is written
* `Correction.sameFigures_ofCalibration` - figures tell calibrations apart
* `Correction.ofCalibration_lossless` - all of this, and what accepted replies leave
-/

namespace LidarAngle.Correction

open Binary

theorem scale_zero : scale 0 = 0 := by
  decide

section Scale

variable {n m : ℤ} (h : |n| ≤ 2 ^ 31)
include h

/-- The error of a figure is far below half a unit. -/
theorem nearest_value_scale : nearest (value (scale n) * 10 ^ 4) = n := by
  have hunits : |(n : ℚ)| ≤ 2 ^ 31 := by exact_mod_cast h
  have hsmall := underflow_mul_two_pow_le (m := 0) (n := 20) (by norm_num)
  obtain ⟨hlow, hhigh⟩ := abs_le.1 (abs_value_scale_sub_le h)
  have hnear : |n - value (scale n) * 10 ^ 4| < 1 / 2 := by
    norm_num at hunits hsmall hlow hhigh ⊢
    rw [abs_lt]
    constructor
    · linarith
    · linarith
  exact nearest_eq hnear.le fun hhalf => absurd hhalf hnear.ne

/-- A figure is written as the decimal of its units, and none of them as a zero with a sign. -/
theorem fixed_scale : Decimal.fixed 4 (scale n) = Decimal.ofCount 4 n := by
  have hnearest := nearest_value_scale h
  have hzero : nearest (value (scale n) * 10 ^ 4) = 0 → scale n = 0 := by
    intro hnone
    rw [hnearest] at hnone
    rw [hnone, scale_zero]
  have hfixed := Decimal.fixed_eq_ofCount (isFinite_scale h) hzero
  rwa [hnearest] at hfixed

theorem eq_of_scale_beq (hm : |m| ≤ 2 ^ 31) (hbeq : (scale n == scale m) = true) : n = m := by
  obtain ⟨-, -, hvalue⟩ := beq_iff.1 hbeq
  rw [← nearest_value_scale h, hvalue, nearest_value_scale hm]

end Scale

/-- The figures of two corrections are the same numbers. -/
def sameFigures (c d : Correction) : Bool :=
  c.amplitude == d.amplitude && c.phaseDeg == d.phaseDeg && c.phaseRad == d.phaseRad &&
    c.offsetDeg == d.offsetDeg && c.offsetRad == d.offsetRad

theorem sameFigures_self (calibration : Calibration) :
    (ofCalibration calibration).sameFigures (ofCalibration calibration) = true := by
  have hfigure : ∀ {n : ℤ}, |n| ≤ 2 ^ 31 →
      (scale n == scale n) = true ∧ (Trig.radians (scale n) == Trig.radians (scale n)) = true :=
    fun hn => ⟨beq_self (isFinite_scale hn), beq_self (Trig.isFinite_radians (isFinite_scale hn)).1⟩
  obtain ⟨hamplitude, -⟩ := hfigure calibration.abs_amplitude_le_wide
  obtain ⟨hphaseDeg, hphaseRad⟩ := hfigure calibration.abs_phase_le
  obtain ⟨hoffsetDeg, hoffsetRad⟩ := hfigure calibration.abs_offset_le_wide
  simp only [sameFigures, Bool.and_eq_true]
  exact ⟨⟨⟨⟨hamplitude, hphaseDeg⟩, hphaseRad⟩, hoffsetDeg⟩, hoffsetRad⟩

/-- The figures of different calibrations are different numbers. -/
theorem sameFigures_ofCalibration (a b : Calibration) :
    (ofCalibration a).sameFigures (ofCalibration b) = true ↔ a = b := by
  constructor
  · intro h
    simp only [sameFigures, Bool.and_eq_true] at h
    obtain ⟨⟨⟨⟨hamplitude, hphase⟩, -⟩, hoffset⟩, -⟩ := h
    have hamplitude := eq_of_scale_beq a.abs_amplitude_le_wide b.abs_amplitude_le_wide hamplitude
    have hphase := eq_of_scale_beq a.abs_phase_le b.abs_phase_le hphase
    have hoffset := eq_of_scale_beq a.abs_offset_le_wide b.abs_offset_le_wide hoffset
    rw [Int16.toInt_inj] at hamplitude hoffset
    rw [Int32.toInt_inj] at hphase
    rw [Calibration.mk.injEq]
    exact ⟨hamplitude, hphase, hoffset⟩
  · rintro rfl
    exact sameFigures_self a

theorem ofCalibration_injective : Function.Injective ofCalibration := by
  intro a b h
  rw [← sameFigures_ofCalibration, h]
  exact sameFigures_self b

section Log

variable (calibration : Calibration)

theorem fixed_ofCalibration :
    Decimal.fixed 4 (ofCalibration calibration).amplitude =
        Decimal.ofCount 4 calibration.amplitude.toInt ∧
      Decimal.fixed 4 (ofCalibration calibration).phaseDeg =
        Decimal.ofCount 4 calibration.phase.toInt ∧
      Decimal.fixed 4 (ofCalibration calibration).offsetDeg =
        Decimal.ofCount 4 calibration.offset.toInt :=
  ⟨fixed_scale calibration.abs_amplitude_le_wide, fixed_scale calibration.abs_phase_le,
    fixed_scale calibration.abs_offset_le_wide⟩

theorem message_adopted :
    (Log.Event.adopted (ofCalibration calibration)).message =
      "Angle compensation: ampl=" ++
        String.ofList (Decimal.ofCount 4 calibration.amplitude.toInt) ++
        " phase=" ++ String.ofList (Decimal.ofCount 4 calibration.phase.toInt) ++
        "deg offset=" ++ String.ofList (Decimal.ofCount 4 calibration.offset.toInt) ++ "deg" := by
  obtain ⟨hamplitude, hphase, hoffset⟩ := fixed_ofCalibration calibration
  rw [← hamplitude, ← hphase, ← hoffset]
  rfl

theorem message_inForce :
    (Log.Event.inForce (ofCalibration calibration)).message =
      "Amplitude " ++ String.ofList (Decimal.ofCount 4 calibration.amplitude.toInt) ++
        ", phase " ++ String.ofList (Decimal.ofCount 4 calibration.phase.toInt) ++
        " deg, offset " ++ String.ofList (Decimal.ofCount 4 calibration.offset.toInt) ++
        " deg" := by
  obtain ⟨hamplitude, hphase, hoffset⟩ := fixed_ofCalibration calibration
  rw [← hamplitude, ← hphase, ← hoffset]
  rfl

end Log

/-- With four decimal places the figures of a correction are written as the integers of the
calibration with the last four digits behind the point, and so they are logged. Different
calibrations have different corrections, even if only the numbers are compared. Accepted replies
leave corrections that are the same exactly if the replies decode to the same calibration. -/
theorem ofCalibration_lossless :
    (∀ calibration : Calibration,
      Decimal.fixed 4 (ofCalibration calibration).amplitude =
        Decimal.ofCount 4 calibration.amplitude.toInt ∧
      Decimal.fixed 4 (ofCalibration calibration).phaseDeg =
        Decimal.ofCount 4 calibration.phase.toInt ∧
      Decimal.fixed 4 (ofCalibration calibration).offsetDeg =
        Decimal.ofCount 4 calibration.offset.toInt ∧
      (Log.Event.adopted (ofCalibration calibration)).message =
        "Angle compensation: ampl=" ++
          String.ofList (Decimal.ofCount 4 calibration.amplitude.toInt) ++
          " phase=" ++ String.ofList (Decimal.ofCount 4 calibration.phase.toInt) ++
          "deg offset=" ++ String.ofList (Decimal.ofCount 4 calibration.offset.toInt) ++ "deg" ∧
      (Log.Event.inForce (ofCalibration calibration)).message =
        "Amplitude " ++ String.ofList (Decimal.ofCount 4 calibration.amplitude.toInt) ++
          ", phase " ++ String.ofList (Decimal.ofCount 4 calibration.phase.toInt) ++
          " deg, offset " ++ String.ofList (Decimal.ofCount 4 calibration.offset.toInt) ++
          " deg") ∧
    Function.Injective ofCalibration ∧
    (∀ a b : Calibration, (ofCalibration a).sameFigures (ofCalibration b) = true ↔ a = b) ∧
    ∀ {outcome outcome' c c'}, Session.LeftBy outcome c → Session.LeftBy outcome' c' →
      (c = c' ↔ outcome = outcome') ∧ (c.sameFigures c' = true ↔ outcome = outcome') := by
  refine ⟨fun calibration => ?_, ofCalibration_injective, sameFigures_ofCalibration, ?_⟩
  · obtain ⟨hamplitude, hphase, hoffset⟩ := fixed_ofCalibration calibration
    exact ⟨hamplitude, hphase, hoffset, message_adopted calibration, message_inForce calibration⟩
  · intro outcome outcome' c c' h h'
    obtain ⟨a, rfl, rfl⟩ := h.exists_calibration
    obtain ⟨b, rfl, rfl⟩ := h'.exists_calibration
    rw [sameFigures_ofCalibration, ofCalibration_injective.eq_iff, Except.ok.injEq]
    exact ⟨Iff.rfl, Iff.rfl⟩

/-- Extreme figures and a zero; and a text and a binary reply that are one unit apart. -/
theorem ofCalibration_lossless_extremes :
    Decimal.fixed 4 (ofCalibration ⟨-32768, 2147483647, 0⟩).amplitude = "-3.2768".toList ∧
      Decimal.fixed 4 (ofCalibration ⟨-32768, 2147483647, 0⟩).phaseDeg = "214748.3647".toList ∧
      Decimal.fixed 4 (ofCalibration ⟨-32768, 2147483647, 0⟩).offsetDeg = "0.0000".toList ∧
      Session.LeftBy (.ok ⟨-32768, 2147483647, 0⟩) (ofCalibration ⟨-32768, 2147483647, 0⟩) ∧
      Session.LeftBy (.ok ⟨-32768, 2147483646, 0⟩) (ofCalibration ⟨-32768, 2147483646, 0⟩) ∧
      ofCalibration ⟨-32768, 2147483647, 0⟩ ≠ ofCalibration ⟨-32768, 2147483646, 0⟩ := by
  obtain ⟨hfigures, -, -, hreplies⟩ := ofCalibration_lossless
  obtain ⟨hamplitude, hphase, hoffset, -, -⟩ := hfigures ⟨-32768, 2147483647, 0⟩
  have htext : Session.LeftBy (.ok ⟨-32768, 2147483647, 0⟩)
      (ofCalibration ⟨-32768, 2147483647, 0⟩) :=
    Session.leftBy_start (show (Session.Action.receiveText "a b 8000 7FFFFFFF +0".toList).decoded? =
      some (.ok ⟨-32768, 2147483647, 0⟩) from congrArg some (by decide)) true .neutral
  have hbinary : Session.LeftBy (.ok ⟨-32768, 2147483646, 0⟩)
      (ofCalibration ⟨-32768, 2147483646, 0⟩) :=
    Session.leftBy_start (show (Session.Action.receive .binary (Reply.compose "a b ".toList
      ⟨-32768, 2147483646, 0⟩)).decoded? = some (.ok ⟨-32768, 2147483646, 0⟩) from
        congrArg some (by decide)) false .neutral
  refine ⟨hamplitude.trans (by decide), hphase.trans (by decide), hoffset.trans (by decide), htext,
    hbinary, ?_⟩
  exact mt (hreplies htext hbinary).1.1 (by decide)

end LidarAngle.Correction

import LidarAngle.Calibration
import LidarAngle.Trig

/-!
# Corrections

A correction is a calibration in engineering units. It moves an angle by a sine of the angle
itself and by a constant:

`corrected = angle + amplitude * sin (angle + phase) + offset`

The amplitude is a swing in degrees. The degree and the radian form are written out separately,
each with the operations in the order shown.

## Main definitions

* `Correction` - amplitude, phase and offset, the latter two in both units
* `Correction.ofCalibration` - the correction of a calibration
* `Correction.inDegrees`, `Correction.inRadians` - the corrected angle
-/

namespace LidarAngle

structure Correction where
  amplitude : Float
  phaseDeg : Float
  phaseRad : Float
  offsetDeg : Float
  offsetRad : Float
  deriving DecidableEq

namespace Correction

/-- What one unit of a calibration is worth in degrees. -/
def unit : Float := 1.0 / 10000.0

/-- A number of units in degrees. -/
def scale (units : Int) : Float :=
  Float.ofInt units * unit

def ofCalibration (calibration : Calibration) : Correction where
  amplitude := scale calibration.amplitude.toInt
  phaseDeg := scale calibration.phase.toInt
  phaseRad := Trig.radians (scale calibration.phase.toInt)
  offsetDeg := scale calibration.offset.toInt
  offsetRad := Trig.radians (scale calibration.offset.toInt)

/-- The correction that moves no angle. -/
def neutral : Correction where
  amplitude := 0
  phaseDeg := 0
  phaseRad := 0
  offsetDeg := 0
  offsetRad := 0

/-- The zero calibration gives the neutral correction. -/
theorem ofCalibration_zero : ofCalibration {} = neutral := by
  decide

instance : Inhabited Correction := ⟨neutral⟩

/-- The correction leaves every angle where it is: there is neither a swing nor an offset. -/
def isIdentity (c : Correction) : Bool :=
  c.amplitude == 0 && c.offsetDeg == 0

def inDegrees (c : Correction) (angle : Float) : Float :=
  angle + c.amplitude * Trig.sine (Trig.radians angle + c.phaseRad) + c.offsetDeg

def inRadians (c : Correction) (angle : Float) : Float :=
  angle + Trig.radians 1 * c.amplitude * Trig.sine (angle + c.phaseRad) + c.offsetRad

/-- How far the degree form and the radian form disagree at an angle, in degrees. -/
def disagreement (c : Correction) (angle : Float) : Float :=
  (c.inDegrees angle - Trig.degrees (c.inRadians (Trig.radians angle))).abs

end Correction

end LidarAngle

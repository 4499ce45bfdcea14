/-!
# Angles and sines

Degrees and radians are converted by one multiplication each way. The sine is the system's, held
to what a sine can be: between minus one and one for a finite argument, undefined for any other.

## Main definitions

* `Trig.radians`, `Trig.degrees` - the conversions
* `Trig.sine` - the sine of an angle in radians
-/

namespace LidarAngle.Trig

/-- One degree in radians. -/
def degree : Float := 0.017453292519943295

/-- One radian in degrees. -/
def radian : Float := 57.2957795130823208767981548141051703

def radians (degrees : Float) : Float :=
  degrees * degree

def degrees (radians : Float) : Float :=
  radians * radian

/-- A value held between minus one and one. -/
def confine (y : Float) : Float :=
  if y ≤ 1 then if -1 ≤ y then y else -1 else 1

def sine (x : Float) : Float :=
  if x.isFinite then confine x.sin else 0 / 0

end LidarAngle.Trig

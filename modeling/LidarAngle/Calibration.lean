/-!
# Calibrations

A scanner reports its systematic angle error by three integers, each counting ten-thousandths of
a degree: the amplitude and the phase of a deviation that swings once per revolution, and a
constant offset. The amplitude and the offset are 16 bits wide, the phase 32 bits.

On the wire a field is a wider word, of which only the low bits count.

## Main definitions

* `Calibration` - the three integers
* `Calibration.ofWords` - the low bits of three wide words
-/

namespace LidarAngle

/-- The three integers of a scanner's angle correction, in ten-thousandths of a degree. -/
structure Calibration where
  amplitude : Int16 := 0
  phase : Int32 := 0
  offset : Int16 := 0
  deriving DecidableEq, Inhabited

namespace Calibration

/-- The low 16 bits of a word as a signed integer. -/
def low16 (word : UInt64) : Int16 :=
  word.toUInt16.toInt16

/-- The low 32 bits of a word as a signed integer. -/
def low32 (word : UInt64) : Int32 :=
  word.toUInt32.toInt32

/-- The calibration in the low bits of three words. -/
def ofWords (amplitude phase offset : UInt64) : Calibration where
  amplitude := low16 amplitude
  phase := low32 phase
  offset := low16 offset

end Calibration

end LidarAngle

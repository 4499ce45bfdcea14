/-!
# Decimals as binary numbers

A decimal is read as the nearest binary number, the even one of two equally near. A decimal
beyond the largest binary number becomes infinite.

## Main definitions

* `Decimal.toFloat` - the number nearest to `digits * 10 ^ exponent`
-/

namespace LidarAngle.Decimal

/-- The binary number nearest to `digits * 10 ^ exponent`, negated on demand. -/
def toFloat (negative : Bool) (digits : Nat) (exponent : Int) : Float :=
  let magnitude := Float.ofModel (Float.Model.ofScientific digits exponent)
  if negative then -magnitude else magnitude

end LidarAngle.Decimal

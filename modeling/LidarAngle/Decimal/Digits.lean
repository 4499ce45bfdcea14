/-!
# Digits

Decimal text of natural numbers and integers, and of natural numbers taken as a count of some
decimal fraction of one.

## Main definitions

* `Decimal.natural`, `Decimal.integer` - the usual decimal text
* `Decimal.pointed` - a count of units of `10 ^ -places`, with its decimal point
-/

namespace LidarAngle.Decimal

/-- The decimal digits of a natural number, without leading zeros. -/
def natural (n : Nat) : List Char :=
  Nat.toDigits 10 n

/-- An integer with a minus sign if it is negative. -/
def integer : Int → List Char
  | .ofNat n => natural n
  | .negSucc n => '-' :: natural (n + 1)

/-- A count of units of `10 ^ -places`: the whole part, the point, and exactly `places` digits. -/
def pointed (places count : Nat) : List Char :=
  let unit := Nat.pow 10 places
  natural (count / unit) ++ '.' :: (natural (count % unit)).leftpad places '0'

end LidarAngle.Decimal

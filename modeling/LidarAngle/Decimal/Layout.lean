import LidarAngle.Decimal.Shortest

/-!
# Layouts of shortest decimals

Messages and settings print a number by its shortest decimal and never with an exponent, however
long that gets; they differ in the spelling of what is not a number and in whether a whole number
shows that it is a decimal. Very small figures in the log are printed with an exponent instead.

## Main definitions

* `Decimal.Layout` - what messages and settings decide differently
* `Decimal.Layout.write` - a number without an exponent
* `Decimal.scientific` - a number with an exponent
-/

namespace LidarAngle.Decimal

/-- The decisions left open by positional text. -/
structure Layout where
  undefined : List Char
  -- What follows the digits of a whole number.
  whole : List Char

/-- Numbers in messages: a whole number is just its digits. -/
def Layout.message : Layout where
  undefined := "NaN".toList
  whole := []

/-- Numbers in settings: a whole number still ends in a decimal place. -/
def Layout.setting : Layout where
  undefined := "nan".toList
  whole := ".0".toList

/-- The decimal `k * 10 ^ e` without an exponent. -/
def Layout.positional (layout : Layout) (k : Nat) : Int → List Char
  | .ofNat zeros => natural k ++ List.replicate zeros '0' ++ layout.whole
  | .negSucc places => pointed (places + 1) k

/-- A number by its shortest decimal, without an exponent. -/
def Layout.write (layout : Layout) (x : Float) : List Char :=
  match x.toModel.unpack with
  | .notANumber => layout.undefined
  | .infinity sign => signed sign "inf".toList
  | .zero sign => signed sign (layout.positional 0 0)
  | .finite sign m q _ =>
    signed sign (layout.positional (shortest m q).1 (shortest m q).2)

/-- The decimal `k * 10 ^ e` with one digit before the point and an exponent. -/
def withExponent (k : Nat) (e : Int) : List Char :=
  let exponent := 'e' :: integer (e + ((natural k).length - 1 : Nat))
  match natural k with
  | [] => exponent
  | [digit] => digit :: exponent
  | digit :: rest => digit :: '.' :: rest ++ exponent

/-- A number by its shortest decimal, with an exponent. -/
def scientific (x : Float) : List Char :=
  match x.toModel.unpack with
  | .notANumber => "NaN".toList
  | .infinity sign => signed sign "inf".toList
  | .zero sign => signed sign (withExponent 0 0)
  | .finite sign m q _ => signed sign (withExponent (shortest m q).1 (shortest m q).2)

end LidarAngle.Decimal

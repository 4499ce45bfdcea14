import LidarAngle.Decimal.Digits

/-!
# Decimals of fixed length

A number with a fixed count of decimal places is the exact binary value rounded once, a half
going to the even neighbour. The sign is that of the number itself, so a small negative number
keeps its minus sign when all its digits are zero.

## Main definitions

* `Decimal.nearestEven` - a quotient rounded to the nearest integer
* `Decimal.units` - a binary value in units of `10 ^ -places`
* `Decimal.fixed` - the text with a fixed count of places
-/

namespace LidarAngle.Decimal

open Float.Model (UnpackedFloat)

/-- The integer nearest to `num / den`, the even one of two that are equally near. -/
def nearestEven (num den : Nat) : Nat :=
  if den < 2 * (num % den) ∨ (den = 2 * (num % den) ∧ num / den % 2 = 1) then num / den + 1
  else num / den

/-- The value `m * 2 ^ q` in units of `10 ^ -places`, rounded by `nearestEven`. -/
def units (places m : Nat) : Int → Nat
  | .ofNat k => m * Nat.pow 10 places * Nat.pow 2 k
  | .negSucc k => nearestEven (m * Nat.pow 10 places) (Nat.pow 2 (k + 1))

/-- A text with a minus sign in front for the negative sign. -/
def signed (sign : UnpackedFloat.Sign) (text : List Char) : List Char :=
  match sign with
  | .positive => text
  | .negative => '-' :: text

/-- The text of a number with exactly `places` decimal places. -/
def fixed (places : Nat) (x : Float) : List Char :=
  match x.toModel.unpack with
  | .notANumber => "NaN".toList
  | .infinity sign => signed sign "inf".toList
  | .zero sign => signed sign (pointed places 0)
  | .finite sign m q _ => signed sign (pointed places (units places m q))

/-- The text of a number with exactly `places` decimal places, set right in at least `width`
characters. -/
def column (width places : Nat) (x : Float) : List Char :=
  (fixed places x).leftpad width ' '

/-- An exact integer is its own nearest integer. -/
theorem nearestEven_mul (n : Nat) {den : Nat} (h : 0 < den) : nearestEven (n * den) den = n := by
  have hm : n * den % den = 0 := Nat.mul_mod_left n den
  have hd : n * den / den = n := Nat.mul_div_cancel n h
  simp only [nearestEven, hm, hd]
  split
  · omega
  · rfl

/-- The nearest integer is at most half a unit away. -/
theorem nearestEven_bounds (num : Nat) {den : Nat} (h : 0 < den) :
    2 * num ≤ 2 * (nearestEven num den * den) + den ∧
      2 * (nearestEven num den * den) ≤ 2 * num + den := by
  have hsum := Nat.div_add_mod num den
  have hlt := Nat.mod_lt num h
  have hcomm : den * (num / den) = num / den * den := Nat.mul_comm _ _
  have hsucc : (num / den + 1) * den = num / den * den + den := by rw [Nat.add_mul, Nat.one_mul]
  unfold nearestEven
  split
  · rw [hsucc]; omega
  · omega

end LidarAngle.Decimal

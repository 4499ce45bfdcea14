/-!
# Hexadecimal digits

Reading takes digits of either case; writing uses upper case and always two digits to a byte.

## Main definitions

* `Hex.value?` - the value of a digit
* `Hex.byte` - a byte as two upper-case digits
* `Hex.upper`, `Hex.lower` - the digit for a value below sixteen
-/

namespace LidarAngle.Hex

/-- The value of a hexadecimal digit of either case. -/
def value? (c : Char) : Option Nat :=
  if '0' ≤ c ∧ c ≤ '9' then some (c.toNat - 48)
  else if 'A' ≤ c ∧ c ≤ 'F' then some (c.toNat - 55)
  else if 'a' ≤ c ∧ c ≤ 'f' then some (c.toNat - 87)
  else none

/-- The upper-case digit for a value below sixteen. -/
def upper (n : Nat) : Char :=
  if n < 10 then Char.ofNat (48 + n) else Char.ofNat (55 + n)

/-- The lower-case digit for a value below sixteen. -/
def lower (n : Nat) : Char :=
  if n < 10 then Char.ofNat (48 + n) else Char.ofNat (87 + n)

/-- A byte as two upper-case digits. -/
def byte (b : UInt8) : List Char :=
  [upper (b.toNat / 16), upper (b.toNat % 16)]

theorem value?_upper : ∀ n < 16, value? (upper n) = some n := by
  decide

theorem value?_lower : ∀ n < 16, value? (lower n) = some n := by
  decide

@[simp] theorem length_byte (b : UInt8) : (byte b).length = 2 := rfl

end LidarAngle.Hex

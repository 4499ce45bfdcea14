import LidarAngle.Text.Hex

/-!
# Numerals

A numeral is one or more digits, most significant first. Leading zeros are allowed, and limits
on the value are for the caller to check, so that no length of text is special.

## Main definitions

* `Numeral.value?` - the value of a numeral over any set of digits
* `Numeral.decimal?`, `Numeral.hexadecimal?` - the same over ten and sixteen digits
-/

namespace LidarAngle.Numeral

def digit? (c : Char) : Option Nat :=
  if '0' ≤ c ∧ c ≤ '9' then some (c.toNat - 48) else none

/-- One more digit after a numeral of value `n`. -/
def extend (base : Nat) (read? : Char → Option Nat) (n : Nat) (c : Char) : Option Nat :=
  (read? c).map (base * n + ·)

/-- The value of a numeral; nothing if it is empty or has a character that is no digit. -/
def value? (base : Nat) (read? : Char → Option Nat) : List Char → Option Nat
  | [] => none
  | text@(_ :: _) => text.foldlM (extend base read?) 0

def decimal? (text : List Char) : Option Nat :=
  value? 10 digit? text

def hexadecimal? (text : List Char) : Option Nat :=
  value? 16 Hex.value? text

@[simp] theorem value?_nil (base : Nat) (read? : Char → Option Nat) :
    value? base read? [] = none := rfl

end LidarAngle.Numeral

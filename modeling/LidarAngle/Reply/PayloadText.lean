import LidarAngle.Text.Encoding
import LidarAngle.Text.Hex
import LidarAngle.Text.Quoted

/-!
# Payloads typed by hand

The payload of a binary reply can be typed as pairs of hexadecimal digits, with ASCII blanks
anywhere. A pair may also be a plus sign and one digit. Whether the number of digits is even is
checked before the digits themselves, and is counted in bytes of the text.

## Main definitions

* `PayloadText.Flaw` - why a text is no payload
* `PayloadText.read` - the bytes of a text
-/

namespace LidarAngle.PayloadText

/-- Why a text is no payload. -/
inductive Flaw where
  | oddLength (text : List Char)
  -- Some pair of bytes does not spell a byte.
  | badPair (text : List Char)
  deriving DecidableEq

def Flaw.message : Flaw → String
  | oddLength text => "odd number of hex digits in " ++ String.ofList (Quoted.quote text)
  | badPair text => "invalid hex byte in " ++ String.ofList (Quoted.quote text)

/-- The blanks of ASCII: space, tab, line feed, form feed and carriage return. -/
def IsBlank (b : UInt8) : Prop :=
  b = 0x20 ∨ b = 0x09 ∨ b = 0x0A ∨ b = 0x0C ∨ b = 0x0D

instance (b : UInt8) : Decidable (IsBlank b) := by
  unfold IsBlank; infer_instance

/-- The value of a byte that is a hexadecimal digit. -/
def digit? (b : UInt8) : Option Nat :=
  Hex.value? (Char.ofUInt8 b)

/-- The byte that a pair spells: two digits, or a plus sign and one digit. -/
def pair? (first second : UInt8) : Option UInt8 := do
  let high ← if first = 0x2B then some 0 else digit? first
  let low ← digit? second
  return UInt8.ofNat (16 * high + low)

/-- The bytes that consecutive pairs spell. -/
def pairs? : List UInt8 → Option (List UInt8)
  | [] => some []
  | [_] => none
  | first :: second :: rest => do
    let b ← pair? first second
    let bytes ← pairs? rest
    return b :: bytes

/-- The bytes of a text that are not blank. -/
def digits (text : List Char) : List UInt8 :=
  (Text.utf8 text).filter fun b => ¬IsBlank b

/-- The bytes that a text spells, or what is wrong with it. -/
def read (text : List Char) : Except Flaw (List UInt8) :=
  if (digits text).length % 2 = 1 then .error (.oddLength text)
  else
    match pairs? (digits text) with
    | some bytes => .ok bytes
    | none => .error (.badPair text)

end LidarAngle.PayloadText

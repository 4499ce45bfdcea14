import LidarAngle.Text.Numeral

/-!
# Words of a reply

A field of a reply is a 64-bit word in one of two spellings. A sign in front means a decimal
integer in the range of signed words, which stands for its two's complement. Otherwise the token
is a hexadecimal number in the range of unsigned words, which may begin with `0x` or `0X`.

## Main definitions

* `Reply.signed?`, `Reply.unsigned?` - the two spellings
* `Reply.word?` - the word of a token
-/

namespace LidarAngle.Reply

/-- The word of a decimal integer, given its digits, if it fits a signed word. -/
def signed? (negative : Bool) (digits : List Char) : Option UInt64 := do
  let magnitude ← Numeral.decimal? digits
  if negative then
    if magnitude ≤ 0x8000000000000000 then some (UInt64.ofInt (-magnitude)) else none
  else
    if magnitude < 0x8000000000000000 then some (UInt64.ofNat magnitude) else none

/-- The word of a hexadecimal number, given its digits, if it fits an unsigned word. -/
def unsigned? (digits : List Char) : Option UInt64 := do
  let magnitude ← Numeral.hexadecimal? digits
  if magnitude < 0x10000000000000000 then some (UInt64.ofNat magnitude) else none

/-- A hexadecimal token without the mark it may begin with. -/
def unmarked : List Char → List Char
  | '0' :: 'x' :: digits => digits
  | '0' :: 'X' :: digits => digits
  | digits => digits

/-- The word that a token spells. -/
def word? : List Char → Option UInt64
  | '+' :: digits => signed? false digits
  | '-' :: digits => signed? true digits
  | token => unsigned? (unmarked token)

end LidarAngle.Reply

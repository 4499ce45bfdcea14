import LidarAngle.Decimal.Nearest
import LidarAngle.Text.Numeral

/-!
# Numbers of a document

A number begins with a sign or a digit, or is one of the words for what is infinite or undefined.
Underscores may stand between digits. A decimal number has no leading zeros, and is an integer
unless it has a fraction or an exponent. Integers in other bases have no sign. Every integer has
to fit 64 bits with a sign; a decimal beyond the largest binary number is refused, one beyond the
least becomes infinite.

## Main definitions

* `Toml.Number` - an integer or a binary number
* `Toml.digits?` - digits with underscores between them
* `Toml.number?` - a whole number
-/

namespace LidarAngle.Toml

inductive Number where
  | integer (n : Int)
  | float (x : Float)

/-- Further digits, each of which may have an underscore before it. -/
def moreDigits? (isDigit : Char → Bool) : List Char → Option (List Char × List Char)
  | [] => some ([], [])
  | '_' :: c :: rest =>
    if isDigit c then (moreDigits? isDigit rest).map fun (ds, rest) => (c :: ds, rest) else none
  | c :: rest =>
    if isDigit c then (moreDigits? isDigit rest).map fun (ds, rest) => (c :: ds, rest)
    else if c = '_' then none
    else some ([], c :: rest)

/-- One digit and further digits, returned without underscores. -/
def digits? (isDigit : Char → Bool) : List Char → Option (List Char × List Char)
  | [] => none
  | c :: rest =>
    if isDigit c then (moreDigits? isDigit rest).map fun (ds, rest) => (c :: ds, rest) else none

/-- The digits of a decimal integer, of which the first is no zero unless it is the only one. -/
def whole? : List Char → Option (List Char × List Char)
  | '0' :: rest => some (['0'], rest)
  | text => digits? Char.isDigit text

/-- A sign, if there is one: the number is negative. -/
def sign : List Char → Bool × List Char
  | '+' :: rest => (false, rest)
  | '-' :: rest => (true, rest)
  | text => (false, text)

/-- The digits after a point, if there is one; none without a point. -/
def fraction? : List Char → Option (List Char × List Char)
  | '.' :: rest => digits? Char.isDigit rest
  | text => some ([], text)

/-- The exponent, if there is one; zero without one. -/
def exponent? (text : List Char) : Option (Int × List Char) :=
  match text with
  | [] => some (0, [])
  | c :: rest =>
    if c = 'e' ∨ c = 'E' then do
      let (negative, rest) := sign rest
      let (digits, rest) ← digits? Char.isDigit rest
      let magnitude ← Numeral.decimal? digits
      return (if negative then -magnitude else magnitude, rest)
    else some (0, text)

/-- An integer that fits 64 bits with a sign. -/
def integer? (n : Int) : Option Number :=
  if -0x8000000000000000 ≤ n ∧ n < 0x8000000000000000 then some (.integer n) else none

/-- A decimal that is not beyond the largest binary number. -/
def float? (negative : Bool) (digits : Nat) (exponent : Int) : Option Number :=
  let x := Decimal.toFloat negative digits exponent
  if x.isInf ∧ ¬negative then none else some (.float x)

/-- The text goes on with a fraction or an exponent. -/
def continuesDecimal : List Char → Bool
  | [] => false
  | c :: _ => c = '.' ∨ c = 'e' ∨ c = 'E'

/-- A decimal number, after its sign. -/
def decimal? (negative : Bool) (text : List Char) : Option (Number × List Char) := do
  let (whole, rest) ← whole? text
  if continuesDecimal rest then
    let (fraction, rest) ← fraction? rest
    let (exponent, rest) ← exponent? rest
    let digits ← Numeral.decimal? (whole ++ fraction)
    return (← float? negative digits (exponent - fraction.length), rest)
  else
    let digits ← Numeral.decimal? whole
    return (← integer? (if negative then -digits else digits), rest)

/-- An integer in another base, after its mark. -/
def based? (base : Nat) (text : List Char) : Option (Number × List Char) := do
  let isDigit := fun c => (Hex.value? c).any (· < base)
  let (digits, rest) ← digits? isDigit text
  let n ← Numeral.value? base Hex.value? digits
  return (← integer? n, rest)

/-- A word for what is infinite or undefined, after its sign. -/
def special? (negative : Bool) : List Char → Option (Number × List Char)
  | 'i' :: 'n' :: 'f' :: rest => some (.float (if negative then -(1 / 0) else 1 / 0), rest)
  | 'n' :: 'a' :: 'n' :: rest => some (.float (0 / 0), rest)
  | _ => none

def number? : List Char → Option (Number × List Char)
  | '0' :: 'x' :: rest => based? 16 rest
  | '0' :: 'o' :: rest => based? 8 rest
  | '0' :: 'b' :: rest => based? 2 rest
  | text =>
    let (negative, rest) := sign text
    special? negative rest <|> decimal? negative rest

end LidarAngle.Toml

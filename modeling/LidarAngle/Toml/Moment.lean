import LidarAngle.Text.Numeral

/-!
# Dates and times of a document

A moment is a date, a time of day, or both with an optional distance from universal time. Its
parts have a fixed number of digits and must be within the calendar; a minute may have a leap
second. What moment it is does not matter here, only that it is one.

## Main definitions

* `Toml.startsMoment` - the text can only be a moment
* `Toml.moment?` - the rest after a moment
-/

namespace LidarAngle.Toml

/-- The value of two digits between two bounds. -/
def pair? (least most : Nat) : List Char → Option (Nat × List Char)
  | a :: b :: rest => do
    let n ← Numeral.decimal? [a, b]
    if least ≤ n ∧ n ≤ most then some (n, rest) else none
  | _ => none

def year? : List Char → Option (Nat × List Char)
  | a :: b :: c :: d :: rest => (Numeral.decimal? [a, b, c, d]).map fun n => (n, rest)
  | _ => none

/-- The rest after one required character. -/
def expect? (c : Char) : List Char → Option (List Char)
  | d :: rest => if d = c then some rest else none
  | [] => none

def daysOf (year month : Nat) : Nat :=
  if month = 2 then
    if year % 4 = 0 ∧ (year % 100 ≠ 0 ∨ year % 400 = 0) then 29 else 28
  else if month = 4 ∨ month = 6 ∨ month = 9 ∨ month = 11 then 30
  else 31

def date? (text : List Char) : Option (List Char) := do
  let (year, rest) ← year? text
  let rest ← expect? '-' rest
  let (month, rest) ← pair? 1 12 rest
  let rest ← expect? '-' rest
  let (_, rest) ← pair? 1 (daysOf year month) rest
  return rest

/-- The rest after the hour and its colon. -/
def hour? (text : List Char) : Option (List Char) := do
  let (_, rest) ← pair? 0 23 text
  expect? ':' rest

/-- The rest after a fraction of a second, if there is one. -/
def skipFraction : List Char → List Char
  | '.' :: c :: rest => if c.isDigit then rest.dropWhile Char.isDigit else '.' :: c :: rest
  | text => text

/-- The rest after the minute and the second. -/
def minute? (text : List Char) : Option (List Char) := do
  let (_, rest) ← pair? 0 59 text
  let rest ← expect? ':' rest
  let (_, rest) ← pair? 0 60 rest
  return skipFraction rest

/-- The rest after the distance from universal time, if there is one. -/
def zone? : List Char → Option (List Char)
  | [] => some []
  | c :: rest =>
    if c = 'Z' ∨ c = 'z' then some rest
    else if c = '+' ∨ c = '-' then do
      let rest ← hour? rest
      let (_, rest) ← pair? 0 59 rest
      return rest
    else some (c :: rest)

/-- The rest after the time of day that may follow a date. -/
def timeAfterDate? : List Char → Option (List Char)
  | [] => some []
  | c :: rest =>
    if c = 'T' ∨ c = 't' ∨ c = ' ' then
      match hour? rest with
      | none => some (c :: rest)
      | some rest => do zone? (← minute? rest)
    else some (c :: rest)

/-- The text begins with a year and a hyphen or with an hour and a colon, and so can only be a
moment. -/
def startsMoment (text : List Char) : Bool :=
  ((year? text).bind fun (_, rest) => expect? '-' rest).isSome ∨ (hour? text).isSome

def moment? (text : List Char) : Option (List Char) :=
  match hour? text with
  | some rest => minute? rest
  | none => do timeAfterDate? (← date? text)

end LidarAngle.Toml

import LidarAngle.Text.Hex
import LidarAngle.Toml.Line

/-!
# Strings of a document

A string stands between quotes, either double quotes, inside which a backslash starts an escape,
or single quotes, inside which nothing is special. Three quotes in a row open a string that may
span lines and that ends with the next three. Such a string may hold one or two of its quotes in
a row anywhere, so up to five quotes may close it; a line end right after the opening is dropped,
every line end counts as a line feed, and a backslash at the end of a line joins it to the next
text.

A string is read one character at a time by a small machine whose state says what is pending.

## Main definitions

* `Toml.Quotation` - the quote, whether it has escapes, and whether it spans lines
* `Toml.Quotation.State` - what is pending
* `Toml.Quotation.read` - the string up to its closing quotes
* `Toml.quoted?` - a whole string with its quotes
-/

namespace LidarAngle.Toml

/-- How a string is quoted. -/
structure Quotation where
  quote : Char
  escapes : Bool
  multiline : Bool

namespace Quotation

/-- What is pending in the middle of a string. -/
inductive State where
  | plain
  | quotes (count : Nat)
  | escape
  | code (missing value : Nat)
  -- The blanks after a backslash; the flag tells that the line has ended.
  | folding (lineEnded : Bool)
  -- A carriage return; the flag tells that it came after a backslash.
  | carriage (fold : Bool)
  deriving DecidableEq

/-- The number of quotes in a row so far, where a quote would count as one. -/
def State.run? : State → Option Nat
  | plain => some 0
  | folding true => some 0
  | quotes count => some count
  | _ => none

/-- The character for a letter after a backslash. -/
def escaped? (c : Char) : Option Char :=
  if c = 'b' then some '\x08'
  else if c = 't' then some '\t'
  else if c = 'n' then some '\n'
  else if c = 'f' then some '\x0c'
  else if c = 'r' then some '\r'
  else if c = '"' then some '"'
  else if c = '\\' then some '\\'
  else none

def codeDigits? (c : Char) : Option Nat :=
  if c = 'u' then some 4 else if c = 'U' then some 8 else none

def character? (value : Nat) : Option Char :=
  if value.isValidChar then some (Char.ofNat value) else none

variable (q : Quotation)

/-- One character with nothing pending: what it adds and what is pending after it. -/
def plainStep (c : Char) : Option (List Char × State) :=
  if q.escapes ∧ c = '\\' then some ([], .escape)
  else if q.multiline ∧ c = '\n' then some (['\n'], .plain)
  else if q.multiline ∧ c = '\r' then some ([], .carriage false)
  else if isText c then some ([c], .plain)
  else none

/-- One character that is no counting quote: what it adds and what is pending after it. -/
def advance (c : Char) : State → Option (List Char × State)
  | .plain => q.plainStep c
  | .quotes count => do
    let (added, state) ← q.plainStep c
    return (List.replicate count q.quote ++ added, state)
  | .escape =>
    if q.multiline ∧ c = '\n' then some ([], .folding true)
    else if q.multiline ∧ c = '\r' then some ([], .carriage true)
    else if q.multiline ∧ isBlank c then some ([], .folding false)
    else
      match codeDigits? c with
      | some missing => some ([], .code missing 0)
      | none => (escaped? c).map fun d => ([d], .plain)
  | .code missing value => do
    let digit ← Hex.value? c
    if missing ≤ 1 then
      let d ← character? (16 * value + digit)
      return ([d], .plain)
    else
      return ([], .code (missing - 1) (16 * value + digit))
  | .folding lineEnded =>
    if c = '\n' then some ([], .folding true)
    else if c = '\r' then some ([], .carriage true)
    else if isBlank c then some ([], .folding lineEnded)
    else if lineEnded then q.plainStep c
    else none
  | .carriage fold =>
    if c = '\n' then some (if fold then ([], .folding true) else (['\n'], .plain)) else none

/-- The string up to its closing quotes, and what follows them. -/
def read : State → List Char → Option (List Char × List Char)
  | .quotes count, [] => if 3 ≤ count then some (List.replicate (count - 3) q.quote, []) else none
  | _, [] => none
  | state, c :: rest =>
    match if c = q.quote then state.run? else none with
    | some count =>
      if q.multiline then if count < 5 then read (.quotes (count + 1)) rest else none
      else some ([], rest)
    | none =>
      match state with
      | .quotes (count + 3) => some (List.replicate count q.quote, c :: rest)
      | state => do
        let (added, state) ← q.advance c state
        let (tail, rest) ← read state rest
        return (added ++ tail, rest)

def basic : Quotation := ⟨'"', true, false⟩

def basicLines : Quotation := ⟨'"', true, true⟩

def literal : Quotation := ⟨'\x27', false, false⟩

def literalLines : Quotation := ⟨'\x27', false, true⟩

end Quotation

/-- The rest without the line end that may follow opening quotes. -/
def afterOpening (text : List Char) : List Char :=
  (newline? text).getD text

def quotedLine? : List Char → Option (List Char × List Char)
  | '"' :: rest => Quotation.basic.read .plain rest
  | '\x27' :: rest => Quotation.literal.read .plain rest
  | _ => none

def quoted? : List Char → Option (List Char × List Char)
  | '"' :: '"' :: '"' :: rest => Quotation.basicLines.read .plain (afterOpening rest)
  | '\x27' :: '\x27' :: '\x27' :: rest => Quotation.literalLines.read .plain (afterOpening rest)
  | text => quotedLine? text

end LidarAngle.Toml

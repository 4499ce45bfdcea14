import LidarAngle.Toml.Moment
import LidarAngle.Toml.Node
import LidarAngle.Toml.Number
import LidarAngle.Toml.Quotation

/-!
# Keys and values of a document

A key is one or more parts with points between them; a part is a bare word or a string within one
line. A value is a string, a number, a truth value, a moment, an array in brackets, whose items
may be on lines of their own, or a table in braces, whose entries may not. Only a bounded number
of brackets and braces may be open at a time.

## Main definitions

* `Toml.path?` - a dotted key
* `Toml.value?` - a value with a bound on what may be nested in it
-/

namespace LidarAngle.Toml

/-- Reads a value and returns it with what follows it. -/
abbrev Reader := List Char → Option (Node × List Char)

/-- The number of parts of a key, and of brackets and braces open at a time, has to stay below
this. -/
def depthLimit : Nat := 80

def isBare (c : Char) : Bool :=
  c.isAlphanum ∨ c = '_' ∨ c = '-'

/-- One part of a key. -/
def part? (text : List Char) : Option (List Char × List Char) :=
  match text with
  | [] => none
  | c :: _ =>
    if c = '"' ∨ c = '\x27' then quotedLine? text
    else if isBare c then some (text.takeWhile isBare, text.dropWhile isBare)
    else none

/-- The parts of a key, at most the given number of them, and what follows the blanks after the
key. -/
def parts? : Nat → List Char → Option (List (List Char) × List Char)
  | 0, _ => none
  | most + 1, text =>
    match part? (skipBlanks text) with
    | none => none
    | some (part, rest) =>
      match skipBlanks rest with
      | '.' :: rest => (parts? most rest).map fun (parts, rest) => (part :: parts, rest)
      | rest => some ([part], rest)

/-- A key as its last part and the parts before it. -/
structure Path where
  before : List (List Char)
  last : List Char
  deriving DecidableEq

def path? (text : List Char) : Option (Path × List Char) := do
  let (parts, rest) ← parts? (depthLimit - 1) text
  let last ← parts.getLast?
  return (⟨parts.dropLast, last⟩, rest)

/-- The items of an array from the first one on, at most the given number of them, and what
follows the closing bracket. -/
def items? (value? : Reader) : Nat → List Char → Option (List Node × List Char)
  | 0, _ => none
  | most + 1, text =>
    match value? text with
    | none => none
    | some (item, rest) =>
      match skipSpace false rest with
      | ']' :: rest => some ([item], rest)
      | ',' :: rest =>
        match skipSpace false rest with
        | ']' :: rest => some ([item], rest)
        | rest => (items? value? most rest).map fun (items, rest) => (item :: items, rest)
      | _ => none

def array? (value? : Reader) (size : Nat) (text : List Char) :
    Option (List Node × List Char) :=
  match skipSpace false text with
  | ']' :: rest => some ([], rest)
  | rest => items? value? size rest

def pair (value? : Reader) (text : List Char) : Option ((Path × Node) × List Char) := do
  let (path, rest) ← path? text
  let rest ← expect? '=' rest
  let (value, rest) ← value? (skipBlanks rest)
  return ((path, value), rest)

/-- The entries of a table in braces from the first one on, at most the given number of them, and
what follows the closing brace. -/
def pairs? (value? : Reader) : Nat → List Char → Option (List (Path × Node) × List Char)
  | 0, _ => none
  | most + 1, text =>
    match pair value? text with
    | none => none
    | some (entry, rest) =>
      match skipBlanks rest with
      | '\x7d' :: rest => some ([entry], rest)
      | ',' :: rest =>
        (pairs? value? most rest).map fun (entries, rest) => (entry :: entries, rest)
      | _ => none

/-- The entries with further values under dotted keys. -/
def putAll? (entries : Entries) (pairs : List (Path × Node)) : Option Entries :=
  pairs.foldlM (fun entries (path, value) => put? path.before path.last value entries) entries

/-- A table in braces after its opening brace. -/
def braces? (value? : Reader) (size : Nat) (text : List Char) :
    Option (Entries × List Char) :=
  match skipBlanks text with
  | '\x7d' :: rest => some ([], rest)
  | rest => do
    let (pairs, rest) ← pairs? value? size rest
    return (← putAll? [] pairs, rest)

def Number.node : Number → Node
  | integer n => .integer n
  | float x => .float x

/-- A value that nothing is nested in. -/
def simple? : Reader
  | 't' :: 'r' :: 'u' :: 'e' :: rest => some (.boolean true, rest)
  | 'f' :: 'a' :: 'l' :: 's' :: 'e' :: rest => some (.boolean false, rest)
  | '"' :: rest => (quoted? ('"' :: rest)).map fun (s, rest) => (.text s, rest)
  | '\x27' :: rest => (quoted? ('\x27' :: rest)).map fun (s, rest) => (.text s, rest)
  | text =>
    if startsMoment text then (moment? text).map fun rest => (.moment, rest)
    else (number? text).map fun (n, rest) => (n.node, rest)

/-- A value with at most `depth` brackets and braces open at a time, none of which holds more than
`size` items. The length of the document is always size enough. -/
def value? (size : Nat) : Nat → Reader
  | depth + 1, '[' :: rest =>
    (array? (value? size depth) size rest).map fun (items, rest) => (.array items, rest)
  | depth + 1, '\x7b' :: rest =>
    (braces? (value? size depth) size rest).map fun (entries, rest) =>
      (.table .inline entries, rest)
  | _, text => simple? text

end LidarAngle.Toml

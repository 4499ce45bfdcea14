/-!
# Characters and lines of a document

The grammar knows three kinds of filler: blanks within a line, comments up to the end of a line,
and line ends, which are a line feed with or without a carriage return before it. Controls other
than the tab may stand nowhere, not even in a comment.

Readers take the rest of the document and return what they read and what is left, or nothing if
the grammar is violated.

## Main definitions

* `Toml.isText`, `Toml.isBlank` - character classes
* `Toml.skipBlanks`, `Toml.skipSpace` - filler within a line, and filler that may span lines
* `Toml.lineEnd?` - the rest of a line after its content
-/

namespace LidarAngle.Toml

/-- A character that may stand in a comment or a string: a tab, or anything but a control. Above
ASCII every character may. -/
def isText (c : Char) : Bool :=
  c = '\t' ∨ (' ' ≤ c ∧ c ≠ '\x7f')

/-- Filler within a line. -/
def isBlank (c : Char) : Bool :=
  c = ' ' ∨ c = '\t'

/-- The rest after blanks. -/
def skipBlanks (text : List Char) : List Char :=
  text.dropWhile isBlank

/-- The rest after one line end. -/
def newline? : List Char → Option (List Char)
  | '\n' :: rest => some rest
  | '\r' :: '\n' :: rest => some rest
  | _ => none

/-- The rest after a comment, if there is one. -/
def skipComment : List Char → List Char
  | '#' :: rest => rest.dropWhile isText
  | rest => rest

/-- The rest after blanks, a comment and the line end. The last line needs no line end. -/
def lineEnd? (text : List Char) : Option (List Char) :=
  match skipComment (skipBlanks text) with
  | [] => some []
  | rest => newline? rest

/-- The rest after blanks, line ends and comments; the flag tells that a comment is open. -/
def skipSpace (comment : Bool) : List Char → List Char
  | [] => []
  | '\n' :: rest => skipSpace false rest
  | '\r' :: '\n' :: rest => skipSpace false rest
  | c :: rest =>
    if comment then
      if isText c then skipSpace true rest else c :: rest
    else if c = '#' then skipSpace true rest
    else if isBlank c then skipSpace false rest
    else c :: rest

end LidarAngle.Toml

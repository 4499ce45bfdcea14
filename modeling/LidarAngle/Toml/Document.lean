import LidarAngle.Toml.Value

/-!
# Documents

A document is read line by line. A line is empty, or has a key with its value, or a header in
single or double brackets, which opens a table for the keys below it. The lines are then put
together to one tree.

## Main definitions

* `Toml.Line` - a line that matters
* `Toml.lines?` - the lines of a text
* `Toml.document?` - the tree of a text
-/

namespace LidarAngle.Toml

/-- A line that matters. -/
inductive Line where
  | entry (path : Path) (value : Node)
  -- A header; the flag tells that its brackets are double.
  | header (repeated : Bool) (path : Path)

/-- The content of a line, if there is any, and what follows it. -/
def content? (size : Nat) (text : List Char) : Option (Option Line × List Char) :=
  match text with
  | [] => some (none, [])
  | '[' :: '[' :: rest => do
    let (path, rest) ← path? rest
    let rest ← expect? ']' rest
    let rest ← expect? ']' rest
    return (some (.header true path), rest)
  | '[' :: rest => do
    let (path, rest) ← path? rest
    let rest ← expect? ']' rest
    return (some (.header false path), rest)
  | c :: _ =>
    if c = '#' ∨ c = '\n' ∨ c = '\r' then some (none, text)
    else do
      let ((path, value), rest) ← pair (value? size (depthLimit - 1)) text
      return (some (.entry path value), rest)

/-- The content of a line, if there is any, and the lines after it. -/
def line? (size : Nat) (text : List Char) : Option (Option Line × List Char) := do
  let (line, rest) ← content? size (skipBlanks text)
  return (line, ← lineEnd? rest)

/-- The lines of a text, of which there are at most `most`. -/
def linesUpTo? (size : Nat) : Nat → List Char → Option (List Line)
  | _, [] => some []
  | 0, _ => none
  | most + 1, text => do
    let (line, rest) ← line? size text
    let lines ← linesUpTo? size most rest
    return line.toList ++ lines

/-- The lines of a text. No text has more lines, or more items between brackets, than
characters. -/
def lines? (text : List Char) : Option (List Line) :=
  linesUpTo? text.length text.length text

/-- A header with the keys below it. -/
structure Section where
  repeated : Bool
  path : Path
  entries : List (Path × Node)

/-- The keys before the first header, and the headers with the keys below them. -/
def sections : List Line → List (Path × Node) × List Section
  | [] => ([], [])
  | .entry path value :: rest => ((path, value) :: (sections rest).1, (sections rest).2)
  | .header repeated path :: rest => ([], ⟨repeated, path, (sections rest).1⟩ :: (sections rest).2)

/-- What a header makes of whatever its key stood for. -/
def Section.change? (s : Section) (node : Option Node) : Option Node :=
  match s.repeated, node with
  | false, none => (putAll? [] s.entries).map (.table .header)
  | false, some (.table .implied entries) => (putAll? entries s.entries).map (.table .header)
  | true, none => (putAll? [] s.entries).map fun row => .tables [row]
  | true, some (.tables rows) => (putAll? [] s.entries).map fun row => .tables (rows ++ [row])
  | _, _ => none

def tree? (lines : List Line) : Option Entries := do
  let root ← putAll? [] (sections lines).1
  (sections lines).2.foldlM (fun root s => open? s.change? s.path.before s.path.last root) root

/-- The text without the mark that may say it is Unicode. -/
def unmarked : List Char → List Char
  | '\ufeff' :: rest => rest
  | text => text

def document? (text : List Char) : Option Entries := do
  tree? (← lines? (unmarked text))

end LidarAngle.Toml

/-!
# Tables of a document

A document is a tree of tables. How a table came to be decides what may still be added to it:

* a table in braces is complete;
* a table with a header of its own takes the keys below that header and nothing else, but other
  headers may lead through it;
* a table that is only implied, as part of a longer header, may still get a header of its own;
* a table that dotted keys made takes further dotted keys of the same header, and headers may
  lead through it.

Repeated headers in double brackets make a list of tables, and a path that leads through one goes
to its last table.

## Main definitions

* `Toml.Node`, `Toml.Origin` - what a key stands for, and how a table came to be
* `Toml.put?` - a value under a dotted key
* `Toml.open?` - a change of whatever a header names
-/

namespace LidarAngle.Toml

/-- How a table came to be. -/
inductive Origin where
  | inline
  | header
  | implied
  | dotted
  deriving DecidableEq

/-- What a key stands for. -/
inductive Node where
  | text (s : List Char)
  | integer (n : Int)
  | float (x : Float)
  | boolean (b : Bool)
  | moment
  | array (items : List Node)
  | table (origin : Origin) (entries : List (List Char × Node))
  | tables (rows : List (List (List Char × Node)))
  deriving Inhabited

/-- The keys of a table with what they stand for, in the order in which they appeared. -/
abbrev Entries := List (List Char × Node)

/-- What a key stands for. -/
def Entries.find? (entries : Entries) (key : List Char) : Option Node :=
  entries.lookup key

/-- The entries with something else for a key that they have. -/
def Entries.replace (entries : Entries) (key : List Char) (node : Node) : Entries :=
  entries.map fun entry => if entry.1 = key then (key, node) else entry

/-- A change of the last table of a list. -/
def changeLast? (change : Entries → Option Entries) : List Entries → Option (List Entries)
  | [] => none
  | [last] => (change last).map ([·])
  | row :: rest => (changeLast? change rest).map (row :: ·)

/-- The entries with a value under a dotted key, of which `path` is all but the last part. -/
def put? : List (List Char) → List Char → Node → Entries → Option Entries
  | [], key, value, entries =>
    match entries.find? key with
    | none => some (entries ++ [(key, value)])
    | some _ => none
  | first :: path, key, value, entries =>
    match entries.find? first with
    | none => do
      let inner ← put? path key value []
      return entries ++ [(first, .table .dotted inner)]
    | some (.table .dotted inner) => do
      let inner ← put? path key value inner
      return entries.replace first (.table .dotted inner)
    | some (.table .implied inner) =>
      if path = [] then none else do
        let inner ← put? path key value inner
        return entries.replace first (.table .implied inner)
    | some (.tables rows) =>
      if path = [] then none else do
        let rows ← changeLast? (put? path key value) rows
        return entries.replace first (.tables rows)
    | some _ => none

/-- The entries with a change of what a header names, of which `path` is all but the last
part. -/
def open? (change : Option Node → Option Node) :
    List (List Char) → List Char → Entries → Option Entries
  | [], key, entries =>
    match entries.find? key with
    | none => do return entries ++ [(key, ← change none)]
    | some node => do return entries.replace key (← change (some node))
  | first :: path, key, entries =>
    match entries.find? first with
    | none => do
      let inner ← open? change path key []
      return entries ++ [(first, .table .implied inner)]
    | some (.table .inline _) => none
    | some (.table origin inner) => do
      let inner ← open? change path key inner
      return entries.replace first (.table origin inner)
    | some (.tables rows) => do
      let rows ← changeLast? (open? change path key) rows
      return entries.replace first (.tables rows)
    | some _ => none

end LidarAngle.Toml

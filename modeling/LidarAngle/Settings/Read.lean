import LidarAngle.Settings
import LidarAngle.Toml.Document

/-!
# Reading settings

Every section and every item of a file is optional; what is missing keeps its default, and what
has another name is passed over. A section may also be an array of its items in order, which may
be cut short or go on. Integers have to fit the field they are for; a number of the sweep may be
an integer, which becomes the nearest binary number. A framing is its name, or a table with that
name as its only key and nothing below it.

The document has to be well formed as a whole before anything is made of it, and the sweep is
checked last.

## Main definitions

* `Settings.Fields` - the items of one section, by name or by position
* `Settings.item?` - the value of one item
* `Settings.ofTree?` - the settings in a document
* `Settings.load` - the settings in the content of a file
-/

namespace LidarAngle.Settings

open Toml (Node Entries)

/-- The items of one section. -/
inductive Fields where
  | defaults
  | named (entries : Entries)
  -- Items by position.
  | listed (items : List Node)

/-- The items in what a section's name stands for. -/
def fields? : Option Node → Option Fields
  | none => some .defaults
  | some (.table _ entries) => some (.named entries)
  | some (.array items) => some (.listed items)
  | some (.tables rows) => some (.listed (rows.map (.table .header)))
  | some .moment => some .defaults
  | some _ => none

/-- What stands for an item. -/
def Fields.find? (fields : Fields) (item : Item) : Option Node :=
  match fields with
  | defaults => none
  | named entries => entries.find? item.name
  | listed items => items[item.place]?

/-- The value of an item in a document, or its default if it is missing. -/
def item? {α : Type} (tree : Entries) (item : Item) (fallback : α) (read? : Node → Option α) :
    Option α := do
  let fields ← fields? (tree.find? item.home.name)
  match fields.find? item with
  | none => some fallback
  | some node => read? node

def text? : Node → Option (List Char)
  | .text s => some s
  | _ => none

/-- An integer that fits 16 bits. -/
def int16? : Node → Option Int16
  | .integer n => if -0x8000 ≤ n ∧ n < 0x8000 then some (Int16.ofInt n) else none
  | _ => none

/-- An integer that fits 32 bits. -/
def int32? : Node → Option Int32
  | .integer n => if -0x80000000 ≤ n ∧ n < 0x80000000 then some (Int32.ofInt n) else none
  | _ => none

def float? : Node → Option Float
  | .integer n => some (Float.ofInt n)
  | .float x => some x
  | _ => none

def framingNamed? (name : List Char) : Option Reply.Framing :=
  if name = framingName .ascii then some .ascii
  else if name = framingName .binary then some .binary
  else none

/-- There is nothing in an array or a table. -/
def isVoid : Node → Bool
  | .array items => items.isEmpty
  | .table _ entries => entries.isEmpty
  | .tables rows => rows.isEmpty
  | _ => false

def framing? : Node → Option Reply.Framing
  | .text name => framingNamed? name
  | .table _ [(name, node)] => if isVoid node then framingNamed? name else none
  | _ => none

/-- The settings in a document. -/
def ofTree? (tree : Entries) : Option Settings := do
  let fallback : Settings := {}
  return {
    framing := ← item? tree .format fallback.framing framing?
    header := ← item? tree .header fallback.header text?
    calibration := {
      amplitude := ← item? tree .amplitude fallback.calibration.amplitude int16?
      phase := ← item? tree .phase fallback.calibration.phase int32?
      offset := ← item? tree .offset fallback.calibration.offset int16? }
    sweep := {
      start := ← item? tree .start fallback.sweep.start float?
      stop := ← item? tree .stop fallback.sweep.stop float?
      step := ← item? tree .step fallback.sweep.step float? }
    level := ← item? tree .level fallback.level text? }

def ofText (text : List Char) : Except Fault Settings :=
  match Toml.document? text >>= ofTree? with
  | none => .error .settings
  | some settings => do
    settings.check
    return settings

/-- The text in the content of a file. -/
def textOf (content : ByteArray) : Except FileFault (List Char) :=
  match String.fromUTF8? content with
  | some text => .ok text.toList
  | none => .error .notText

/-- The settings in a file, given its content or why it cannot be read. -/
def load (content : Except FileFault ByteArray) : Except Fault Settings :=
  match content >>= textOf with
  | .ok text => ofText text
  | .error cause => .error (.file cause)

end LidarAngle.Settings

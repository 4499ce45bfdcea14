import LidarAngle.Log
import LidarAngle.Reply.Decode

/-!
# Settings

The settings of the program are nine items in four sections. Each item has a name by which files
refer to it, and a default.

## Main definitions

* `Settings` - the values of all items
* `Settings.Section`, `Settings.Item` - the names in a file
* `Settings.check` - the sweep of the settings has angles
-/

namespace LidarAngle

/-- What the program does unless its command line says otherwise. -/
structure Settings where
  framing : Reply.Framing := .binary
  header : List Char := "sRA MCAngleCompSin ".toList
  calibration : Calibration := {}
  sweep : Sweep := {}
  level : List Char := "info".toList
  deriving DecidableEq

namespace Settings

inductive Section where
  | reply
  | calibration
  | table
  | logging
  deriving DecidableEq

inductive Item where
  | format
  | header
  | amplitude
  | phase
  | offset
  | start
  | stop
  | step
  | level
  deriving DecidableEq

/-- The sections in the order in which they are written. -/
def Section.all : List Section :=
  [.reply, .calibration, .table, .logging]

def Section.name : Section → List Char
  | reply => "reply".toList
  | calibration => "calibration".toList
  | table => "table".toList
  | logging => "logging".toList

/-- The items of a section in the order in which they are written. -/
def Section.items : Section → List Item
  | reply => [.format, .header]
  | calibration => [.amplitude, .phase, .offset]
  | table => [.start, .stop, .step]
  | logging => [.level]

def Item.home : Item → Section
  | format => .reply
  | header => .reply
  | amplitude => .calibration
  | phase => .calibration
  | offset => .calibration
  | start => .table
  | stop => .table
  | step => .table
  | level => .logging

/-- The place of an item within its section. -/
def Item.place (item : Item) : Nat :=
  item.home.items.idxOf item

def Item.name : Item → List Char
  | format => "format".toList
  | header => "header".toList
  | amplitude => "amplitude".toList
  | phase => "phase".toList
  | offset => "offset".toList
  | start => "start_deg".toList
  | stop => "end_deg".toList
  | step => "step_deg".toList
  | level => "level".toList

def framingName : Reply.Framing → List Char
  | .ascii => "ascii".toList
  | .binary => "binary".toList

theorem Item.mem_items (item : Item) : item ∈ item.home.items := by
  cases item <;> decide

/-- The sweep of the settings has angles. -/
def check (settings : Settings) : Except Fault Unit :=
  match settings.sweep.rows with
  | .ok _ => .ok ()
  | .error flaw => .error (.sweep flaw)

end Settings

end LidarAngle

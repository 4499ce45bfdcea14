import LidarAngle.Log
import LidarAngle.Sink

/-!
# Correction tables

The table of a correction over a sweep has a header line and one line for every angle: the angle,
the corrected angle and the difference, all in degrees with six places and set right in columns of
ten characters. Lines go to the sink one by one, so a sink that takes only part of the table holds
a leading part of it. A sweep without angles writes nothing.

The same sweep also measures how far the degree form and the radian form of a correction ever
disagree.

## Main definitions

* `Table.header`, `Table.row` - the lines of a table
* `Table.text` - a whole table
* `Table.write` - a table written to a sink
* `Table.largestDisagreement` - the disagreement of the two forms over a sweep
-/

namespace LidarAngle.Table

def header : List Char :=
  "Input   ;Output  ;Correction\n".toList

def cell (x : Float) : List Char :=
  Decimal.column 10 6 x

def row (c : Correction) (angle : Float) : List Char :=
  cell angle ++ ';' :: cell (c.inDegrees angle) ++ ';' :: cell (c.inDegrees angle - angle)
    ++ ['\n']

/-- A whole table, given its angles. -/
def text (c : Correction) (angles : List Float) : List Char :=
  header ++ angles.flatMap (row c)

/-- Writes the lines of a table and passes them on. -/
def writeLines (c : Correction) (angles : List Float) (sink : Sink) :
    Sink × Except SinkFault Unit :=
  match sink.write (Text.bytes header) with
  | (sink, .error cause) => (sink, .error cause)
  | (sink, .ok ()) =>
    match sink.writeEach (fun angle => Text.bytes (row c angle)) angles with
    | (sink, .error cause) => (sink, .error cause)
    | (sink, .ok ()) => (sink, sink.flush)

/-- Writes the table of a correction over a sweep. The result is what became of the sink, and the
number of rows or the first fault; only a table that was written completely is reported. -/
def write (c : Correction) (sweep : Sweep) (sink : Sink) : Logged (Sink × Except Fault Nat) :=
  match sweep.angles with
  | .error flaw => pure (sink, .error (.sweep flaw))
  | .ok angles =>
    match writeLines c angles sink with
    | (sink, .error cause) => pure (sink, .error (.sink cause))
    | (sink, .ok ()) => do
      Logged.report (.tabulated angles.length)
      return (sink, .ok angles.length)

/-- The larger of two numbers, or the first if the second is undefined. -/
def larger (a b : Float) : Float :=
  if a < b then b else a

/-- The largest disagreement of the two forms of a correction over a sweep, at least zero. -/
def largestDisagreement (c : Correction) (sweep : Sweep) : Except Fault Float :=
  match sweep.angles with
  | .error flaw => .error (.sweep flaw)
  | .ok angles => .ok (angles.foldl (fun most angle => larger most (c.disagreement angle)) 0)

end LidarAngle.Table

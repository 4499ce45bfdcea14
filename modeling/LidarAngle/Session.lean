import LidarAngle.Reply.Adopt
import LidarAngle.Table

/-!
# Sessions

A session keeps corrections in cells and gives them out by handles. An owned handle has a cell of
its own; handles that share a cell see each other's changes. Cloning an owned handle copies its
cell, cloning a shared handle makes another handle of the same cell, and sharing makes a shared
handle of a copy. Handles are numbered from zero in the order in which they are made.

Only an accepted reply, a new calibration and a reset change a cell. A shared handle also reports
a reply that it rejects, as whoever reads the angles is not the one who sees the answer.

## Main definitions

* `Session`, `Session.Handle` - the cells and the handles
* `Session.Action`, `Session.Answer` - what can be asked of a handle, and what it answers
* `Session.step` - one action on one handle
* `Session.run` - a list of actions, each on some handle
-/

namespace LidarAngle

namespace Session

/-- A way to reach a cell. -/
structure Handle where
  cell : Nat
  shared : Bool
  deriving DecidableEq

inductive Action where
  | receive (framing : Reply.Framing) (reply : List UInt8)
  | receiveText (text : List Char)
  | inDegrees (angle : Float)
  | inRadians (angle : Float)
  | isIdentity
  | reset
  | install (calibration : Calibration)
  | tabulate (sweep : Sweep) (sink : Sink)
  -- Measure how far the two forms of the correction disagree.
  | measure (sweep : Sweep)
  | clone
  -- Make a shared handle of a copy.
  | share

inductive Answer where
  | done
  | refused (fault : Fault)
  | number (x : Float)
  | truth (b : Bool)
  | table (sink : Sink) (rows : Except Fault Nat)
  | handle (index : Nat)

end Session

/-- Corrections in cells, and the handles to reach them. -/
structure Session where
  cells : List Correction
  handles : List Session.Handle
  deriving DecidableEq

namespace Session

/-- A session with one handle. -/
def start (shared : Bool) (correction : Correction) : Session where
  cells := [correction]
  handles := [{ cell := 0, shared }]

/-- The correction that a handle reaches. -/
def correction? (session : Session) (index : Nat) : Option Correction := do
  let handle ← session.handles[index]?
  session.cells[handle.cell]?

/-- The session with another correction in a cell. -/
def put (session : Session) (cell : Nat) (correction : Correction) : Session :=
  { session with cells := session.cells.set cell correction }

def addHandle (session : Session) (handle : Handle) : Session :=
  { session with handles := session.handles ++ [handle] }

def addCell (session : Session) (correction : Correction) (shared : Bool) : Session where
  cells := session.cells ++ [correction]
  handles := session.handles ++ [{ cell := session.cells.length, shared }]

/-- Puts a received correction into a cell, or reports the rejection if the handle is shared. -/
def settle (session : Session) (handle : Handle) :
    Except Fault Correction → Logged (Session × Answer)
  | .ok correction => pure (session.put handle.cell correction, .done)
  | .error fault => do
    if handle.shared then Logged.report (.rejected fault)
    return (session, .refused fault)

/-- One action on a handle that reaches a correction. -/
def act (session : Session) (handle : Handle) (correction : Correction) :
    Action → Logged (Session × Answer)
  | .receive framing reply => do session.settle handle (← Reply.receive framing reply)
  | .receiveText text => do session.settle handle (← Reply.receiveText text)
  | .inDegrees angle => pure (session, .number (correction.inDegrees angle))
  | .inRadians angle => pure (session, .number (correction.inRadians angle))
  | .isIdentity => pure (session, .truth correction.isIdentity)
  | .reset => pure (session.put handle.cell .neutral, .done)
  | .install calibration => pure (session.put handle.cell (.ofCalibration calibration), .done)
  | .tabulate sweep sink => do
    let (sink, rows) ← Table.write correction sweep sink
    return (session, .table sink rows)
  | .measure sweep =>
    match Table.largestDisagreement correction sweep with
    | .ok most => pure (session, .number most)
    | .error fault => pure (session, .refused fault)
  | .clone =>
    pure (if handle.shared then session.addHandle handle else session.addCell correction false,
      .handle session.handles.length)
  | .share => pure (session.addCell correction true, .handle session.handles.length)

/-- One action on a handle, given by its number; nothing if there is no such handle. -/
def step (session : Session) (index : Nat) (action : Action) :
    Option (Logged (Session × Answer)) := do
  let handle ← session.handles[index]?
  let correction ← session.cells[handle.cell]?
  return session.act handle correction action

/-- An action and the number of the handle it is asked of. -/
structure Request where
  index : Nat
  action : Action

structure Entry where
  answer : Answer
  events : List Log.Event
  correction : Correction

/-- Actions in order, with what came of each; nothing if one is asked of a handle that does not
exist. -/
def run : Session → List Request → Option (Session × List Entry)
  | session, [] => some (session, [])
  | session, request :: rest => do
    let ⟨(next, answer), events⟩ ← session.step request.index request.action
    let correction ← next.correction? request.index
    let (final, entries) ← next.run rest
    return (final, ⟨answer, events, correction⟩ :: entries)

end Session

end LidarAngle

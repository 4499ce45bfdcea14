import LidarAngle.Correction
import LidarAngle.Decimal.Layout
import LidarAngle.Fault

/-!
# Log

The library reports what it does as events. An event has a level and a wording; a threshold
decides by the level alone which events are shown. A computation that reports events is a
`Logged` value: its result beside the events, in the order in which they happened.

## Main definitions

* `Log.Level`, `Log.Threshold` - how important an event is, and how important it has to be
* `Log.Event` - what can happen
* `Logged` - a result and the events on the way
-/

namespace LidarAngle

namespace Log

inductive Level where
  | error
  | warn
  | info
  | debug
  | trace
  deriving DecidableEq, Repr

/-- The rank of a level; the least is the most important. -/
def Level.rank : Level → Nat
  | error => 1
  | warn => 2
  | info => 3
  | debug => 4
  | trace => 5

def Level.label : Level → String
  | error => "ERROR"
  | warn => "WARN"
  | info => "INFO"
  | debug => "DEBUG"
  | trace => "TRACE"

/-- The least important level that is shown; without one nothing is. -/
abbrev Threshold := Option Level

def Threshold.Shows (threshold : Threshold) (level : Level) : Prop :=
  match threshold with
  | .none => False
  | .some least => level.rank ≤ least.rank

instance (threshold : Threshold) (level : Level) : Decidable (threshold.Shows level) := by
  unfold Threshold.Shows; split <;> infer_instance

/-- The threshold that a text names, in letters of either case. Text that names no level shows
nothing, as does the word for that. -/
def Threshold.ofText (text : List Char) : Threshold :=
  let word := String.ofList (text.map Char.toLower)
  if word = "error" then some .error
  else if word = "warn" then some .warn
  else if word = "info" then some .info
  else if word = "debug" then some .debug
  else if word = "trace" then some .trace
  else none

inductive Event where
  | spelled (text : List Char)
  | adopted (correction : Correction)
  | rejected (fault : Fault)
  | tabulated (rows : Nat)
  | unprompted
  -- The program goes on with a correction.
  | inForce (correction : Correction)
  | disagreement (degrees : Float)
  | saved (rows : Nat) (path : String)
  deriving DecidableEq

def Event.level : Event → Level
  | spelled _ => .trace
  | adopted _ => .debug
  | rejected _ => .warn
  | tabulated _ => .debug
  | unprompted => .info
  | inForce _ => .info
  | disagreement _ => .debug
  | saved _ _ => .info

/-- A figure of a correction, with the four places of a calibration. -/
def figure (x : Float) : String :=
  String.ofList (Decimal.fixed 4 x)

def Event.message : Event → String
  | spelled text => "Normalized binary reply: " ++ String.ofList (Quoted.quote text)
  | adopted c =>
    "Angle compensation: ampl=" ++ figure c.amplitude ++ " phase=" ++ figure c.phaseDeg
      ++ "deg offset=" ++ figure c.offsetDeg ++ "deg"
  | rejected fault => "Rejected angle compensation reply: " ++ fault.message
  | tabulated rows => s!"Wrote compensation table with {rows} rows"
  | unprompted => "No reply given, using configured calibration"
  | inForce c =>
    "Amplitude " ++ figure c.amplitude ++ ", phase " ++ figure c.phaseDeg ++ " deg, offset "
      ++ figure c.offsetDeg ++ " deg"
  | disagreement degrees =>
    "Max deg/rad disagreement: " ++ String.ofList (Decimal.scientific degrees) ++ " deg"
  | saved rows path => s!"Wrote {rows} rows to " ++ path

def Event.line (event : Event) : String :=
  event.level.label ++ " " ++ event.message

def Threshold.filter (threshold : Threshold) (events : List Event) : List Event :=
  events.filter fun event => threshold.Shows event.level

/-- A threshold shows the events of a run in two parts as it shows them in one. -/
@[simp] theorem Threshold.filter_append (threshold : Threshold) (a b : List Event) :
    threshold.filter (a ++ b) = threshold.filter a ++ threshold.filter b := by
  simp [Threshold.filter]

end Log

/-- A result and the events on the way to it. -/
@[ext] structure Logged (α : Type) where
  result : α
  events : List Log.Event := []

namespace Logged

/-- One computation after another; the events of the first come first. -/
protected def bind {α β : Type} (first : Logged α) (next : α → Logged β) : Logged β where
  result := (next first.result).result
  events := first.events ++ (next first.result).events

instance : Monad Logged where
  pure a := { result := a }
  bind := Logged.bind

def report (event : Log.Event) : Logged Unit where
  result := ()
  events := [event]

variable {α β : Type}

@[simp] theorem result_pure (a : α) : (pure a : Logged α).result = a := rfl

@[simp] theorem events_pure (a : α) : (pure a : Logged α).events = [] := rfl

@[simp] theorem result_bind (x : Logged α) (f : α → Logged β) :
    (x >>= f).result = (f x.result).result := rfl

@[simp] theorem events_bind (x : Logged α) (f : α → Logged β) :
    (x >>= f).events = x.events ++ (f x.result).events := rfl

@[simp] theorem events_report (event : Log.Event) : (report event).events = [event] := rfl

instance : LawfulMonad Logged :=
  .mk' Logged (fun _ => Logged.ext rfl (List.append_nil _))
    (fun _ _ => Logged.ext rfl (List.nil_append _))
    (fun _ _ _ => Logged.ext rfl (List.append_assoc _ _ _))

end Logged

end LidarAngle

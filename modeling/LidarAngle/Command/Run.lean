import LidarAngle.Command.Options
import LidarAngle.Directory
import LidarAngle.Reply.Adopt
import LidarAngle.Settings.Read
import LidarAngle.Table

/-!
# Runs

A run reads the settings, finds the correction in force, and writes its table. The correction is
that of the reply on the command line, or else that of the settings. The output is opened only
when nothing but writing can fail, so a run that fails leaves no output behind.

The level in the settings decides which events are shown. How far the two forms of the correction
disagree is worked out only if it is shown.

## Main definitions

* `Command.prepare` - the run up to the opening of the output
* `Command.finish` - the run from there on
* `Command.run` - a whole run in a directory
-/

namespace LidarAngle.Command

/-- The settings of a run, given how the settings file was read. -/
def settings (options : Options) (read : String → Except FileFault ByteArray) :
    Except Fault Settings :=
  match options.config with
  | some path => Settings.load (read path)
  | none => .ok {}

def correction (options : Options) (settings : Settings) : Logged (Except Fault Correction) :=
  match options.ascii, options.payload with
  | some text, _ => Reply.receive .ascii (Text.utf8 text)
  | none, some text =>
    match PayloadText.read text with
    | .error flaw => pure (.error (.payload flaw))
    | .ok payload => Reply.receive .binary (Text.utf8 settings.header ++ payload)
  | none, none => do
    Logged.report .unprompted
    return .ok (.ofCalibration settings.calibration)

/-- Reports how far the two forms of a correction disagree, if that is shown. -/
def measure (settings : Settings) (c : Correction) : Logged (Except Fault Unit) :=
  if (Log.Threshold.ofText settings.level).Shows .debug then
    match Table.largestDisagreement c settings.sweep with
    | .error fault => pure (.error fault)
    | .ok degrees => do
      Logged.report (.disagreement degrees)
      return .ok ()
  else pure (.ok ())

/-- The run up to the opening of the output: the correction in force. -/
def prepare (options : Options) (settings : Settings) : Logged (Except Fault Correction) := do
  match ← correction options settings with
  | .error fault => return .error fault
  | .ok c =>
    Logged.report (.inForce c)
    match ← measure settings c with
    | .error fault => return .error fault
    | .ok () => return .ok c

/-- The run from the opening of the output on: what was written, and the first fault. -/
def finish (options : Options) (settings : Settings) (c : Correction) :
    Logged (ByteArray × Option Fault) := do
  match ← Table.write c settings.sweep {} with
  | (sink, .error fault) => return (sink.held, some fault)
  | (sink, .ok rows) =>
    match options.output with
    | some path => Logged.report (.saved rows path)
    | none => pure ()
    return (sink.held, none)

/-- What a run leaves behind. -/
structure Outcome where
  fault : Option Fault
  shown : List Log.Event
  printed : ByteArray
  directory : Directory

def Outcome.status (outcome : Outcome) : Nat :=
  match outcome.fault with
  | none => 0
  | some fault => fault.code

/-- A whole run in a directory. -/
def run (options : Options) (directory : Directory) : Outcome :=
  match settings options directory.read with
  | .error fault => ⟨some fault, [], .empty, directory⟩
  | .ok settings =>
    let shown := (Log.Threshold.ofText settings.level).filter
    let ⟨prepared, before⟩ := prepare options settings
    match prepared with
    | .error fault => ⟨some fault, shown before, .empty, directory⟩
    | .ok c =>
      match options.output with
      | none =>
        let ⟨(written, fault), after⟩ := finish options settings c
        ⟨fault, shown (before ++ after), written, directory⟩
      | some path =>
        match directory.create path with
        | .error cause => ⟨some (.file cause), shown before, .empty, directory⟩
        | .ok name =>
          let ⟨(written, fault), after⟩ := finish options settings c
          ⟨fault, shown (before ++ after), .empty, directory.store name written⟩

end LidarAngle.Command

import LidarAngle.Command.Run

/-!
# The program

The outer layer of the program: it reads the settings file, opens the output and prints. Which
correction is in force and what the table says is decided by `Command.prepare` and
`Command.finish`.
-/

namespace LidarAngle.Command

/-- The exit status for arguments that are no options. -/
def usageStatus : UInt32 := 2

def usage : String :=
  "Usage: lidar-angle [OPTIONS]\n\n" ++
  "  -c, --config <FILE>      settings file\n" ++
  "  -a, --ascii <REPLY>      reply as text\n" ++
  "  -p, --payload <DIGITS>   payload of a binary reply in hexadecimal\n" ++
  "  -o, --output <FILE>      file for the table instead of standard output\n"

/-- The system's number of an error, which some of its calls report negated. -/
def errorNumber (code : UInt32) : UInt32 :=
  if code < 0x80000000 then code else -code

/-- The cause behind a number and a reason of the system. -/
def numberedFault (code : UInt32) (reason : String) : FileFault :=
  match (errorNumber code).toNat with
  | 20 => .notDirectory
  | 21 => .isDirectory
  | 36 => .nameTooLong
  | _ => .refused reason

/-- The cause behind a refusal of the system. -/
def fileFault : IO.Error → FileFault
  | .noFileOrDirectory _ _ _ => .missing
  | .inappropriateType _ code reason => numberedFault code reason
  | .invalidArgument _ code reason => numberedFault code reason
  | error => .refused (toString error)

/-- The result of an action, or the cause of its refusal. -/
def attempt {α : Type} (action : IO α) : IO (Except FileFault α) := do
  match ← action.toBaseIO with
  | .ok a => return .ok a
  | .error error => return .error (fileFault error)

def logEvents (threshold : Log.Threshold) (events : List Log.Event) : IO Unit := do
  for event in threshold.filter events do
    IO.eprintln event.line

def fail (fault : Fault) : IO UInt32 := do
  IO.eprintln ("lidar-angle: " ++ fault.message)
  return fault.code.toUInt32

/-- Writes the table to a stream. -/
def deliver (options : Options) (settings : Settings) (c : Correction) (stream : IO.FS.Stream) :
    IO UInt32 := do
  let ⟨(written, fault), events⟩ := finish options settings c
  match ← attempt (do stream.write written; stream.flush) with
  | .error cause => fail (.file cause)
  | .ok () =>
    logEvents (.ofText settings.level) events
    match fault with
    | some fault => fail fault
    | none => return 0

def perform (options : Options) : IO UInt32 := do
  let content ← match options.config with
    | some path => attempt (IO.FS.readBinFile path)
    | none => pure (.ok .empty)
  match settings options fun _ => content with
  | .error fault => fail fault
  | .ok settings =>
    let ⟨prepared, events⟩ := prepare options settings
    logEvents (.ofText settings.level) events
    match prepared with
    | .error fault => fail fault
    | .ok c =>
      match options.output with
      | none => deliver options settings c (← IO.getStdout)
      | some path =>
        match ← attempt (IO.FS.Handle.mk path .write) with
        | .error cause => fail (.file cause)
        | .ok handle => deliver options settings c (.ofHandle handle)

end LidarAngle.Command

/-- Writes the table of a correction as the arguments say. -/
def main (arguments : List String) : IO UInt32 := do
  match LidarAngle.Command.Options.parse? (arguments.map String.toList) with
  | some options => LidarAngle.Command.perform options
  | none =>
    IO.eprint LidarAngle.Command.usage
    return LidarAngle.Command.usageStatus

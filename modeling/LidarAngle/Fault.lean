import LidarAngle.Reply.PayloadText
import LidarAngle.Sweep

/-!
# Faults

Everything that can go wrong, by cause. The wording and the status code of each cause are given
here once.

## Main definitions

* `Field` - the three numeric fields of a reply
* `FileFault`, `SinkFault` - what can go wrong outside
* `Fault` - all causes, with `Fault.message` and `Fault.code`
-/

namespace LidarAngle

inductive Field where
  | amplitude
  | phase
  | offset
  deriving DecidableEq

def Field.name : Field → String
  | amplitude => "amplitude"
  | phase => "phase"
  | offset => "offset"

/-- Why a file cannot be read or created. -/
inductive FileFault where
  | missing
  | notDirectory
  | isDirectory
  | nameTooLong
  | notText
  -- Any other refusal of the system, in its own words.
  | refused (reason : String)
  deriving DecidableEq

def FileFault.message : FileFault → String
  | missing => "No such file or directory (os error 2)"
  | notDirectory => "Not a directory (os error 20)"
  | isDirectory => "Is a directory (os error 21)"
  | nameTooLong => "File name too long (os error 36)"
  | notText => "stream did not contain valid UTF-8"
  | refused reason => reason

/-- Why a table could not be written out completely. -/
inductive SinkFault where
  | full
  -- The sink took the text but could not pass it on.
  | unflushed
  deriving DecidableEq

def SinkFault.message : SinkFault → String
  | full => "failed to write whole buffer"
  | unflushed => "flush failed"

inductive Fault where
  | tokenCount (actual : Nat)
  | badField (field : Field) (token : List Char)
  | file (cause : FileFault)
  | sink (cause : SinkFault)
  | settings
  | sweep (flaw : Sweep.Flaw)
  | payload (flaw : PayloadText.Flaw)
  deriving DecidableEq

namespace Fault

/-- The number of tokens of a well-formed reply. -/
def expectedTokens : Nat := 5

def message : Fault → String
  | tokenCount actual => s!"Malformed reply: expected {expectedTokens} tokens, got {actual}"
  | badField field token =>
    "Invalid " ++ field.name ++ " field: " ++ String.ofList (Quoted.quote token)
  | file cause => "I/O error: " ++ cause.message
  | sink cause => "I/O error: " ++ cause.message
  | settings => "Configuration error"
  | sweep flaw => "Invalid parameter: " ++ flaw.message
  | payload flaw => "Invalid parameter: " ++ flaw.message

/-- The status code of a fault. No fault has the code zero, which stands for success. -/
def code : Fault → Nat
  | tokenCount _ => 1
  | badField _ _ => 2
  | file _ => 3
  | sink _ => 3
  | settings => 4
  | sweep _ => 5
  | payload _ => 5

theorem code_ne_zero (fault : Fault) : fault.code ≠ 0 := by
  cases fault <;> simp [code]

end Fault

end LidarAngle

import LidarAngle.Log
import LidarAngle.Reply.Binary
import LidarAngle.Reply.Tokens
import LidarAngle.Reply.Word

/-!
# Decoding replies

A reply has five tokens: a marker, a command name, and the amplitude, the phase and the offset.
The number of tokens is checked first, then the fields in that order, and the first fault is
reported. The marker and the command name may be anything.

Replies come as bytes in one of two framings. Text bytes are read as Latin-1; a binary reply is
spelled out first, which is reported.

## Main definitions

* `Reply.Framing` - text or binary
* `Reply.decodeText` - the calibration in a text
* `Reply.decode` - the calibration in a reply of either framing
-/

namespace LidarAngle.Reply

inductive Framing where
  | ascii
  | binary
  deriving DecidableEq

def readField (field : Field) (token : List Char) : Except Fault UInt64 :=
  match word? token with
  | some word => .ok word
  | none => .error (.badField field token)

def decodeTokens : List (List Char) → Except Fault Calibration
  | [_, _, amplitude, phase, offset] => do
    let amplitude ← readField .amplitude amplitude
    let phase ← readField .phase phase
    let offset ← readField .offset offset
    return .ofWords amplitude phase offset
  | tokens => .error (.tokenCount tokens.length)

def decodeText (text : List Char) : Except Fault Calibration :=
  decodeTokens (tokens text)

/-- The text form of a reply. -/
def text : Framing → List UInt8 → List Char
  | .ascii, reply => Text.latin1 reply
  | .binary, reply => spell reply

/-- What is reported of a reply before it is decoded. -/
def reports : Framing → List UInt8 → List Log.Event
  | .ascii, _ => []
  | .binary, reply => [.spelled (spell reply)]

/-- The calibration in a reply. -/
def decode (framing : Framing) (reply : List UInt8) : Logged (Except Fault Calibration) where
  result := decodeText (text framing reply)
  events := reports framing reply

end LidarAngle.Reply

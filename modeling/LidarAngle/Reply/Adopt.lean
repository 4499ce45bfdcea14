import LidarAngle.Reply.Decode

/-!
# Adopting replies

A reply that decodes becomes the correction in force, which is reported. A reply that does not
decode changes nothing.

## Main definitions

* `Reply.adopt` - the correction of what was decoded
* `Reply.receive`, `Reply.receiveText` - the correction in a reply
-/

namespace LidarAngle.Reply

/-- The correction of a decoded calibration, reported as adopted. -/
def adopt : Except Fault Calibration → Logged (Except Fault Correction)
  | .error fault => pure (.error fault)
  | .ok calibration => do
    Logged.report (.adopted (.ofCalibration calibration))
    return .ok (.ofCalibration calibration)

def receive (framing : Framing) (reply : List UInt8) : Logged (Except Fault Correction) := do
  adopt (← decode framing reply)

def receiveText (text : List Char) : Logged (Except Fault Correction) :=
  adopt (decodeText text)

/-- A reply is received as the correction of what it decodes to. -/
theorem result_receive (framing : Framing) (reply : List UInt8) :
    (receive framing reply).result = (decode framing reply).result.map .ofCalibration := by
  rw [receive, Logged.result_bind]
  cases (decode framing reply).result with
  | error fault => rfl
  | ok calibration => rfl

end LidarAngle.Reply

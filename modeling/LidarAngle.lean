import LidarAngle.Main
import LidarAngle.Proofs.Reply.Payload
import LidarAngle.Proofs.Reply.Tokens
import LidarAngle.Proofs.Text.Ascii
import LidarAngle.Proofs.Text.Separator
import LidarAngle.Session
import LidarAngle.Settings.Save
import LidarAngle.Proofs.Reply.Spelling
import LidarAngle.Proofs.Reply.Word
import LidarAngle.Proofs.Reply.Binary
import LidarAngle.Proofs.Reply.RoundTrip
import LidarAngle.Proofs.Reply.Misreading
import LidarAngle.Proofs.Reply.Outcome
import LidarAngle.Proofs.Reply.Forms
import LidarAngle.Proofs.Session.History
import LidarAngle.Proofs.Session.Run
import LidarAngle.Proofs.Session.Shared
import LidarAngle.Proofs.Reply.PayloadText
import LidarAngle.Proofs.Reply.Reread
import LidarAngle.Proofs.Command.Run
import LidarAngle.Proofs.Command.Agreement
import LidarAngle.Proofs.Command.Payload
import LidarAngle.Proofs.Decimal.Binary
import LidarAngle.Proofs.Decimal.Rounding
import LidarAngle.Proofs.Decimal.Nearest
import LidarAngle.Proofs.Binary.Rounded
import LidarAngle.Proofs.Decimal.Shortest
import LidarAngle.Proofs.Decimal.Layout
import LidarAngle.Proofs.Toml.Number
import LidarAngle.Proofs.Toml.Quotation
import LidarAngle.Proofs.Toml.Document
import LidarAngle.Proofs.Settings.RoundTrip
import LidarAngle.Proofs.Reply.Acceptance
import LidarAngle.Proofs.Session.Bytes
import LidarAngle.Proofs.Command.Stages
import LidarAngle.Proofs.Command.Level
import LidarAngle.Proofs.Binary.Arithmetic
import LidarAngle.Proofs.Sweep.Grid
import LidarAngle.Proofs.Settings.Draft
import LidarAngle.Proofs.Settings.Overlay
import LidarAngle.Proofs.Text.Positional
import LidarAngle.Proofs.Reply.Fields
import LidarAngle.Proofs.Binary.Spacing
import LidarAngle.Proofs.Sweep.Decision
import LidarAngle.Proofs.Sweep.Resolution
import LidarAngle.Proofs.Binary.Error
import LidarAngle.Proofs.Trig
import LidarAngle.Proofs.Correction.Scale
import LidarAngle.Proofs.Correction.Forms
import LidarAngle.Proofs.Correction.Reach
import LidarAngle.Proofs.Correction.Agreement
import LidarAngle.Proofs.Decimal.Column
import LidarAngle.Proofs.Table.Lines
import LidarAngle.Proofs.Binary.Zero
import LidarAngle.Proofs.Correction.Identity
import LidarAngle.Proofs.Reply.Lossless
import LidarAngle.Proofs.Correction.Figures

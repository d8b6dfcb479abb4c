import VideoExport.Main
import VideoExport.Proofs.Number.Binary
import VideoExport.Proofs.Number.Rounding
import VideoExport.Proofs.Number.Arithmetic
import VideoExport.Proofs.Number.Decimal
import VideoExport.Proofs.Number.Fixed
import VideoExport.Proofs.Filter.Number
import VideoExport.Proofs.Text.Pieces
import VideoExport.Proofs.Wire.Lexing
import VideoExport.Proofs.Wire.Values
import VideoExport.Proofs.Recipe.Core
import VideoExport.Proofs.Filter.Expression
import VideoExport.Proofs.Filter.Chain
import VideoExport.Proofs.Plan.Compile
import VideoExport.Proofs.Plan.Wire
import VideoExport.Proofs.Plan.Recipe
import VideoExport.Proofs.Plan.Codecs
import VideoExport.Proofs.Plan.Decisions
import VideoExport.Proofs.Plan.Admission
import VideoExport.Proofs.Plan.Filters
import VideoExport.Proofs.Plan.Animation
import VideoExport.Proofs.Number.Sign
import VideoExport.Proofs.Number.Order
import VideoExport.Proofs.Number.Difference
import VideoExport.Proofs.Wire.Times
import VideoExport.Proofs.Wire.RoundTrip
import VideoExport.Proofs.Plan.Times
import VideoExport.Proofs.Plan.OpenEnd
import VideoExport.Proofs.Plan.Window
import VideoExport.Proofs.Plan.Frames
import VideoExport.Proofs.Plan.Arguments
import VideoExport.Proofs.Plan.Understood
import VideoExport.Proofs.Plan.Warnings
import VideoExport.Proofs.Plan.Rates
import VideoExport.Proofs.Plan.Copies
import VideoExport.Proofs.Filter.Lost
import VideoExport.Proofs.Wire.Relexing
import VideoExport.Proofs.Recipe.Leftover
import VideoExport.Proofs.Job.Admission
import VideoExport.Proofs.Session.Standing
import VideoExport.Proofs.Session.Isolation
import VideoExport.Proofs.Session.Sequence
import VideoExport.Proofs.Session.Preview
import VideoExport.Proofs.Datum.RoundTrip
import VideoExport.Proofs.Session.Message
import VideoExport.Proofs.Worker.Account
import VideoExport.Proofs.Worker.Completion
import VideoExport.Proofs.Recipe.Places
import VideoExport.Proofs.Recipe.Treatment
import VideoExport.Proofs.Plan.Targets
import VideoExport.Proofs.Recipe.Last
import VideoExport.Proofs.Plan.Subtitles
import VideoExport.Proofs.Plan.Order
import VideoExport.Proofs.Recipe.Order
import VideoExport.Proofs.Filter.Scan
import VideoExport.Proofs.Session.Watchdog
import VideoExport.Proofs.Job.Progress
import VideoExport.Proofs.Job.Lifecycle
import VideoExport.Proofs.Tool.Geometry
import VideoExport.Proofs.Tool.Framing
import VideoExport.Proofs.Tool.Ending
import VideoExport.Proofs.Tool.Duration
import VideoExport.Proofs.Tool.SubRip
import VideoExport.Proofs.Frame.History
import VideoExport.Proofs.Animation.Writer
import VideoExport.Proofs.Plan.Container
import VideoExport.Proofs.Timecode.Clock
import VideoExport.Proofs.CommandLine.Settings

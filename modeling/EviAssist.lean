import EviAssist.CommandLine
import EviAssist.Debouncer.Timeline
import EviAssist.FileTree
import EviAssist.Gate.Schedule
import EviAssist.Main
import EviAssist.Proofs.Background.Session
import EviAssist.Proofs.Background.Stopped
import EviAssist.Proofs.Validator.Current
import EviAssist.Session.Actions
import EviAssist.Proofs.Validator.Orphans
import EviAssist.Proofs.Validator.Lingering
import EviAssist.Proofs.Background.Program
import EviAssist.Proofs.Validator.Documents
import EviAssist.Proofs.Background.LatestText
import EviAssist.Proofs.Debouncer.Timeline
import EviAssist.Proofs.Debouncer.Interleaving
import EviAssist.Proofs.Session
import EviAssist.Proofs.Session.Order
import EviAssist.Proofs.Bridge
import EviAssist.Proofs.Bridge.Session
import EviAssist.Proofs.Gate
import EviAssist.Proofs.Lint.Printout.Text
import EviAssist.Proofs.Lint.Accepted
import EviAssist.Proofs.Validator.Reloading
import EviAssist.Proofs.Background.Pauses
import EviAssist.Proofs.Background.Renewal
import EviAssist.Proofs.Uri
import EviAssist.Proofs.Completion
import EviAssist.Proofs.Colour
import EviAssist.Proofs.Validator.Frame
import EviAssist.Proofs.CallSite.Literals
import EviAssist.Proofs.Literal
import EviAssist.Proofs.Bridge.Answers
import EviAssist.Proofs.Report.Groups
import EviAssist.Proofs.Config
import EviAssist.Proofs.Uri.Reading
import EviAssist.Proofs.Lint.Request
import EviAssist.Proofs.Symbols
import EviAssist.Proofs.LineEnds
import EviAssist.Proofs.Debouncer.Slots
import EviAssist.Proofs.CommandLine.Cursor
import EviAssist.Proofs.Colour.Interrupted
import EviAssist.Proofs.Process

import ShellHost.CommandLine.Arguments
import ShellHost.CommandLine.LogFilter
import ShellHost.CommandLine.LogLine
import ShellHost.CommandLine.Program
import ShellHost.Disk.Basic
import ShellHost.Disk.Path
import ShellHost.Host.Basic
import ShellHost.Host.Dispatch
import ShellHost.Host.Handler
import ShellHost.Host.Script
import ShellHost.Host.Shell
import ShellHost.Json.Decoder
import ShellHost.Json.Fault
import ShellHost.Json.Printer
import ShellHost.Json.Reader
import ShellHost.Json.Record
import ShellHost.Json.Scanner
import ShellHost.Json.Value
import ShellHost.Lines.Loop
import ShellHost.Lines.Reader
import ShellHost.Main
import ShellHost.Message.Action
import ShellHost.Message.CallError
import ShellHost.Message.CorrelationId
import ShellHost.Message.Dialog
import ShellHost.Message.Envelope
import ShellHost.Message.Event
import ShellHost.Message.Outcome
import ShellHost.Number.Decimal
import ShellHost.Number.Double
import ShellHost.Proofs.Disk.Directories
import ShellHost.Proofs.Disk.Files
import ShellHost.Proofs.Disk.Paths
import ShellHost.Proofs.Disk.Walking
import ShellHost.Proofs.Exchange.Calls
import ShellHost.Proofs.Exchange.Custody
import ShellHost.Proofs.Exchange.Preservation
import ShellHost.Proofs.Host.Crossing
import ShellHost.Proofs.Json.Bounds
import ShellHost.Proofs.Json.Decoding
import ShellHost.Proofs.Json.Nesting
import ShellHost.Proofs.Json.Numbers
import ShellHost.Proofs.Json.Pretty
import ShellHost.Proofs.Json.Strings
import ShellHost.Proofs.Json.Text
import ShellHost.Proofs.Lines.Agreement
import ShellHost.Proofs.Lines.Framing
import ShellHost.Proofs.Lines.Reading
import ShellHost.Proofs.Lines.Replies
import ShellHost.Proofs.Message.Apart
import ShellHost.Proofs.Message.RoundTrip
import ShellHost.Proofs.Session.Bus
import ShellHost.Proofs.Session.Conservation
import ShellHost.Proofs.Session.Correlation
import ShellHost.Proofs.Session.Delivery
import ShellHost.Proofs.Session.Disconnection
import ShellHost.Proofs.Session.Frames
import ShellHost.Proofs.Session.Moves
import ShellHost.Proofs.Session.Runs
import ShellHost.Proofs.Session.Serving
import ShellHost.Proofs.Session.Transparency
import ShellHost.Proofs.Settings.Keeping
import ShellHost.Proofs.Settings.Reading
import ShellHost.Proofs.Settings.Saving
import ShellHost.Proofs.Text.Newline
import ShellHost.Proofs.Text.Utf8
import ShellHost.Session.Basic
import ShellHost.Session.Call
import ShellHost.Session.EventBus
import ShellHost.Session.Exchange
import ShellHost.Session.Step
import ShellHost.Settings.Basic
import ShellHost.Settings.Environment
import ShellHost.Settings.File
import ShellHost.Text.Alphanumeric
import ShellHost.Text.Blank
import ShellHost.Text.Quoted
import ShellHost.Text.Ranges
import ShellHost.Text.Unprintable
import ShellHost.Text.Utf8
import ShellHost.Proofs.Disk.Repeating
import ShellHost.Proofs.Settings.Repeating
import ShellHost.Proofs.Host.Confinement
import ShellHost.Proofs.Settings.Resaving
import ShellHost.Proofs.CommandLine.Secrecy
import ShellHost.Proofs.CommandLine.Starting
import ShellHost.Proofs.Session.Closing
import ShellHost.Proofs.Host.Classification
import ShellHost.Proofs.Json.Members
import ShellHost.Proofs.Json.Consistency
import ShellHost.Proofs.Host.Echo
import ShellHost.Proofs.Text.Lossy
import ShellHost.Proofs.Host.Dialogs
import ShellHost.Proofs.Session.Dialogs
import ShellHost.Proofs.CommandLine.Loading
import ShellHost.Proofs.Disk.Additions
import ShellHost.Proofs.Settings.Failing
import ShellHost.Proofs.Disk.Components
import ShellHost.Proofs.Host.Entrances
import ShellHost.Proofs.CommandLine.Environments
import ShellHost.Lines.Rounds
import ShellHost.Proofs.Lines.Outside
import ShellHost.Proofs.Lines.Rounds
import ShellHost.Proofs.Lines.Schedules
import ShellHost.Proofs.Lines.Buffer
import ShellHost.CommandLine.Pattern
import ShellHost.Proofs.Session.Ring

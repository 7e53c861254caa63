import DelayGenerator.Text.Blank
import DelayGenerator.Text.Duration
import DelayGenerator.Text.Numeral
import DelayGenerator.Text.Quoted
import DelayGenerator.Text.Shown
import DelayGenerator.Text.Utf8
import DelayGenerator.Binary64.Basic
import DelayGenerator.Binary64.Decimal
import DelayGenerator.Binary64.Notation
import DelayGenerator.Binary64.Shortest
import DelayGenerator.Json.Basic
import DelayGenerator.Json.Decoder
import DelayGenerator.Json.Error
import DelayGenerator.Json.Lexeme
import DelayGenerator.Json.Printer
import DelayGenerator.Json.Reader
import DelayGenerator.Line.Framer
import DelayGenerator.Line.Link
import DelayGenerator.Line.Port
import DelayGenerator.Line.ReplyQueue
import DelayGenerator.Pulse.Basic
import DelayGenerator.Pulse.Directive
import DelayGenerator.Pulse.Reply
import DelayGenerator.Pulse.Report
import DelayGenerator.Fault
import DelayGenerator.Document.Scalar
import DelayGenerator.Document.Snapshot
import DelayGenerator.Instrument
import DelayGenerator.Request
import DelayGenerator.Ticker
import DelayGenerator.Shutdown
import DelayGenerator.Settings.Basic
import DelayGenerator.Settings.Environment
import DelayGenerator.Settings.Load
import DelayGenerator.Settings.Reader
import DelayGenerator.Toml.Lexeme
import DelayGenerator.Toml.Reader
import DelayGenerator.Toml.Table
import DelayGenerator.Bench.Basic
import DelayGenerator.Bench.Caller
import DelayGenerator.Bench.Routine
import DelayGenerator.Bench.Schedule
import DelayGenerator.Bench.Script
import DelayGenerator.Bench.Station
import DelayGenerator.Bench.Traffic
import DelayGenerator.Operation.Acknowledge
import DelayGenerator.Operation.Answer
import DelayGenerator.Operation.Commit
import DelayGenerator.Operation.Connect
import DelayGenerator.Operation.Fetch
import DelayGenerator.CommandLine.Arguments
import DelayGenerator.CommandLine.Program
import DelayGenerator.Main
import DelayGenerator.Proofs.Text.Blank
import DelayGenerator.Proofs.Text.LetterCase
import DelayGenerator.Proofs.Text.Numeral
import DelayGenerator.Proofs.Text.Utf8
import DelayGenerator.Proofs.Binary64.Decimal
import DelayGenerator.Proofs.Binary64.Digits
import DelayGenerator.Proofs.Binary64.Notation
import DelayGenerator.Proofs.Binary64.Rounded
import DelayGenerator.Proofs.Binary64.Rounding
import DelayGenerator.Proofs.Binary64.Scientific
import DelayGenerator.Proofs.Json.Decoder
import DelayGenerator.Proofs.Json.Grammar
import DelayGenerator.Proofs.Json.Lexeme
import DelayGenerator.Proofs.Json.Literal
import DelayGenerator.Proofs.Json.Malformed
import DelayGenerator.Proofs.Json.Members
import DelayGenerator.Proofs.Json.Number
import DelayGenerator.Proofs.Json.Order
import DelayGenerator.Proofs.Json.Refusal
import DelayGenerator.Proofs.Json.Results
import DelayGenerator.Proofs.Json.Skip
import DelayGenerator.Proofs.Json.Sorting
import DelayGenerator.Proofs.Json.Written
import DelayGenerator.Proofs.Line.Framer
import DelayGenerator.Proofs.Line.PushLog
import DelayGenerator.Proofs.Line.ReplyQueue
import DelayGenerator.Proofs.Line.Segments
import DelayGenerator.Proofs.Pulse.Directive
import DelayGenerator.Proofs.Pulse.Setting
import DelayGenerator.Proofs.Pulse.Transmission
import DelayGenerator.Proofs.Pulse.Validity
import DelayGenerator.Proofs.Instrument
import DelayGenerator.Proofs.Instrument.Grammar
import DelayGenerator.Proofs.Instrument.Registers
import DelayGenerator.Proofs.Shutdown
import DelayGenerator.Proofs.Settings.Leaf
import DelayGenerator.Proofs.Settings.Overlay
import DelayGenerator.Proofs.Settings.Variable
import DelayGenerator.Proofs.Settings.Layers
import DelayGenerator.Proofs.Request
import DelayGenerator.Proofs.Ticker
import DelayGenerator.Proofs.Bench.Advance
import DelayGenerator.Proofs.Bench.Alone
import DelayGenerator.Proofs.Bench.Answer
import DelayGenerator.Proofs.Bench.Attribution
import DelayGenerator.Proofs.Bench.Cache
import DelayGenerator.Proofs.Bench.Certain
import DelayGenerator.Proofs.Bench.Chronicle
import DelayGenerator.Proofs.Bench.Clock
import DelayGenerator.Proofs.Bench.Connection
import DelayGenerator.Proofs.Bench.Course
import DelayGenerator.Proofs.Bench.Cycle
import DelayGenerator.Proofs.Bench.Deeds
import DelayGenerator.Proofs.Bench.Ending
import DelayGenerator.Proofs.Bench.Exchange
import DelayGenerator.Proofs.Bench.Freshness
import DelayGenerator.Proofs.Bench.Inevitable
import DelayGenerator.Proofs.Bench.Journal
import DelayGenerator.Proofs.Bench.Limit
import DelayGenerator.Proofs.Bench.Outcome
import DelayGenerator.Proofs.Bench.Punctual
import DelayGenerator.Proofs.Bench.Schedule
import DelayGenerator.Proofs.Bench.Sending
import DelayGenerator.Proofs.Bench.Service
import DelayGenerator.Proofs.Bench.Span
import DelayGenerator.Proofs.Bench.Termination
import DelayGenerator.Proofs.Bench.Ticking
import DelayGenerator.Proofs.Bench.Trace
import DelayGenerator.Proofs.Bench.Transcript
import DelayGenerator.Proofs.Bench.Validity
import DelayGenerator.Proofs.Bench.Wakeup
import DelayGenerator.Proofs.Bench.Writes
import DelayGenerator.Proofs.Document.Agreement
import DelayGenerator.Proofs.Document.Clean
import DelayGenerator.Proofs.Document.RoundTrip
import DelayGenerator.Proofs.Document.Selection
import DelayGenerator.Proofs.Document.Snapshot
import DelayGenerator.Proofs.Document.Spelling
import DelayGenerator.Proofs.Document.Wire
import DelayGenerator.Proofs.Operation.Acknowledge
import DelayGenerator.Proofs.Operation.Attempts
import DelayGenerator.Proofs.Operation.Caching
import DelayGenerator.Proofs.Operation.Call
import DelayGenerator.Proofs.Operation.Chunking
import DelayGenerator.Proofs.Operation.Commit
import DelayGenerator.Proofs.Operation.Fetching
import DelayGenerator.Proofs.Operation.History
import DelayGenerator.Proofs.Operation.Miscredit
import DelayGenerator.Proofs.Operation.Refresh
import DelayGenerator.Proofs.Operation.Rejection
import DelayGenerator.Proofs.Operation.Reporting
import DelayGenerator.Proofs.Operation.Restarting
import DelayGenerator.Proofs.Operation.RoundTrip
import DelayGenerator.Proofs.Operation.Silence
import DelayGenerator.Proofs.Operation.Submission
import DelayGenerator.Proofs.Operation.Unsolicited
import DelayGenerator.Proofs.Operation.Validity

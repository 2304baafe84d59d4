import HoldToRecord.Channel.Bounded
import HoldToRecord.Channel.Broadcast
import HoldToRecord.Daemon
import HoldToRecord.Decimal.Digits
import HoldToRecord.Decimal.Shortest
import HoldToRecord.Files.FileTree
import HoldToRecord.Files.Instances
import HoldToRecord.Files.PathName
import HoldToRecord.Files.Socket
import HoldToRecord.Hook.Fault
import HoldToRecord.Hook.Listener
import HoldToRecord.Hook.Publisher
import HoldToRecord.Hook.Recorder
import HoldToRecord.Hook.Threads
import HoldToRecord.Hotkey.Basic
import HoldToRecord.Hotkey.Modifiers
import HoldToRecord.Hotkey.Watch
import HoldToRecord.Json.Fault
import HoldToRecord.Json.Format
import HoldToRecord.Json.Instant
import HoldToRecord.Json.Lexeme
import HoldToRecord.Json.Number
import HoldToRecord.Json.Printer
import HoldToRecord.Json.Reader
import HoldToRecord.Json.Skip
import HoldToRecord.Json.Value
import HoldToRecord.Main
import HoldToRecord.Pipeline
import HoldToRecord.Proofs.Channel.Broadcast
import HoldToRecord.Proofs.Decimal.Lengths
import HoldToRecord.Proofs.Files.Instances
import HoldToRecord.Proofs.Files.Places
import HoldToRecord.Proofs.Files.Sockets
import HoldToRecord.Proofs.Hook.Calls
import HoldToRecord.Proofs.Hook.Operations
import HoldToRecord.Proofs.Hook.Publications
import HoldToRecord.Proofs.Hook.Recorder
import HoldToRecord.Proofs.Hook.Threads
import HoldToRecord.Proofs.Hotkey.Grammar
import HoldToRecord.Proofs.Json.EscapedSize
import HoldToRecord.Proofs.Json.FaultSize
import HoldToRecord.Proofs.Json.ReadBack
import HoldToRecord.Proofs.Json.Reading
import HoldToRecord.Proofs.Json.Spelling
import HoldToRecord.Proofs.Json.TypedText
import HoldToRecord.Proofs.Pipeline.Outcome
import HoldToRecord.Proofs.Pipeline.Stretches
import HoldToRecord.Proofs.Session.Audience
import HoldToRecord.Proofs.Session.Durations
import HoldToRecord.Proofs.Session.Trace
import HoldToRecord.Proofs.Status.Freshness
import HoldToRecord.Proofs.Status.Upkeep
import HoldToRecord.Proofs.Text.Blank
import HoldToRecord.Proofs.Text.Utf8
import HoldToRecord.Proofs.Time.Elapsed
import HoldToRecord.Proofs.Time.Rfc3339
import HoldToRecord.Proofs.Time.Zones
import HoldToRecord.Proofs.Wire.Closing
import HoldToRecord.Proofs.Wire.Cutoff
import HoldToRecord.Proofs.Wire.Delivery
import HoldToRecord.Proofs.Wire.Framing
import HoldToRecord.Proofs.Wire.Isolation
import HoldToRecord.Proofs.Wire.ReplySize
import HoldToRecord.Proofs.Wire.Requests
import HoldToRecord.Proofs.Wire.RoundTrip
import HoldToRecord.Proofs.Wire.Serving
import HoldToRecord.Proofs.Wire.Writing
import HoldToRecord.Server
import HoldToRecord.Session.Basic
import HoldToRecord.Session.Event
import HoldToRecord.Session.Relay
import HoldToRecord.Settings
import HoldToRecord.Signal
import HoldToRecord.Status
import HoldToRecord.Text.Blank
import HoldToRecord.Text.Hidden
import HoldToRecord.Text.Quoted
import HoldToRecord.Text.Utf8
import HoldToRecord.Time.Date
import HoldToRecord.Time.Instant
import HoldToRecord.Time.Rfc3339.Reader
import HoldToRecord.Time.Rfc3339.Writer
import HoldToRecord.Wire.Client
import HoldToRecord.Wire.Connection
import HoldToRecord.Wire.Frame
import HoldToRecord.Wire.Handler
import HoldToRecord.Wire.Hub
import HoldToRecord.Wire.Message

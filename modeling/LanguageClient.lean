import LanguageClient.ChildProcess.Manager
import LanguageClient.ChildProcess.Monitor
import LanguageClient.CommandLine
import LanguageClient.Config.Address
import LanguageClient.Config.Builder
import LanguageClient.Config.Error
import LanguageClient.Config.Transport
import LanguageClient.Document
import LanguageClient.Editor.Registry
import LanguageClient.Editor.Run
import LanguageClient.Editor.Subscriptions
import LanguageClient.Extension
import LanguageClient.Extension.Run
import LanguageClient.FileTree
import LanguageClient.Framing
import LanguageClient.Framing.Endpoint
import LanguageClient.Json.Basic
import LanguageClient.Json.Binary64
import LanguageClient.Json.Number
import LanguageClient.Json.Parser
import LanguageClient.Json.Printer
import LanguageClient.Json.Record
import LanguageClient.Json.Shape
import LanguageClient.LanguageServer.Capabilities
import LanguageClient.LanguageServer.Client
import LanguageClient.LanguageServer.Run
import LanguageClient.Logging.Filter
import LanguageClient.Logging.Pattern
import LanguageClient.Logging.Pattern.Class
import LanguageClient.Logging.Pattern.Escape
import LanguageClient.Logging.Pattern.Group
import LanguageClient.Logging.Pattern.Mode
import LanguageClient.Logging.Settings
import LanguageClient.Main
import LanguageClient.Notice
import LanguageClient.Path
import LanguageClient.Program
import LanguageClient.Program.Trial
import LanguageClient.Rpc.Call
import LanguageClient.Rpc.Client
import LanguageClient.Rpc.Message
import LanguageClient.Rpc.Run
import LanguageClient.Rpc.Timed
import LanguageClient.Scripted.Child
import LanguageClient.Scripted.Command
import LanguageClient.Scripted.Handshake
import LanguageClient.Scripted.Pipe
import LanguageClient.Scripted.Scene
import LanguageClient.Scripted.Server
import LanguageClient.Session.Basic
import LanguageClient.Session.Error
import LanguageClient.Session.Run
import LanguageClient.Session.ServerTraffic
import LanguageClient.Status.Indicator
import LanguageClient.Status.Item
import LanguageClient.Status.Run
import LanguageClient.Stream
import LanguageClient.SystemError
import LanguageClient.Text.Alphanumeric
import LanguageClient.Text.Blank
import LanguageClient.Text.Decoder
import LanguageClient.Text.Hex
import LanguageClient.Text.Numeral
import LanguageClient.Text.Split
import LanguageClient.Text.Utf8
import LanguageClient.Uri.File
import LanguageClient.Uri.Reference
import LanguageClient.Proofs.Text.Decoder
import LanguageClient.Proofs.Framing.Frame
import LanguageClient.Proofs.Framing.Receive
import LanguageClient.Proofs.Framing.RoundTrip
import LanguageClient.Proofs.Rpc.Effect
import LanguageClient.Proofs.Rpc.Wire
import LanguageClient.Proofs.Rpc.Correlation
import LanguageClient.Proofs.LanguageServer.Documents
import LanguageClient.Proofs.LanguageServer.Handshake
import LanguageClient.Proofs.Session.Tracking
import LanguageClient.Proofs.Session.Telling
import LanguageClient.Proofs.Session.Mirror
import LanguageClient.Proofs.Rpc.Pending
import LanguageClient.Proofs.Rpc.Record
import LanguageClient.Proofs.Rpc.Course
import LanguageClient.Proofs.Rpc.Outbound
import LanguageClient.Proofs.Rpc.Loss
import LanguageClient.Proofs.Rpc.Replies
import LanguageClient.Proofs.Rpc.Attendance
import LanguageClient.Proofs.LanguageServer.Conduct
import LanguageClient.Proofs.LanguageServer.Closing
import LanguageClient.Proofs.ChildProcess.Custody
import LanguageClient.Proofs.Session.Conversation
import LanguageClient.Proofs.Session.Readiness
import LanguageClient.Proofs.Session.Custody
import LanguageClient.Proofs.Session.Stopping
import LanguageClient.Proofs.Session.Conclusion
import LanguageClient.Proofs.Session.Failure
import LanguageClient.Proofs.Text.Trim
import LanguageClient.Proofs.Text.Damage
import LanguageClient.Proofs.Framing.Remainder
import LanguageClient.Proofs.Framing.Damage
import LanguageClient.Proofs.Uri.File
import LanguageClient.Proofs.Framing.Offsets
import LanguageClient.Proofs.Framing.Conservation
import LanguageClient.Proofs.Rpc.Intake
import LanguageClient.Proofs.Rpc.Inbound
import LanguageClient.Proofs.LanguageServer.Farewell
import LanguageClient.Proofs.Editor.Registry
import LanguageClient.Proofs.Editor.Lifetime
import LanguageClient.Proofs.Text.Lossy
import LanguageClient.Proofs.Stream.Reading
import LanguageClient.Proofs.Rpc.Grammar
import LanguageClient.Proofs.Rpc.Classification
import LanguageClient.Proofs.Json.RoundTrip
import LanguageClient.Proofs.Text.Split
import LanguageClient.Proofs.Json.Token
import LanguageClient.Proofs.Rpc.Payload
import LanguageClient.Proofs.LanguageServer.Release
import LanguageClient.Proofs.ChildProcess.ErrorLines
import LanguageClient.Proofs.Extension.Leaving
import LanguageClient.Proofs.Extension.Activation
import LanguageClient.Proofs.Status.Indicator
import LanguageClient.Proofs.Status.Rendering
import LanguageClient.Proofs.Config.Transport
import LanguageClient.Proofs.Config.Address
import LanguageClient.Proofs.Config.Builder
import LanguageClient.Proofs.Config.Selection
import LanguageClient.Proofs.Text.Lines
import LanguageClient.Proofs.Framing.Header
import LanguageClient.Proofs.ChildProcess.Supervision
import LanguageClient.Proofs.Status.Disposal
import LanguageClient.Proofs.Status.Announcement

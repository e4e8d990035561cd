import LanguageHub.CallTable
import LanguageHub.Client.Basic
import LanguageHub.Client.Session
import LanguageHub.Completion
import LanguageHub.Config.Basic
import LanguageHub.Config.Fault
import LanguageHub.Config.Files
import LanguageHub.Config.Layers
import LanguageHub.Config.Schema
import LanguageHub.Config.Servers
import LanguageHub.Config.Validation
import LanguageHub.Connection.Basic
import LanguageHub.Connection.Session
import LanguageHub.Decimal.Layout
import LanguageHub.Decimal.Shortest
import LanguageHub.Diagnostic
import LanguageHub.Diagnostic.Report
import LanguageHub.DiagnosticSet
import LanguageHub.Dictionary
import LanguageHub.Duration
import LanguageHub.Failure
import LanguageHub.FileTree.Basic
import LanguageHub.FileTree.Change
import LanguageHub.Frame.Basic
import LanguageHub.Frame.Reading
import LanguageHub.Frame.Split
import LanguageHub.Json.Decode
import LanguageHub.Json.Fault
import LanguageHub.Json.Parser
import LanguageHub.Json.Printer
import LanguageHub.Json.Scan
import LanguageHub.Json.Skip
import LanguageHub.Json.Typed
import LanguageHub.Json.Value
import LanguageHub.Language.CommandTable
import LanguageHub.Language.Resolver
import LanguageHub.Lock
import LanguageHub.Log.Rotation
import LanguageHub.LogLevel
import LanguageHub.Main
import LanguageHub.Manager.Basic
import LanguageHub.Manager.Hosted
import LanguageHub.Manager.Obtaining
import LanguageHub.Manager.Session
import LanguageHub.Message.Handshake
import LanguageHub.Message.Incoming
import LanguageHub.Message.Outgoing
import LanguageHub.Path
import LanguageHub.Position
import LanguageHub.Program.CommandLine
import LanguageHub.Program.Footprint
import LanguageHub.Program.Inspection
import LanguageHub.Program.Places
import LanguageHub.Program.Run
import LanguageHub.Proofs.CallTable
import LanguageHub.Proofs.CallTable.Fates
import LanguageHub.Proofs.Client.Endings
import LanguageHub.Proofs.Client.Failures
import LanguageHub.Proofs.Client.Handshake
import LanguageHub.Proofs.Client.HandshakeOutcome
import LanguageHub.Proofs.Client.Hearing
import LanguageHub.Proofs.Client.Lifecycle
import LanguageHub.Proofs.Client.Messages
import LanguageHub.Proofs.Client.Operations
import LanguageHub.Proofs.Client.Outgoing
import LanguageHub.Proofs.Client.Phases
import LanguageHub.Proofs.Client.Publications
import LanguageHub.Proofs.Client.Readiness
import LanguageHub.Proofs.Client.Run
import LanguageHub.Proofs.Client.Serving
import LanguageHub.Proofs.Client.Shutdowns
import LanguageHub.Proofs.Client.Stages
import LanguageHub.Proofs.Client.Synchronisation
import LanguageHub.Proofs.Client.WireOrder
import LanguageHub.Proofs.Completion
import LanguageHub.Proofs.Config.Extensions
import LanguageHub.Proofs.Config.Layering
import LanguageHub.Proofs.Config.Loaders
import LanguageHub.Proofs.Config.Loading
import LanguageHub.Proofs.Config.Overrides
import LanguageHub.Proofs.Config.Projects
import LanguageHub.Proofs.Config.Settings
import LanguageHub.Proofs.Connection.Answering
import LanguageHub.Proofs.Connection.Bodies
import LanguageHub.Proofs.Connection.Calls
import LanguageHub.Proofs.Connection.Closing
import LanguageHub.Proofs.Connection.Deadlines
import LanguageHub.Proofs.Connection.Finality
import LanguageHub.Proofs.Connection.Folding
import LanguageHub.Proofs.Connection.History
import LanguageHub.Proofs.Connection.Ledger
import LanguageHub.Proofs.Connection.Moves
import LanguageHub.Proofs.Connection.Origins
import LanguageHub.Proofs.Connection.Outcomes
import LanguageHub.Proofs.Connection.Outgoing
import LanguageHub.Proofs.Connection.Reading
import LanguageHub.Proofs.Connection.Replies
import LanguageHub.Proofs.Connection.Routing
import LanguageHub.Proofs.Connection.Serving
import LanguageHub.Proofs.Connection.Settling
import LanguageHub.Proofs.Connection.Steps
import LanguageHub.Proofs.Connection.WholeFrames
import LanguageHub.Proofs.Connection.Writers
import LanguageHub.Proofs.Diagnostic
import LanguageHub.Proofs.Dictionary
import LanguageHub.Proofs.FileTree
import LanguageHub.Proofs.FileTree.Finding
import LanguageHub.Proofs.FileTree.Growing
import LanguageHub.Proofs.Frame.Arriving
import LanguageHub.Proofs.Frame.Bodies
import LanguageHub.Proofs.Frame.Lengths
import LanguageHub.Proofs.Frame.Reading
import LanguageHub.Proofs.Frame.RoundTrip
import LanguageHub.Proofs.Frame.Shapes
import LanguageHub.Proofs.Frame.Splitting
import LanguageHub.Proofs.Json.Grammar
import LanguageHub.Proofs.Json.Members
import LanguageHub.Proofs.Json.Passing
import LanguageHub.Proofs.Json.Readers
import LanguageHub.Proofs.Json.Records
import LanguageHub.Proofs.Json.RoundTrip
import LanguageHub.Proofs.Json.Sorting
import LanguageHub.Proofs.Json.Tokens
import LanguageHub.Proofs.Json.Typed
import LanguageHub.Proofs.Language
import LanguageHub.Proofs.Language.Commands
import LanguageHub.Proofs.Language.Extensions
import LanguageHub.Proofs.Log.Rotation
import LanguageHub.Proofs.Manager.Acts
import LanguageHub.Proofs.Manager.Changes
import LanguageHub.Proofs.Manager.FailedStarts
import LanguageHub.Proofs.Manager.Failures
import LanguageHub.Proofs.Manager.Gates
import LanguageHub.Proofs.Manager.Keeping
import LanguageHub.Proofs.Manager.Lookup
import LanguageHub.Proofs.Manager.Occurrences
import LanguageHub.Proofs.Manager.Outcomes
import LanguageHub.Proofs.Manager.Requests
import LanguageHub.Proofs.Manager.Roster
import LanguageHub.Proofs.Manager.Routing
import LanguageHub.Proofs.Manager.Starts
import LanguageHub.Proofs.Manager.Taxonomy
import LanguageHub.Proofs.Manager.Ways
import LanguageHub.Proofs.Message.Classification
import LanguageHub.Proofs.Message.Documents
import LanguageHub.Proofs.Message.Envelope
import LanguageHub.Proofs.Message.Outbound
import LanguageHub.Proofs.Message.Parameters
import LanguageHub.Proofs.Message.Payloads
import LanguageHub.Proofs.Message.Replies
import LanguageHub.Proofs.Path
import LanguageHub.Proofs.Path.Upward
import LanguageHub.Proofs.Program.CommandLine
import LanguageHub.Proofs.Results
import LanguageHub.Proofs.Stream.Reading
import LanguageHub.Proofs.Tasks
import LanguageHub.Proofs.Text
import LanguageHub.Proofs.Toml.Documents
import LanguageHub.Proofs.Toml.Merging
import LanguageHub.Proofs.Transport.Answers
import LanguageHub.Proofs.Transport.Exhausting
import LanguageHub.Proofs.Transport.Faults
import LanguageHub.Proofs.Transport.HandedOut
import LanguageHub.Proofs.Transport.Performing
import LanguageHub.Proofs.Transport.Releasing
import LanguageHub.Proofs.Transport.Sequences
import LanguageHub.Proofs.Transport.Wire
import LanguageHub.Proofs.Transport.Writing
import LanguageHub.Proofs.Uri.Canonical
import LanguageHub.Proofs.Uri.Parsing
import LanguageHub.Shell.Arithmetic
import LanguageHub.Shell.Command
import LanguageHub.Shell.Expansion
import LanguageHub.Shell.Host
import LanguageHub.Shell.Machine
import LanguageHub.Shell.Parser
import LanguageHub.Shell.Pattern
import LanguageHub.Shell.Texts
import LanguageHub.Shell.Utility
import LanguageHub.Stream.Inflow
import LanguageHub.Stream.Outflow
import LanguageHub.Tasks
import LanguageHub.Text.Blank
import LanguageHub.Text.Letters
import LanguageHub.Text.Lines
import LanguageHub.Text.Numeral
import LanguageHub.Text.Quoted
import LanguageHub.Text.Shapeless
import LanguageHub.Text.Utf8
import LanguageHub.Toml.Parser
import LanguageHub.Toml.Scan
import LanguageHub.Toml.Table
import LanguageHub.Toml.Value
import LanguageHub.Transport.Basic
import LanguageHub.Transport.Session
import LanguageHub.Uri.FileUri
import LanguageHub.Uri.Host
import LanguageHub.Uri.Percent
import LanguageHub.Uri.Url

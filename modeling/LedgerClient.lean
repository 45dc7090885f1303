import LedgerClient.AccountId
import LedgerClient.Backoff
import LedgerClient.Client
import LedgerClient.Config.Basic
import LedgerClient.Config.Check
import LedgerClient.Config.File
import LedgerClient.Config.Read
import LedgerClient.DispatchError
import LedgerClient.Double
import LedgerClient.Event
import LedgerClient.Execution
import LedgerClient.Fault
import LedgerClient.Frame.Ids
import LedgerClient.Frame.Reply
import LedgerClient.Frame.Request
import LedgerClient.IdSequence
import LedgerClient.Ipv6
import LedgerClient.Json.Basic
import LedgerClient.Json.Body
import LedgerClient.Json.Document
import LedgerClient.Json.Printer
import LedgerClient.Json.Record
import LedgerClient.Json.Token
import LedgerClient.LineChannel
import LedgerClient.Message
import LedgerClient.Network
import LedgerClient.Node
import LedgerClient.NodeAddress
import LedgerClient.Operation
import LedgerClient.Precheck
import LedgerClient.Rehearsal.Line
import LedgerClient.Rehearsal.Nodes
import LedgerClient.Request
import LedgerClient.Rotation
import LedgerClient.SocketAddress
import LedgerClient.StreamReset
import LedgerClient.Telemetry
import LedgerClient.Text.Blank
import LedgerClient.Text.Decimal
import LedgerClient.Text.Hexadecimal
import LedgerClient.Text.Word
import LedgerClient.Toml.Number
import LedgerClient.Toml.Read
import LedgerClient.Toml.Text
import LedgerClient.Toml.Tree
import LedgerClient.TransactionId
import LedgerClient.WallTime
import LedgerClient.World
import LedgerClient.Proofs.Attempt
import LedgerClient.Proofs.Course
import LedgerClient.Proofs.Preparation
import LedgerClient.Proofs.FirstTerminal
import LedgerClient.Proofs.Reporting
import LedgerClient.Proofs.LastSentId
import LedgerClient.Proofs.Delay
import LedgerClient.Proofs.Pacing
import LedgerClient.Proofs.Origin
import LedgerClient.Proofs.Renewal
import LedgerClient.Proofs.Locking
import LedgerClient.Proofs.Turns
import LedgerClient.Proofs.Waiting
import LedgerClient.Proofs.Causes
import LedgerClient.Proofs.Provenance
import LedgerClient.Proofs.Availability
import LedgerClient.Proofs.Rounds
import LedgerClient.Proofs.Visits
import LedgerClient.Proofs.NodeHistory
import LedgerClient.Proofs.Alteration
import LedgerClient.Proofs.Readings
import LedgerClient.Proofs.Metering
import LedgerClient.Proofs.NodeSet
import LedgerClient.Proofs.Moves
import LedgerClient.Proofs.Channels
import LedgerClient.Proofs.Lexing
import LedgerClient.Proofs.Documents
import LedgerClient.Proofs.Lines
import LedgerClient.Proofs.Frames
import LedgerClient.Proofs.LineCalls
import LedgerClient.Proofs.ReplyLines
import LedgerClient.Proofs.Validity
import LedgerClient.Proofs.Growth
import LedgerClient.Proofs.Recovery
import LedgerClient.Proofs.Health
import LedgerClient.Proofs.Extension
import LedgerClient.Proofs.Selection
import LedgerClient.Proofs.Pieces
import LedgerClient.Proofs.Ipv6Text
import LedgerClient.Proofs.Spelling
import LedgerClient.Proofs.AddressText
import LedgerClient.Proofs.AccountText
import LedgerClient.Proofs.ResetText
import LedgerClient.Proofs.ValidStart
import LedgerClient.Proofs.IdText
import LedgerClient.Proofs.Defaults
import LedgerClient.Proofs.Places

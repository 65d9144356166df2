import Multidrop.Arrival
import Multidrop.Bus
import Multidrop.Byte.LittleEndian
import Multidrop.Call
import Multidrop.Checksum
import Multidrop.Client
import Multidrop.Client.Line
import Multidrop.Command.Bench
import Multidrop.Command.Configure
import Multidrop.Command.FileTree
import Multidrop.Command.Invocation
import Multidrop.Command.Lines
import Multidrop.Command.Outcome
import Multidrop.Command.Registers
import Multidrop.Command.Run
import Multidrop.Command.Scan
import Multidrop.Command.Setting
import Multidrop.Command.Surroundings
import Multidrop.Command.Token
import Multidrop.Command.Values
import Multidrop.Decimal.Binary
import Multidrop.Decimal.Integer
import Multidrop.Decimal.Notation
import Multidrop.Decimal.Reading
import Multidrop.Decimal.Shortest
import Multidrop.Device
import Multidrop.Duration
import Multidrop.Frame
import Multidrop.Frame.Decode
import Multidrop.Host
import Multidrop.Link
import Multidrop.Link.Drain
import Multidrop.Link.Error
import Multidrop.Link.Reception
import Multidrop.Lock
import Multidrop.Main
import Multidrop.Proofs.Call.Group
import Multidrop.Proofs.Frame.Encoding
import Multidrop.Proofs.History
import Multidrop.Proofs.Link.Conservation
import Multidrop.Proofs.Link.Drain
import Multidrop.Proofs.Link.Reception
import Multidrop.Proofs.Subframe.Stream
import Multidrop.Proofs.Varuint
import Multidrop.Proofs.Wire
import Multidrop.Register.Reply
import Multidrop.Register.Request
import Multidrop.Register.Table
import Multidrop.Register.Value
import Multidrop.Report.Configuration
import Multidrop.Report.Number
import Multidrop.Report.Registers
import Multidrop.Subframe
import Multidrop.Subframe.Stream
import Multidrop.Text.Blank
import Multidrop.Text.Box
import Multidrop.Text.Columns
import Multidrop.Text.Combining
import Multidrop.Text.Emoji
import Multidrop.Text.Hex
import Multidrop.Text.Hidden
import Multidrop.Text.Json
import Multidrop.Text.Ligature
import Multidrop.Text.Quoted
import Multidrop.Text.Ranges
import Multidrop.Text.Terminal
import Multidrop.Text.Width
import Multidrop.Transport.Address
import Multidrop.Transport.Endpoint
import Multidrop.Transport.Fault
import Multidrop.Varuint
import Multidrop.Wire
import Multidrop.Proofs.Call.Turns
import Multidrop.Proofs.Client.Line
import Multidrop.Proofs.Frame.Decode
import Multidrop.Proofs.Register.Request
import Multidrop.Proofs.Call.Effects
import Multidrop.Proofs.Session
import Multidrop.Proofs.Session.Exchanges
import Multidrop.Proofs.Call.Stream
import Multidrop.Proofs.Session.Outgoing
import Multidrop.Proofs.Call.Reading
import Multidrop.Proofs.Session.Incoming
import Multidrop.Proofs.Frame.Feeding
import Multidrop.Proofs.Frame.Grammar
import Multidrop.Proofs.Wire.Flow
import Multidrop.Proofs.Link.Agreement
import Multidrop.Proofs.Link.Listening
import Multidrop.Proofs.Checksum
import Multidrop.Proofs.Frame.Corruption
import Multidrop.Proofs.Register.Table
import Multidrop.Proofs.Register.Value
import Multidrop.Proofs.Varuint.Spelling
import Multidrop.Proofs.Register.Reply
import Multidrop.Proofs.Register.Completeness
import Multidrop.Proofs.Client.Capacity
import Multidrop.Proofs.Session.Capacity
import Multidrop.Proofs.Session.Lines
import Multidrop.Proofs.Link.Discarding
import Multidrop.Proofs.Ledger.Discards
import Multidrop.Proofs.Call.Receiving
import Multidrop.Proofs.Session.Receiving
import Multidrop.Proofs.Session.Alignment
import Multidrop.Proofs.Call.Query
import Multidrop.Proofs.Session.Replies
import Multidrop.Proofs.Wire.Backlog
import Multidrop.Proofs.Link.Stages
import Multidrop.Proofs.Link.Resync
import Multidrop.Proofs.Link.Noise
import Multidrop.Proofs.Link.Policy
import Multidrop.Proofs.Session.Policy
import Multidrop.Proofs.Wire.Cuts
import Multidrop.Proofs.Link.Cuts
import Multidrop.Proofs.Call.Cuts
import Multidrop.Proofs.Host
import Multidrop.Proofs.Host.Cuts
import Multidrop.Proofs.Ledger
import Multidrop.Proofs.Link.Reading
import Multidrop.Proofs.Call.Waiting
import Multidrop.Proofs.Call.Round
import Multidrop.Proofs.Wire.Moments
import Multidrop.Proofs.Call.Deadline
import Multidrop.Proofs.Call.Expiry
import Multidrop.Proofs.Call.Carrying
import Multidrop.Proofs.Call.Failing
import Multidrop.Proofs.Command.Course
import Multidrop.Proofs.Command.Configure
import Multidrop.Proofs.Varuint.Places
import Multidrop.Proofs.Subframe.Header
import Multidrop.Proofs.Register.Operations
import Multidrop.Proofs.Call.Sending
import Multidrop.Proofs.Command.Registers
import Multidrop.Proofs.Checksum.Polynomial
import Multidrop.Proofs.Pieces
import Multidrop.Proofs.Command.Lines
import Multidrop.Proofs.Varuint.Streaming

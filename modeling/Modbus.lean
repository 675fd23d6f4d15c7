import Modbus.Number.Text
import Modbus.Pair
import Modbus.Router
import Modbus.Proofs.Pdu.Grammar
import Modbus.Proofs.Pdu.RoundTrip
import Modbus.Proofs.Pdu.Canonical
import Modbus.Proofs.Pdu.Replies
import Modbus.Proofs.Frame.Delimits
import Modbus.Proofs.Frame.Messages
import Modbus.Proofs.Frame.Stream
import Modbus.Proofs.Frame.Chunks
import Modbus.Proofs.Frame.Replies
import Modbus.Proofs.Frame.Checksum
import Modbus.Proofs.Frame.Damage
import Modbus.Proofs.Frame.Detection
import Modbus.Proofs.Frame.Accounting
import Modbus.Proofs.Frame.Buffer
import Modbus.Proofs.Frame.Editing
import Modbus.Proofs.DataModel.Basic
import Modbus.Proofs.DataModel.Server
import Modbus.Proofs.DataModel.Execute
import Modbus.Proofs.DataModel.Process
import Modbus.Proofs.DataModel.Naming
import Modbus.Proofs.DataModel.Bounds
import Modbus.Proofs.Link.Faultless
import Modbus.Proofs.Link.Delivery
import Modbus.Proofs.Link.Unread
import Modbus.Proofs.Link.Failures
import Modbus.Proofs.Link.Writes
import Modbus.Proofs.Link.Deadlines
import Modbus.Proofs.Link.Timely
import Modbus.Proofs.Link.Ledger
import Modbus.Proofs.Client.Exchange
import Modbus.Proofs.Client.Operation
import Modbus.Proofs.Client.Work
import Modbus.Proofs.Client.Matching
import Modbus.Proofs.Client.Stale
import Modbus.Proofs.Client.Recovery
import Modbus.Proofs.Client.Refusal
import Modbus.Proofs.Client.Balance
import Modbus.Proofs.Server.Serve
import Modbus.Proofs.Server.Alignment
import Modbus.Proofs.Server.Upstream
import Modbus.Proofs.Server.Deadlines
import Modbus.Proofs.Server.Safety
import Modbus.Proofs.Server.Turns
import Modbus.Proofs.Server.Transmission
import Modbus.Proofs.Router.Lifecycle
import Modbus.Proofs.Pair.Call
import Modbus.Proofs.Pair.Operations
import Modbus.Proofs.Pair.Gateway
import Modbus.Proofs.Pair.Coherence
import Modbus.Proofs.Pair.RoundTrip
import Modbus.Proofs.Server.Confirmation
import Modbus.Proofs.Server.Broadcast
import Modbus.Proofs.Sharing.Basic
import Modbus.Proofs.Sharing.Exclusion
import Modbus.Proofs.Sharing.Line
import Modbus.Proofs.Sharing.Order
import Modbus.Proofs.Sharing.Progress
import Modbus.Proofs.Sharing.Safety
import Modbus.Proofs.Link.Reception
import Modbus.Proofs.Server.Callbacks
import Modbus.Proofs.DataModel.Numbers
import Modbus.Proofs.Router.Configuration
import Modbus.Proofs.Server.Bracketing
import Modbus.Proofs.Line.Settings
import Modbus.Proofs.Config.Blocks
import Modbus.Proofs.Net.Connection

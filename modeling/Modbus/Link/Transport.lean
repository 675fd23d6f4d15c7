import Modbus.Frame.Header
import Modbus.Line.Settings
import Modbus.Link.Wire
import Modbus.Net.Connection

/-! Transports: what carries the frames of one framing. -/

namespace Modbus

structure SerialPort where
  path : String
  settings : Line.Settings
  transmitter : Line.Transmitter
deriving DecidableEq

inductive TransportKind where
  /-- A stream that is there already, until it is taken. -/
  | attached (framing : Framing) (present : Bool)
  /-- A transport with hooks around its use: it may accept peers, and it keeps silent for some
  milliseconds after a frame. -/
  | hooked (framing : Framing) (acceptsPeers : Bool) (silence : Nat)
  | endpoint (endpoint : Net.Endpoint)
  | serial (port : SerialPort)
deriving DecidableEq

namespace TransportKind

def framing : TransportKind → Framing
  | attached framing _ | hooked framing .. => framing
  | endpoint _ => .tcp
  | serial _ => .rtu

def acceptsPeers : TransportKind → Bool
  | hooked _ acceptsPeers _ => acceptsPeers
  | _ => false

/-- The milliseconds of silence after a frame; the clock does not tell parts of one. -/
def silence : TransportKind → Nat
  | hooked _ _ silence => silence
  | serial port => (port.settings.silentInterval + 999999) / 1000000
  | _ => 0

/-- Whether the transport takes part in an action of the link; otherwise the action does nothing
and cannot fail. -/
def does : TransportKind → Action → Bool
  | attached .., .opening | attached .., .closing | attached .., .beginning
  | attached .., .ending => false
  | endpoint _, .opening | endpoint _, .closing | endpoint _, .beginning
  | endpoint _, .ending => false
  | serial _, .opening | serial _, .closing => false
  | serial port, .beginning | serial port, .ending => port.transmitter.toggles
  | _, _ => true

/-- The peer of a stream when the wire names none. -/
def defaultMeeting : TransportKind → Meeting
  | attached .. => .peer .inProcess
  | hooked _ acceptsPeers _ => if acceptsPeers then .never else .peer .inProcess
  | endpoint _ => .never
  | serial port => .peer (.line port.path)

end TransportKind

/-- A transport and the wire that it leads to. -/
structure Transport where
  kind : TransportKind
  wire : Wire

namespace Transport

def render (t : Transport) : String :=
  let present := match t.kind with
    | .attached _ present => present
    | _ => false
  Text.record "Attached"
    [⟨"framing", t.kind.framing.render⟩, ⟨"attached", toString present⟩] true

end Transport

end Modbus

import Modbus.Fault
import Modbus.Link.Journal
import Modbus.Net.Address
import Modbus.Text.Quoted

/-! Wires: what lies beyond a transport. A wire says in advance what will arrive on it and when,
who can be connected to, and which actions fail. -/

namespace Modbus

/-- The other end of a stream. -/
inductive Peer where
  | socket (address : Net.SocketAddress)
  | line (path : String)
  | inProcess
deriving DecidableEq

def Peer.text : Peer → String
  | socket address => address.text
  | line path => path
  | inProcess => "local"

/-- The rendering of a peer, such as `Line("/dev/ttyS0")`. -/
def Peer.render : Peer → String
  | socket address => Text.tagged "Socket" address.text
  | line path => Text.tagged "Line" (Text.quoted path)
  | inProcess => "Local"

inductive Arrival where
  /-- Bytes that one read delivers; none are the end of the stream. -/
  | bytes (bytes : List UInt8)
  /-- What follows arrives so many milliseconds after a read has found this. -/
  | pause (ms : Nat)
  /-- What follows arrives at this time. -/
  | until (time : Nat)
  | failure (kind : FaultKind)

inductive Meeting where
  | peer (peer : Peer)
  | refused (kind : FaultKind)
  /-- Nobody ever comes. -/
  | never

/-- A wire with what is still to come of it. -/
structure Wire where
  name : String
  arrivals : List Arrival
  meetings : List Meeting
  /-- The outcomes of the next times an action is tried; after them it succeeds. -/
  faults : Action → List (Option FaultKind)

namespace Wire

/-- A wire on which nothing arrives and nothing fails. -/
def quiet (name : String) : Wire := ⟨name, [], [], fun _ => []⟩

def attempt (w : Wire) (a : Action) : Option FaultKind × Wire :=
  match w.faults a with
  | [] => (none, w)
  | outcome :: rest => (outcome, { w with faults := fun b => if b = a then rest else w.faults b })

/-- More bytes, pauses and failures arrive after those already to come. -/
def feed (w : Wire) (more : List Arrival) : Wire := { w with arrivals := w.arrivals ++ more }

/-- The next outcomes of an action, after those already fixed. -/
def feedFaults (w : Wire) (a : Action) (more : List (Option FaultKind)) : Wire :=
  { w with faults := fun b => if b = a then w.faults b ++ more else w.faults b }

end Wire

end Modbus

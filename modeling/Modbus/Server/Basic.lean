import Modbus.Client.Shared
import Modbus.Device.Process

/-! Servers: devices at one end of a link, which answer the requests that arrive on it. -/

namespace Modbus

/-- A server with its devices, in ascending order of their identifiers, and the clients that
gateways among them forward to. -/
structure Server where
  link : Link
  settings : LinkSettings
  devices : List Device
  clients : Clients
  isOpen : Bool

abbrev ServerM := EStateM Error Server

namespace Server

def ofTransport (transport : Transport) (settings : LinkSettings) : Server :=
  ⟨.ofTransport transport, settings, [], [], false⟩

def onLink {α : Type} (work : LinkM α) : ServerM α := fun s =>
  match work s.link with
  | .ok a link => .ok a { s with link }
  | .error e link => .error e { s with link }

def framing (s : Server) : Framing := s.link.framing

def peer? (s : Server) : Option Peer := s.link.channel.map (·.peer)

def journal (s : Server) : Journal := s.link.journal

def withJournal (s : Server) (journal : Journal) : Server :=
  { s with link := { s.link with journal } }

/-! ### Devices -/

def device? (s : Server) (id : UnitId) : Option Device := s.devices.find? (·.id = id)

/-- A device among others, in ascending order of their identifiers. -/
def insertDevice (d : Device) : List Device → List Device
  | [] => [d]
  | e :: rest =>
    if d.id.value < e.id.value then d :: e :: rest else e :: insertDevice d rest

/-- Registers a device, if its identifier is one for devices and is not taken. -/
def addDevice (s : Server) (d : Device) : Except ConfigError Server :=
  if !d.id.isRegistrable then .error (.invalidUnit d.id)
  else if (s.device? d.id).isSome then .error (.duplicateUnit d.id)
  else .ok { s with devices := insertDevice d s.devices }

def putDevice (s : Server) (d : Device) : Server :=
  { s with devices := s.devices.map fun e => if e.id = d.id then d else e }

/-- The device that serves requests for `unit`: the one registered for it, or on TCP the only one,
if the request is for the device that is connected directly. -/
def target? (s : Server) (unit : UnitId) : Option Device :=
  match s.device? unit with
  | some d => some d
  | none =>
    match s.framing, s.devices with
    | .tcp, [d] => if unit = .tcpDevice then some d else none
    | _, _ => none

/-- Where the requests of a device go. -/
def route (s : Server) (d : Device) : Route :=
  match d.forwardsTo with
  | none => .own
  | some id => if (s.clients.get? id).isSome then .forward else .broken

/-- Asks the client `id` on behalf of the unit `unit`; a failure of the client is one of the
device. -/
def forward (id : ClientId) (unit : UnitId) (request : Request) (s : Server) :
    Answer Response × Server :=
  match s.clients.get? id with
  | none => (.error .gatewayPathUnavailable, s)
  | some client =>
    let (result, client, journal) := client.call unit request s.journal
    let s := { s with clients := s.clients.put id client }.withJournal journal
    match result with
    | .ok answer => (answer, s)
    | .error _ => (.error .serverDeviceFailure, s)

def serve (s : Server) (peer : Peer) (d : Device) (message : Message) : Option Message × Server :=
  let note := fun (notes : List String) (s : Server) => s.withJournal (s.journal.addNotes notes)
  let call := fun (request : Request) (s : Server) =>
    match d.forwardsTo with
    | none => (.error .gatewayPathUnavailable, s)
    | some id => forward id d.id request s
  let (served, s) := (d.process peer (s.route d) message).run note call s
  (served.reply, note served.notes (s.putDevice { d with map := served.map }))

/-! ### Dispatch -/

inductive Dispatched where
  | reply (message : Message)
  | noReply
  | discarded

/-- Lets every device process a broadcast; nobody answers. -/
def broadcast (s : Server) (peer : Peer) (message : Message) : Server :=
  s.devices.foldl (fun s d => (s.serve peer d message).2) s

/-- Hands a request to the device it is for, or to all of them. -/
def dispatch (s : Server) (peer : Peer) (message : Message) : Dispatched × Server :=
  if message.isException then (.discarded, s)
  else if s.framing = .rtu ∧ message.unit.isBroadcast then
    match message.request with
    | .ok request =>
      if request.isWrite then (.noReply, s.broadcast peer message) else (.discarded, s)
    | .error _ => (.discarded, s)
  else
    match s.target? message.unit with
    | some d =>
      match s.serve peer d message with
      | (some reply, s) => (.reply reply, s)
      | (none, s) => (.noReply, s)
    | none =>
      match s.framing, Device.refusal message .gatewayTargetDevice with
      | .tcp, some reply => (.reply reply, s)
      | _, _ => (.discarded, s)

def render (s : Server) : String :=
  let channel := fun (c : Channel) =>
    Text.record "Channel"
      [⟨"codec", c.codec.render⟩, ⟨"buffered", toString c.buffer.length⟩,
        ⟨"debug", toString c.debug⟩] false
  let link := match s.link.channel with
    | none => "None"
    | some c =>
      Text.tagged "Some"
        (Text.record "Link" [⟨"channel", channel c⟩, ⟨"peer", c.peer.render⟩] true)
  Text.record "Server"
    [⟨"transport", s.link.transport.render⟩, ⟨"settings", s.settings.render⟩,
      ⟨"slaves", Text.bracketed (s.devices.map (·.id.render))⟩, ⟨"link", link⟩,
      ⟨"is_open", toString s.isOpen⟩] true

end Server

end Modbus

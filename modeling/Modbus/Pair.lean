import Modbus.Server.Service

/-! Pairs: a client and a server that are joined by a pipe in each direction. -/

namespace Modbus

/-- One direction of a connection. -/
structure Pipe where
  /-- What arrives of bytes that are sent, and when, for each number of groups sent before. -/
  carry : Nat → List UInt8 → List Arrival
  /-- The number of groups of bytes that have been sent. -/
  used : Nat

namespace Pipe

/-- A pipe that hands each group of bytes over at once, for one read. -/
def direct : Pipe := ⟨fun _ bytes => [.bytes bytes], 0⟩

/-- The pipe after it has carried groups of bytes, and the link with these on their way to it. -/
def deliver (p : Pipe) (l : Link) : List (List UInt8) → Pipe × Link
  | [] => (p, l)
  | bytes :: rest =>
    let l := l.withWire (l.transport.wire.feed (p.carry p.used bytes))
    deliver { p with used := p.used + 1 } l rest

end Pipe

/-- More polls than the link can keep busy without time passing: each uses up a byte, an arrival
or a meeting, or takes time. -/
def Link.workload (l : Link) : Nat :=
  let size : Arrival → Nat
    | .bytes bytes => 1 + bytes.length
    | _ => 1
  (l.transport.wire.arrivals.map size).foldl (· + ·) 0 + l.transport.wire.meetings.length +
    (l.channel.map (·.buffer.length)).getD 0 + 2

structure Pair where
  client : Client
  server : Server
  toServer : Pipe
  toClient : Pipe

abbrev PairM := EStateM Error Pair

namespace Pair

/-- A client and a server with these devices, before anything has been connected. -/
def join (framing : Framing) (settings : LinkSettings) (pduAddressing : Bool)
    (devices : List Device) : Except ConfigError Pair := do
  let server := Server.ofTransport ⟨.attached framing true, .quiet "server"⟩ .standard
  let client := Client.ofTransport ⟨.attached framing true, .quiet "client"⟩ settings pduAddressing
  return ⟨client, ← devices.foldlM Server.addDevice server, .direct, .direct⟩

def onClient {α : Type} (work : ClientM α) : PairM α := fun p =>
  match work p.client with
  | .ok a client => .ok a { p with client }
  | .error e client => .error e { p with client }

def onServer {α : Type} (work : ServerM α) : PairM α := fun p =>
  match work p.server with
  | .ok a server => .ok a { p with server }
  | .error e server => .error e { p with server }

def start : PairM Unit := onServer Server.start

def stop : PairM Unit := onServer Server.stop

def sentBytes : List Entry → List (List UInt8)
  | [] => []
  | .sent _ bytes :: rest => bytes :: sentBytes rest
  | _ :: rest => sentBytes rest

/-- The entries that `j` has more than the `n` it had. -/
def since (j : Journal) (n : Nat) : List Entry := j.entries.drop n

/-- Whether bytes are on their way to a link or have not been used yet. -/
def isPending (l : Link) : Bool :=
  !l.transport.wire.arrivals.isEmpty || l.channel.any (!·.buffer.isEmpty)

/-- Lets a server handle all that has been delivered to it. -/
def settle (interval : Nat) : Nat → ServerM Unit
  | 0 => return
  | limit + 1 => do
    if isPending (← get).link then
      discard (Server.poll interval)
      settle interval limit

/-- Carries what the client has sent since its record had `n` entries to the server, lets the
server handle it, and carries its answers back. -/
def exchange (interval n : Nat) : PairM Unit := do
  let p ← get
  let asked := sentBytes (since p.client.link.journal n)
  let (toServer, link) := p.toServer.deliver p.server.link asked
  set { p with toServer, server := { p.server with link } }
  let p ← get
  let m := p.server.journal.entries.length
  discard (outcome (onServer (settle interval p.server.link.workload)))
  let p ← get
  let answered := sentBytes (since p.server.journal m)
  let (toClient, link) := p.toClient.deliver p.client.link answered
  set { p with toClient, client := { p.client with link } }

def call (interval : Nat) (unit : UnitId) (request : Request) : PairM (Answer Response) := do
  let c := (← get).client
  match c.permit unit request with
  | .error e => throw (.config e)
  | .ok () =>
    let n := c.link.journal.entries.length
    let pending ← onClient (Client.recovering (Client.submit unit request))
    exchange interval n
    if c.isBroadcast unit then onClient (Client.unanswered request)
    else onClient (Client.recovering (Client.collect pending))

def access (p : Pair) (interval : Nat) : Access Pair := ⟨call interval, p.client.pduAddressing⟩

end Pair

end Modbus

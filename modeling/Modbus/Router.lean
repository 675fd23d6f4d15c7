import Modbus.Config.Build
import Modbus.Server.Service

/-! Routers: a server whose gateways share clients that are known by name. -/

namespace Modbus

/-- A server, and the names of clients in ascending order, each with the place of its client. -/
structure Router where
  server : Server
  names : List (String × ClientId)

abbrev RouterM := EStateM Error Router

namespace Router

def ofServer (server : Server) : Router := ⟨server, []⟩

def clientId? (r : Router) (name : String) : Option ClientId :=
  (r.names.find? (·.1 == name)).map (·.2)

def client? (r : Router) (name : String) : Option SharedClient :=
  (r.clientId? name).bind r.server.clients.get?

/-- A name among others, in ascending order. -/
def insertName (name : String) (id : ClientId) : List (String × ClientId) → List (String × ClientId)
  | [] => [(name, id)]
  | e :: rest => if name < e.1 then (name, id) :: e :: rest else e :: insertName name id rest

/-- Adds a client under a name that is not taken. -/
def addClient (r : Router) (name : String) (client : SharedClient) : Except ConfigError Router :=
  if (r.clientId? name).isSome then .error (.duplicateClient name)
  else
    let (id, clients) := r.server.clients.add client
    .ok { server := { r.server with clients }, names := insertName name id r.names }

def addLocalDevice (r : Router) (d : Device) : Except ConfigError Router := do
  return { r with server := ← r.server.addDevice d }

/-- Registers a device that forwards to the client with this name. -/
def addDevice (r : Router) (d : Device) (name : String) : Except ConfigError Router :=
  match r.clientId? name with
  | none => .error (.unknownClient name)
  | some id => r.addLocalDevice { d with forwardsTo := some id }

/-! ### Configuration

Each step says what it registers, or why it fails; what was registered before a failure stays. -/

inductive Step where
  | device (config : DeviceConfig)
  | client (config : ClientConfig)
  | gateway (config : DeviceConfig) (client : String)

/-- The steps of a configuration in order: the devices of the server, then each client followed by
its devices. -/
def steps (c : Config) : List Step :=
  c.devices.map .device ++
    c.clients.flatMap fun m => .client m :: m.devices.map (.gateway · m.name)

def apply (r : Router) : Step → Except ConfigError Router
  | .device c => do r.addLocalDevice (← c.build)
  | .client c => do r.addClient c.name (.linked (← c.link.client c.name))
  | .gateway c name => do r.addDevice (← c.build) name

/-- Registers one after the other until one fails. -/
def applyAll (r : Router) : List Step → Except ConfigError Unit × Router
  | [] => (.ok (), r)
  | step :: rest =>
    match r.apply step with
    | .ok r => applyAll r rest
    | .error e => (.error e, r)

def configure (r : Router) (c : Config) : Except ConfigError Unit × Router :=
  r.applyAll (steps c)

/-! ### Starting and stopping -/

def onServer {α : Type} (work : ServerM α) : RouterM α := fun r =>
  match work r.server with
  | .ok a server => .ok a { r with server }
  | .error e server => .error e { r with server }

/-- Does what `work` does to the client at a place. -/
def onClient (work : Journal → SharedClient → Except Error Unit × SharedClient × Journal)
    (id : ClientId) : RouterM Unit := fun r =>
  match r.server.clients.get? id with
  | none => .ok () r
  | some client =>
    let (result, client, journal) := work r.server.journal client
    let server := { r.server with clients := r.server.clients.put id client }.withJournal journal
    match result with
    | .ok () => .ok () { r with server }
    | .error e => .error e { r with server }

/-- Connects clients in order; after a failure those that have been connected are disconnected. -/
def connectAll (connected : List ClientId) : List ClientId → RouterM Unit
  | [] => return
  | id :: rest => do
    match ← outcome (onClient SharedClient.connect id) with
    | .ok () => connectAll (connected ++ [id]) rest
    | .error e =>
      connected.forM fun id => discard (outcome (onClient SharedClient.disconnect id))
      throw e

/-- Disconnects clients in order, and fails with the first failure. -/
def disconnectAll (first : Except Error Unit) : List ClientId → RouterM Unit
  | [] =>
    match first with
    | .ok () => return
    | .error e => throw e
  | id :: rest => do
    match first, ← outcome (onClient SharedClient.disconnect id) with
    | .ok (), result => disconnectAll result rest
    | .error e, _ => disconnectAll (.error e) rest

/-- Connects all clients and starts the server; if something fails, nothing stays connected. -/
def start : RouterM Unit := do
  let ids := (← get).names.map (·.2)
  connectAll [] ids
  match ← outcome (onServer Server.start) with
  | .ok () => return
  | .error e =>
    ids.forM fun id => discard (outcome (onClient SharedClient.disconnect id))
    throw e

/-- Stops the server and disconnects all clients, also after a failure. -/
def stop : RouterM Unit := do
  let stopped ← outcome (onServer Server.stop)
  disconnectAll stopped ((← get).names.map (·.2))

def poll (timeout : Nat) : RouterM Polled := onServer (Server.poll timeout)

def service : Service Router := ⟨start, stop, poll⟩

end Router

end Modbus

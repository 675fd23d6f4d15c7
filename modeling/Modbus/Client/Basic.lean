import Modbus.Link.Receive

/-! Clients: requests are sent over a link and their answers received, one at a time. A client
connects when it has to, and gives up a failed link if it is told to recover it. -/

namespace Modbus

/-- A client at its end of a link. -/
structure Client where
  link : Link
  settings : LinkSettings
  /-- Callers give protocol addresses; otherwise theirs are greater by one. -/
  pduAddressing : Bool
  /-- The identifier of the next transaction. -/
  transaction : UInt16
  /-- The time before which a link that was given up is not set up again. -/
  reconnectAt : Option Nat

abbrev ClientM := EStateM Error Client

namespace Client

def ofTransport (transport : Transport) (settings : LinkSettings) (pduAddressing : Bool) :
    Client :=
  ⟨.ofTransport transport, settings, pduAddressing, 1, none⟩

def onLink {α : Type} (work : LinkM α) : ClientM α := fun c =>
  match work c.link with
  | .ok a link => .ok a { c with link }
  | .error e link => .error e { c with link }

def isConnected (c : Client) : Bool := c.link.isConnected

def connect : ClientM Unit := do
  let c ← get
  unless c.isConnected do
    onLink Link.openTransport
    unless ← onLink (Link.connect .response c.settings.debug none) do
      throw (.transport .disconnected)
    modify fun c => { c with reconnectAt := none }

def disconnect : ClientM Unit := do
  let c ← get
  if c.isConnected then
    onLink Link.dropChannel
    let ended ← outcome (onLink Link.shutdown)
    onLink Link.closeTransport
    match ended with
    | .ok () => return
    | .error e => throw e

/-- Connects, but not before the time for it has come. -/
def ensureConnected : ClientM Unit := do
  let c ← get
  unless c.isConnected do
    if let some t := c.reconnectAt then onLink (Link.sleepUntil t)
    connect

/-- The header of the next request. On TCP each has a transaction identifier of its own, until
they start again. -/
def nextHeader (unit : UnitId) : ClientM Header := do
  let c ← get
  match c.link.framing with
  | .rtu => return .rtu unit
  | .tcp =>
    set { c with transaction := c.transaction + 1 }
    return .tcp c.transaction unit

structure Pending where
  header : Header
  request : Request

/-- A request to the broadcast identifier of a serial line is for all units of it. -/
def isBroadcast (c : Client) (unit : UnitId) : Bool :=
  unit.isBroadcast && c.link.framing == .rtu

/-- Refuses requests that a client does not send: those of other functions, and broadcasts that
ask for more than a write. -/
def permit (c : Client) (unit : UnitId) (request : Request) : Except ConfigError Unit :=
  match request with
  | .custom code _ => .error (.unsupported (.function code))
  | _ =>
    if c.isBroadcast unit && !request.isWrite then .error (.broadcast request.function)
    else .ok ()

/-- Sends a request. What has been received before is not an answer to it and is forgotten. -/
def submit (unit : UnitId) (request : Request) : ClientM Pending := do
  ensureConnected
  let header ← nextHeader unit
  match Message.ofRequest header request with
  | .error e => throw (.transport e)
  | .ok message =>
    onLink Link.clearBuffer
    onLink (Link.send message)
    return ⟨header, request⟩

/-- Whether a reply answers a request: it has the same header, and it is about the same
function. -/
def Pending.accept (p : Pending) (message : Message) : Except Error (Answer Response) :=
  match message.response with
  | .error fault => .error (.ofFault (.pdu fault))
  | .ok reply =>
    if message.header ≠ p.header then
      .error (.protocol (.headerMismatch p.header message.header reply))
    else if reply.function ≠ p.request.function then
      .error (.protocol (.functionMismatch p.request.function reply))
    else .ok (reply.mapError (·.exception))

def collect (p : Pending) : ClientM (Answer Response) := do
  let c ← get
  let message ← onLink (Link.receive c.settings.responseTimeout c.settings.byteTimeout)
  match p.accept message with
  | .ok answer => return answer
  | .error e => throw e

/-- The outcome of a broadcast, which nobody answers. -/
def unanswered (request : Request) : ClientM (Answer Response) :=
  match request.echo? with
  | some response => return .ok response
  | none => throw (.config (.broadcast request.function))

/-- After a failure of the link, gives it up and sets the time to set it up again. -/
def recover (e : Error) : ClientM Unit := do
  let c ← get
  if c.settings.recovery && e.isLinkFailure then
    discard (outcome disconnect)
    let c ← get
    let t := c.link.journal.now + c.settings.responseTimeout
    onLink (Link.setDeadline t)
    modify fun c => { c with reconnectAt := some t }

def recovering {α : Type} (work : ClientM α) : ClientM α := do
  match ← outcome work with
  | .ok a => return a
  | .error e =>
    recover e
    throw e

def transact (unit : UnitId) (request : Request) : ClientM (Answer Response) := do
  let c ← get
  let pending ← submit unit request
  if c.isBroadcast unit then unanswered request else collect pending

/-- Asks a unit: the response, or the exception it answers with. -/
def call (unit : UnitId) (request : Request) : ClientM (Answer Response) := do
  let c ← get
  match c.permit unit request with
  | .error e => throw (.config e)
  | .ok () => recovering (transact unit request)

def render (c : Client) : String :=
  Text.record "ClientContext"
    [⟨"transport", c.link.transport.render⟩, ⟨"connected", toString c.isConnected⟩,
      ⟨"settings", c.settings.render⟩, ⟨"pdu_addressing", toString c.pduAddressing⟩,
      ⟨"transaction_id", toString c.transaction.toNat⟩] false

end Client

end Modbus

import Modbus.Error
import Modbus.Link.Settings
import Modbus.Link.Transport

/-! Links: a transport with its journal and, while a stream is connected, the channel on it. -/

namespace Modbus

/-- A connected stream: the frames that are expected on it and the bytes that have been read but
are no frame yet. -/
structure Channel where
  codec : FrameCodec
  buffer : List UInt8
  peer : Peer
  debug : Bool

structure Link where
  transport : Transport
  channel : Option Channel
  journal : Journal

/-- Work on a link. What has been done stays done when it fails. -/
abbrev LinkM := EStateM Error Link

/-- The outcome of work that may fail, as a value. -/
def outcome {σ α : Type} (work : EStateM Error σ α) : EStateM Error σ (Except Error α) := fun s =>
  match work s with
  | .ok a s => .ok (.ok a) s
  | .error e s => .ok (.error e) s

namespace Link

def ofTransport (transport : Transport) : Link := ⟨transport, none, .start⟩

def framing (l : Link) : Framing := l.transport.kind.framing

def isConnected (l : Link) : Bool := l.channel.isSome

def withWire (l : Link) (wire : Wire) : Link := { l with transport := { l.transport with wire } }

def record (l : Link) (e : Entry) : Link := { l with journal := l.journal.add e }

/-- Tries an action, which the wire may let fail. -/
def attempt (a : Action) : LinkM Unit := fun l =>
  let (fault, wire) := l.transport.wire.attempt a
  let l := l.withWire wire
  match fault with
  | none => .ok () l
  | some kind => .error (.transport (.scripted kind)) l

/-- Records an action and tries it, if the transport takes part in it. -/
def perform (a : Action) : LinkM Unit := do
  let l ← get
  if l.transport.kind.does a then
    set (l.record (.did l.transport.wire.name a))
    attempt a

def sleep (ms : Nat) : LinkM Unit := modify fun l => { l with journal := l.journal.sleep ms }

def sleepUntil (t : Nat) : LinkM Unit :=
  modify fun l => { l with journal := l.journal.sleepUntil t }

/-- Sets a deadline that somebody else waits for. -/
def setDeadline (t : Nat) : LinkM Unit :=
  modify fun l => { l with journal := l.journal.set [t] }

def openTransport : LinkM Unit := perform .opening

def closeTransport : LinkM Unit := perform .closing

def takeStream : LinkM Peer := do
  let l ← get
  match l.transport.kind with
  | .attached framing true =>
    set { l with transport := { l.transport with kind := .attached framing false } }
    return .inProcess
  | _ => throw (.transport .detached)

/-- Waits for a peer until `deadline`, if there is one, and otherwise no longer than it takes to
know that nobody comes. -/
def meet (deadline : Option Nat) : LinkM (Option Peer) := do
  perform .connecting
  let l ← get
  let w := l.transport.wire
  set (l.withWire { w with meetings := w.meetings.tail })
  match w.meetings.headD l.transport.kind.defaultMeeting with
  | .peer peer => return some peer
  | .refused kind => throw (.transport (.scripted kind))
  | .never =>
    sleepUntil (deadline.getD 0)
    return none

/-- Connects a stream, on which frames for `role` are expected, and tells whether one came. -/
def connect (role : Role) (debug : Bool) (deadline : Option Nat) : LinkM Bool := do
  let l ← get
  let peer ← match l.transport.kind with
    | .attached .. => some <$> takeStream
    | _ => meet deadline
  match peer with
  | none => return false
  | some peer =>
    modify fun l => { l with channel := some ⟨⟨l.framing, role⟩, [], peer, debug⟩ }
    return true

/-- Gives up the stream, without a word to the peer. -/
def dropChannel : LinkM Unit := modify fun l => { l with channel := none }

def shutdown : LinkM Unit := perform .shutdown

/-- Writes bytes to the stream; the record says whether they went out. -/
def write (bytes : List UInt8) : LinkM Unit := do
  let wrote ← outcome (attempt .writing)
  let name := (← get).transport.wire.name
  match wrote with
  | .ok () => modify (·.record (.sent name bytes))
  | .error e =>
    modify (·.record (.unsent name bytes))
    throw e

/-- Sends a frame and keeps silent after it. -/
def send (message : Message) : LinkM Unit := do
  perform .beginning
  write (FrameCodec.encode message)
  attempt .flushing
  perform .ending
  sleep (← get).transport.kind.silence

/-- Forgets bytes that have been read but not used. -/
def clearBuffer : LinkM Unit :=
  modify fun l => { l with channel := l.channel.map fun c => { c with buffer := [] } }

end Link

end Modbus

import Modbus.Link.Clock
import Modbus.Server.Basic

/-! Polling: a server accepts a peer, receives a request, and answers it, one step at a time. -/

namespace Modbus

inductive Polled where
  | idle
  | handled
  | discarded
  | closed
deriving DecidableEq

namespace Polled

def text : Polled → String
  | idle => "Idle"
  | handled => "Handled"
  | discarded => "Discarded"
  | closed => "Closed"

end Polled

namespace Server

def start : ServerM Unit := do
  let s ← get
  unless s.isOpen do
    onLink Link.openTransport
    modify fun s => { s with isOpen := true }

/-- Ends the stream, whether or not that succeeds, and closes the transport if it is open. -/
def stop : ServerM Unit := do
  let s ← get
  if s.link.isConnected then
    onLink Link.dropChannel
    discard (outcome (onLink Link.shutdown))
  if s.isOpen then
    modify fun s => { s with isOpen := false }
    onLink Link.closeTransport

/-- Connects the next peer and tells whether one came in `timeout` milliseconds. A transport that
does not accept peers is waited for as long as it takes. -/
def accept (timeout : Nat) : ServerM Bool := do
  let s ← get
  let deadline :=
    if s.link.transport.kind.acceptsPeers then some (s.journal.now + timeout) else none
  onLink (Link.connect .request s.settings.debug deadline)

/-- Gives up the stream after an error. A peer that has left makes room for the next one; after
another error the transport is set up again, if the link is to be recovered. -/
def recover (e : Error) : ServerM Polled := do
  onLink Link.dropChannel
  let s ← get
  let left := match e with
    | .transport e => e.kind == .unexpectedEof
    | _ => false
  if left && s.link.transport.kind.acceptsPeers then return .closed
  if !s.settings.recovery then throw e
  onLink Link.closeTransport
  onLink (Link.sleep s.settings.responseTimeout)
  onLink Link.openTransport
  return .closed

/-- What is done about a frame that is none: a TCP stream cannot be read on after it. -/
def discardFrame : ServerM Polled := do
  let s ← get
  if s.framing = .tcp then onLink Link.dropChannel
  return .discarded

def handle (message : Message) : ServerM Polled := do
  let s ← get
  match s.peer? with
  | none => return .discarded
  | some peer =>
    let (dispatched, s) := s.dispatch peer message
    set s
    match dispatched with
    | .noReply => return .handled
    | .discarded => return .discarded
    | .reply reply =>
      match ← outcome (onLink (Link.send reply)) with
      | .ok () => return .handled
      | .error e => recover e

/-- Receives and handles a request on the stream that is connected. -/
def pollStream (timeout : Nat) : ServerM Polled := do
  let s ← get
  match ← outcome (onLink (Link.receive timeout s.settings.byteTimeout)) with
  | .ok message => handle message
  | .error .timeout => return .idle
  | .error e => if e.isFraming then discardFrame else recover e

/-- Accepts a peer if there is none, and receives and handles at most one request. A peer and a
request each may take `timeout` milliseconds to come. -/
def poll (timeout : Nat) : ServerM Polled := do
  let s ← get
  if !s.isOpen then throw (.transport .serverNotOpen)
  if s.link.isConnected then pollStream timeout
  else
    match ← outcome (accept timeout) with
    | .ok true => pollStream timeout
    | .ok false => return .idle
    | .error e => recover e

/-- A poll on a clock that tells no time after `horizon`. -/
def pollOn (horizon timeout : Nat) (s : Server) :
    Except ClockFault (EStateM.Result Error Server Polled) :=
  Clock.run horizon journal (poll timeout) s

end Server

end Modbus

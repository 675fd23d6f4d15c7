/-! Failures of transports: what kind of failure it is, and what it says. -/

namespace Modbus

inductive FaultKind where
  | notFound
  | permissionDenied
  | connectionRefused
  | connectionReset
  | notConnected
  | addrInUse
  | brokenPipe
  | invalidInput
  | invalidData
  | timedOut
  | unexpectedEof
  | other
deriving DecidableEq

namespace FaultKind

def all : List FaultKind :=
  [notFound, permissionDenied, connectionRefused, connectionReset, notConnected, addrInUse,
    brokenPipe, invalidInput, invalidData, timedOut, unexpectedEof, other]

def name : FaultKind → String
  | notFound => "NotFound"
  | permissionDenied => "PermissionDenied"
  | connectionRefused => "ConnectionRefused"
  | connectionReset => "ConnectionReset"
  | notConnected => "NotConnected"
  | addrInUse => "AddrInUse"
  | brokenPipe => "BrokenPipe"
  | invalidInput => "InvalidInput"
  | invalidData => "InvalidData"
  | timedOut => "TimedOut"
  | unexpectedEof => "UnexpectedEof"
  | other => "Other"

def ofName? (s : String) : Option FaultKind := all.find? (·.name == s)

theorem ofName?_name (k : FaultKind) : ofName? k.name = some k := by cases k <;> decide

end FaultKind

inductive TransportError where
  | scripted (kind : FaultKind)
  | closedByPeer
  | detached
  | disconnected
  | serverNotOpen
  | listenerNotOpen
  | requestSize
  | responseSize
deriving DecidableEq

namespace TransportError

def kind : TransportError → FaultKind
  | scripted kind => kind
  | closedByPeer => .unexpectedEof
  | detached | disconnected | serverNotOpen | listenerNotOpen => .notConnected
  | requestSize | responseSize => .invalidInput

def message : TransportError → String
  | scripted _ => "scripted"
  | closedByPeer => "connection closed by peer"
  | detached => "stream detached"
  | disconnected => "disconnected"
  | serverNotOpen => "server is not open"
  | listenerNotOpen => "listener not open"
  | requestSize => "request PDU size exceeded"
  | responseSize => "response PDU size exceeded"

end TransportError

end Modbus

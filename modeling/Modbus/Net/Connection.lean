import Modbus.Net.Address
import Modbus.Text.Blank

/-! Connection texts: the host and the port that a configuration names. -/

namespace Modbus.Net

def defaultPort : UInt16 := 502

/-- A host, by name or address, and a port. -/
structure Endpoint where
  host : String
  port : UInt16
deriving DecidableEq

/-- A port in base ten, behind a plus sign or not. -/
def portOfText? (s : List Char) : Option UInt16 := do
  let s := match s with
    | '+' :: rest => rest
    | _ => s
  let (n, left) ← number? 10 none true 65536 s
  if left.isEmpty then some (UInt16.ofNat n) else none

/-- The parts of a text before and after the last colon. -/
def splitLastColon? (s : List Char) : Option (List Char × List Char) :=
  match s with
  | [] => none
  | c :: rest =>
    match splitLastColon? rest with
    | some (before, after) => some (c :: before, after)
    | none => if c = ':' then some ([], rest) else none

def unbracketed (host : List Char) : List Char :=
  Text.dropWhileEnd (· == ']') (host.dropWhile (· == '['))

/-- The port behind the last colon, if what stands before it is one host: a text without a colon,
or one that ends in a bracket. -/
def ownPort? (connection : List Char) : Option (List Char × List Char) :=
  match splitLastColon? connection with
  | some (host, port) =>
    if !host.contains ':' || host.getLast? == some ']' then some (host, port) else none
  | none => none

/-- The host and the port of a connection. A port may stand behind the host; otherwise `settings`
name it, or it is the default one. -/
def Endpoint.ofConnection? (connection settings : String) : Option Endpoint :=
  match ownPort? connection.toList with
  | some (host, port) =>
    (portOfText? port).map fun p => ⟨String.ofList (unbracketed host), p⟩
  | none =>
    match Text.trim settings.toList with
    | [] => some ⟨connection, defaultPort⟩
    | port => (portOfText? port).map fun p => ⟨connection, p⟩

def Endpoint.ofAddress (a : SocketAddress) : Endpoint := ⟨a.ip.text, a.port⟩

/-- The socket address to listen at, which the host must be given by. -/
def Endpoint.listenAddress? (e : Endpoint) : Option SocketAddress :=
  (IpAddress.ofText? e.host).map fun ip => ⟨ip, e.port, 0⟩

end Modbus.Net

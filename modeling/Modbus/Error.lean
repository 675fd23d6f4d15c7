import Modbus.Frame.Codec
import Modbus.Line.Settings
import Modbus.Text.Quoted

/-! Errors of clients, servers and configurations, by their causes, and what they say. -/

namespace Modbus

/-- Violations of the protocol by the other side. -/
inductive ProtocolError where
  | headerMismatch (expected actual : Header) (reply : Reply)
  | functionMismatch (request : FunctionCode) (reply : Reply)
  | echoMismatch (expected received : Response)
  | checksum (expected actual : UInt16)
  | framing (fault : FrameFault)

def ProtocolError.message : ProtocolError → String
  | headerMismatch expected actual reply =>
    "mismatching headers: expected/request = " ++ expected.render ++ ", actual/response = " ++
      actual.render ++ " " ++ reply.render
  | functionMismatch request reply =>
    "mismatching function codes: " ++ request.text ++ " " ++ reply.render
  | echoMismatch expected received =>
    "mismatching echo: expected " ++ expected.render ++ ", received " ++ received.render
  | checksum expected actual =>
    "invalid CRC: expected = 0x" ++ Text.hex4 expected ++ ", actual = 0x" ++ Text.hex4 actual
  | framing fault => "invalid frame: " ++ fault.message

inductive ConnectionFault where
  | port (connection settings : String)
  | listenHost (host : String)

def ConnectionFault.message : ConnectionFault → String
  | port connection settings => connection ++ " " ++ settings
  | listenHost host => "invalid listen address: " ++ host

inductive Unsupported where
  | function (code : UInt8)
  | link (wanted configured : Framing)

def Unsupported.message : Unsupported → String
  | function code => "function 0x" ++ Text.hex2 code
  | link wanted configured =>
    wanted.render ++ " link configured as " ++ configured.render

/-- Requests and configurations that are refused before anything is sent. -/
inductive ConfigError where
  | serialSettings (text : String) (fault : Line.SettingsFault)
  | connection (fault : ConnectionFault)
  | quantity (function : FunctionCode) (quantity : Nat)
  | address (address : UInt16)
  | duplicateUnit (unit : UnitId)
  | invalidUnit (unit : UnitId)
  | broadcast (function : FunctionCode)
  | unknownClient (name : String)
  | duplicateClient (name : String)
  | unsupported (what : Unsupported)

def ConfigError.message : ConfigError → String
  | serialSettings text fault =>
    "invalid serial settings: " ++ Text.quoted text ++ ": " ++ fault.message
  | connection fault => "invalid connection: " ++ fault.message
  | quantity function n =>
    "invalid quantity " ++ toString n ++ " for function " ++ function.text
  | address a => "invalid data address " ++ toString a.toNat
  | duplicateUnit unit => "slave " ++ unit.text ++ " is already registered"
  | invalidUnit unit => "slave " ++ unit.text ++ " cannot be registered"
  | broadcast function => "function " ++ function.text ++ " cannot be broadcast"
  | unknownClient name => "unknown client: " ++ name
  | duplicateClient name => "client " ++ name ++ " is already registered"
  | unsupported what => "unsupported: " ++ what.message

inductive Error where
  | protocol (e : ProtocolError)
  | transport (e : TransportError)
  | timeout
  | config (e : ConfigError)

def ProtocolError.name : ProtocolError → String
  | headerMismatch .. => "HeaderMismatch"
  | functionMismatch .. => "FunctionCodeMismatch"
  | echoMismatch .. => "EchoMismatch"
  | checksum .. => "Crc"
  | framing _ => "Framing"

def ConfigError.name : ConfigError → String
  | serialSettings .. => "SerialSettings"
  | connection _ => "Connection"
  | quantity .. => "Quantity"
  | address _ => "Address"
  | duplicateUnit _ => "DuplicateSlave"
  | invalidUnit _ => "InvalidSlave"
  | broadcast _ => "Broadcast"
  | unknownClient _ => "UnknownClient"
  | duplicateClient _ => "DuplicateClient"
  | unsupported _ => "Unsupported"

namespace Error

/-- The kind of an error, such as `Io.TimedOut` or `Protocol.Crc`. -/
def name : Error → String
  | protocol e => "Protocol." ++ e.name
  | transport e => "Io." ++ e.kind.name
  | timeout => "Timeout"
  | config e => "Config." ++ e.name

def message : Error → String
  | protocol e => e.message
  | transport e => e.message
  | timeout => "timeout"
  | config e => e.message

/-- The received bytes are no frame. -/
def isFraming : Error → Bool
  | protocol (.checksum ..) | protocol (.framing _) => true
  | _ => false

/-- The link does not work, as opposed to the device at its other end. -/
def isLinkFailure : Error → Bool
  | timeout | transport _ => true
  | e => e.isFraming

def ofFault (fault : FrameFault) : Error := protocol (.framing fault)

def ofChecksum (expected actual : UInt16) : Error := protocol (.checksum expected actual)

end Error

/-- What a split of the bytes received so far comes to: nothing yet, or a frame or an error and the
bytes left. -/
def Split.outcome? : Split → Option (Except Error Message × List UInt8)
  | .incomplete => none
  | .frame message rest => some (.ok message, rest)
  | .damaged expected actual rest => some (.error (.ofChecksum expected actual), rest)
  | .invalid fault => some (.error (.ofFault fault), [])

/-- What comes of looking `n` times for a frame at the front of the bytes received so far, and the
bytes left after that. -/
def FrameCodec.splitTimes (codec : FrameCodec) :
    Nat → List UInt8 → List (Option (Except Error Message)) × List UInt8
  | 0, buffer => ([], buffer)
  | n + 1, buffer =>
    match (codec.split buffer).outcome? with
    | none =>
      let (results, left) := splitTimes codec n buffer
      (none :: results, left)
    | some (result, rest) =>
      let (results, left) := splitTimes codec n rest
      (some result :: results, left)

def Message.parse (framing : Framing) (role : Role) (frame : List UInt8) :
    Except Error Message :=
  match FrameCodec.split ⟨framing, role⟩ frame with
  | .frame message [] => .ok message
  | .frame _ rest => .error (.ofFault (.trailing rest.length framing))
  | .incomplete => .error (.ofFault (.incomplete framing))
  | .damaged expected actual _ => .error (.ofChecksum expected actual)
  | .invalid fault => .error (.ofFault fault)

end Modbus

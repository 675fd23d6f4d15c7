import Modbus.Frame.Message

/-! What comes of the bytes received so far: a frame at their front, the wait for more bytes, or
bytes that are no frame. -/

namespace Modbus

/-- Why bytes are no frame, or why a frame is not what it should be. -/
inductive FrameFault where
  | pdu (fault : PduFault)
  | unknownLength (role : Role) (code : UInt8)
  | rtuLength (length : Nat)
  | protocolId (actual : UInt16)
  | mbapLength (length : Nat)
  | trailing (count : Nat) (framing : Framing)
  | incomplete (framing : Framing)
  | bits (expected received : Nat)
  | registers (expected received : Nat)
  | value (count : Nat)
deriving DecidableEq

def FrameFault.message : FrameFault → String
  | pdu fault => fault.message
  | unknownLength role code => "unknown length of " ++ role.render ++ " 0x" ++ Text.hex2 code
  | rtuLength length =>
    "RTU frame length " ++ toString length ++ " exceeds " ++ toString Framing.rtu.maxFrameSize
  | protocolId actual =>
    "invalid protocol identifier: expected = 0, actual = " ++ toString actual.toNat
  | mbapLength length => "invalid MBAP length: " ++ toString length
  | trailing count framing =>
    toString count ++ " trailing bytes after " ++ framing.text ++ " frame"
  | incomplete framing => "incomplete " ++ framing.text ++ " frame"
  | bits expected received =>
    "expected " ++ toString expected ++ " bits, received " ++ toString received
  | registers expected received =>
    "expected " ++ toString expected ++ " registers, received " ++ toString received
  | value count => toString count ++ " registers do not form a value"

/-- The outcome of looking for a frame at the front of the bytes received so far. Bytes that are
not in `rest` are used up; after `invalid` none are left. -/
inductive Split where
  | incomplete
  | frame (message : Message) (rest : List UInt8)
  | damaged (expected actual : UInt16) (rest : List UInt8)
  | invalid (fault : FrameFault)
deriving DecidableEq

end Modbus

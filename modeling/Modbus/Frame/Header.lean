import Modbus.UnitId

/-! The two framings of a protocol data unit and the header that a frame carries in each. -/

namespace Modbus

/-- How protocol data units are framed: with a unit identifier and a checksum on a serial line,
or with a header that counts bytes on a TCP stream. -/
inductive Framing where
  | rtu
  | tcp
deriving DecidableEq

namespace Framing

def headerSize : Framing → Nat
  | rtu => 1
  | tcp => 7

def checksumSize : Framing → Nat
  | rtu => 2
  | tcp => 0

def maxFrameSize : Framing → Nat
  | rtu => 256
  | tcp => 260

def text : Framing → String
  | rtu => "RTU"
  | tcp => "TCP"

def render : Framing → String
  | rtu => "Rtu"
  | tcp => "Tcp"

end Framing

inductive Role where
  | request
  | response
deriving DecidableEq

def Role.render : Role → String
  | request => "Request"
  | response => "Response"

inductive Header where
  | rtu (unit : UnitId)
  | tcp (transaction : UInt16) (unit : UnitId)
deriving DecidableEq

namespace Header

def framing : Header → Framing
  | rtu _ => .rtu
  | tcp .. => .tcp

def unit : Header → UnitId
  | rtu unit | tcp _ unit => unit

/-- The rendering of a header, such as `Tcp(Header { transaction_id: 1, unit_id: 33 })`. -/
def render : Header → String
  | rtu unit => Text.tagged "Rtu" (Text.record "Header" [⟨"slave", unit.render⟩] true)
  | tcp transaction unit =>
    Text.tagged "Tcp" (Text.record "Header"
      [⟨"transaction_id", toString transaction.toNat⟩, ⟨"unit_id", toString unit.value.toNat⟩] true)

end Header

end Modbus

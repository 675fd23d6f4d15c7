import Modbus.FunctionCode
import Modbus.Pdu.Words

/-! Requests, and the response that confirms a write. -/

namespace Modbus

/-- What a client asks of a device. Addresses are protocol addresses, which start at 0. -/
inductive Request where
  | readCoils (address quantity : UInt16)
  | readDiscreteInputs (address quantity : UInt16)
  | readInputRegisters (address quantity : UInt16)
  | readHoldingRegisters (address quantity : UInt16)
  | writeSingleCoil (address : UInt16) (coil : Bool)
  | writeSingleRegister (address word : UInt16)
  | writeMultipleCoils (address : UInt16) (coils : List Bool)
  | writeMultipleRegisters (address : UInt16) (words : List UInt16)
  | reportId
  | maskWriteRegister (address andMask orMask : UInt16)
  | readWriteRegisters (readAddress quantity writeAddress : UInt16) (words : List UInt16)
  | custom (code : UInt8) (data : List UInt8)
deriving DecidableEq

namespace Request

def function : Request → FunctionCode
  | readCoils .. => .readCoils
  | readDiscreteInputs .. => .readDiscreteInputs
  | readInputRegisters .. => .readInputRegisters
  | readHoldingRegisters .. => .readHoldingRegisters
  | writeSingleCoil .. => .writeSingleCoil
  | writeSingleRegister .. => .writeSingleRegister
  | writeMultipleCoils .. => .writeMultipleCoils
  | writeMultipleRegisters .. => .writeMultipleRegisters
  | reportId => .reportId
  | maskWriteRegister .. => .maskWriteRegister
  | readWriteRegisters .. => .readWriteRegisters
  | custom code _ => .custom code

/-- A request that only writes; these are the ones that may be broadcast. -/
def isWrite : Request → Bool
  | writeSingleCoil .. | writeMultipleCoils .. | writeSingleRegister .. | writeMultipleRegisters ..
  | maskWriteRegister .. => true
  | _ => false

end Request

/-- A report of a device about itself. -/
structure Report where
  id : UInt8
  running : Bool
  data : List UInt8
deriving DecidableEq

/-- The report of a running device that has nothing to add. -/
def Report.ofId (id : UInt8) : Report := ⟨id, true, []⟩

/-- The byte for a running or a stopped device. -/
def runIndicator (running : Bool) : UInt8 := if running then 0xFF else 0x00

def Report.bytes (r : Report) : List UInt8 := r.id :: runIndicator r.running :: r.data

def Report.render (r : Report) : String :=
  Text.record "SlaveReport"
    [⟨"id", toString r.id.toNat⟩, ⟨"run_indication", toString r.running⟩,
      ⟨"data", Text.bracketed (r.data.map fun b => toString b.toNat)⟩] true

end Modbus

import Modbus.Pdu.Request
import Modbus.Response

/-! Responses and exceptions as protocol data units. -/

namespace Modbus

namespace Response

/-- The fields of a response, after its function code. -/
def payload : Response → List UInt8
  | readCoils coils | readDiscreteInputs coils => countedCoils coils
  | readInputRegisters words | readHoldingRegisters words | readWriteRegisters words =>
    countedWords words
  | writeSingleCoil address coil => wordsBytes [address, coilWord coil]
  | writeSingleRegister address word => wordsBytes [address, word]
  | writeMultipleCoils address quantity | writeMultipleRegisters address quantity =>
    wordsBytes [address, quantity]
  | maskWriteRegister address andMask orMask => wordsBytes [address, andMask, orMask]
  | reportId report => UInt8.ofNat (2 + report.data.length) :: report.bytes

def pdu (r : Response) : List UInt8 := r.function.code :: r.payload

def size : Response → Nat
  | readCoils coils | readDiscreteInputs coils => 2 + packedSize coils.length
  | writeSingleCoil .. | writeMultipleCoils .. | writeMultipleRegisters ..
  | writeSingleRegister .. => 5
  | readInputRegisters words | readHoldingRegisters words | readWriteRegisters words =>
    2 + 2 * words.length
  | reportId report => 4 + report.data.length
  | maskWriteRegister .. => 7

theorem length_pdu (r : Response) : r.pdu.length = r.size := by
  cases r <;>
    simp [pdu, payload, size, countedCoils, countedWords, length_packCoils, Report.bytes] <;> omega

open PduReader in
/-- Reads a report behind its byte count, which counts the run indicator. -/
def readReport : PduReader Report := do
  let count ← byte
  if count.toNat < 2 then throw .noRunIndicator
  let id ← byte
  let status ← byte
  if status = 0x00 then return ⟨id, false, ← bytes (count.toNat - 2)⟩
  if status = 0xFF then return ⟨id, true, ← bytes (count.toNat - 2)⟩
  throw (.runIndicator status)

open PduReader in
def readFields : FunctionCode → PduReader Response
  | .readCoils => return readCoils (← coils none)
  | .readDiscreteInputs => return readDiscreteInputs (← coils none)
  | .readHoldingRegisters => return readHoldingRegisters (← words none)
  | .readInputRegisters => return readInputRegisters (← words none)
  | .writeSingleCoil => return writeSingleCoil (← word) (← coil)
  | .writeSingleRegister => return writeSingleRegister (← word) (← word)
  | .writeMultipleCoils => return writeMultipleCoils (← word) (← word)
  | .writeMultipleRegisters => return writeMultipleRegisters (← word) (← word)
  | .reportId => return reportId (← readReport)
  | .maskWriteRegister => return maskWriteRegister (← word) (← word) (← word)
  | .readWriteRegisters => return readWriteRegisters (← words none)
  | .custom code => throw (.unsupported code)

def reader : PduReader Response := do
  let code ← PduReader.byte
  readFields (.ofCode code)

def ofPdu (pdu : List UInt8) : Except PduFault Response := reader.decode pdu

end Response

namespace ExceptionResponse

/-- An exception repeats the function code with its highest bit set. -/
def pdu (e : ExceptionResponse) : List UInt8 := [e.function.code ||| 0x80, e.exception.code]

open PduReader in
def reader : PduReader ExceptionResponse := do
  let code ← byte
  if code < 0x80 then throw (.notException code)
  return ⟨.ofCode (code &&& 0x7F), .ofCode (← byte)⟩

def ofPdu (pdu : List UInt8) : Except PduFault ExceptionResponse := reader.decode pdu

end ExceptionResponse

namespace Reply

def pdu : Reply → List UInt8
  | .ok response => response.pdu
  | .error exception => exception.pdu

def size : Reply → Nat
  | .ok response => response.size
  | .error _ => 2

theorem length_pdu (r : Reply) : r.pdu.length = r.size := by
  cases r with
  | ok response => exact response.length_pdu
  | error exception => rfl

/-- The reply of a protocol data unit: the highest bit of its first byte marks an exception. -/
def ofPdu (pdu : List UInt8) : Except PduFault Reply :=
  match pdu with
  | code :: _ =>
    if 0x80 ≤ code then (ExceptionResponse.ofPdu pdu).map .error
    else (Response.ofPdu pdu).map .ok
  | [] => (Response.ofPdu pdu).map .ok

end Reply

end Modbus

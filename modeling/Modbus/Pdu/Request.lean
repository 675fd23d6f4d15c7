import Modbus.Pdu.Reader
import Modbus.Request

/-! Requests as protocol data units. -/

namespace Modbus

/-- The word for a coil that is on or off. -/
def coilWord (coil : Bool) : UInt16 := if coil then 0xFF00 else 0x0000

def countedWords (words : List UInt16) : List UInt8 :=
  UInt8.ofNat (2 * words.length) :: wordsBytes words

def countedCoils (coils : List Bool) : List UInt8 :=
  UInt8.ofNat (packedSize coils.length) :: packCoils coils

namespace Request

/-- The fields of a request, after its function code. -/
def payload : Request → List UInt8
  | readCoils address quantity | readDiscreteInputs address quantity
  | readInputRegisters address quantity | readHoldingRegisters address quantity =>
    wordsBytes [address, quantity]
  | writeSingleCoil address coil => wordsBytes [address, coilWord coil]
  | writeSingleRegister address word => wordsBytes [address, word]
  | writeMultipleCoils address coils =>
    wordsBytes [address, UInt16.ofNat coils.length] ++ countedCoils coils
  | writeMultipleRegisters address words =>
    wordsBytes [address, UInt16.ofNat words.length] ++ countedWords words
  | reportId => []
  | maskWriteRegister address andMask orMask => wordsBytes [address, andMask, orMask]
  | readWriteRegisters readAddress quantity writeAddress words =>
    wordsBytes [readAddress, quantity, writeAddress, UInt16.ofNat words.length] ++
      countedWords words
  | custom _ data => data

def pdu (r : Request) : List UInt8 := r.function.code :: r.payload

def size : Request → Nat
  | readCoils .. | readDiscreteInputs .. | readInputRegisters .. | readHoldingRegisters ..
  | writeSingleRegister .. | writeSingleCoil .. => 5
  | writeMultipleCoils _ coils => 6 + packedSize coils.length
  | writeMultipleRegisters _ words => 6 + 2 * words.length
  | reportId => 1
  | maskWriteRegister .. => 7
  | readWriteRegisters _ _ _ words => 10 + 2 * words.length
  | custom _ data => 1 + data.length

theorem length_pdu (r : Request) : r.pdu.length = r.size := by
  cases r <;>
    simp [pdu, payload, size, countedCoils, countedWords, length_packCoils] <;> omega

open PduReader in
def readFields : FunctionCode → PduReader Request
  | .readCoils => return readCoils (← word) (← word)
  | .readDiscreteInputs => return readDiscreteInputs (← word) (← word)
  | .readHoldingRegisters => return readHoldingRegisters (← word) (← word)
  | .readInputRegisters => return readInputRegisters (← word) (← word)
  | .writeSingleCoil => return writeSingleCoil (← word) (← coil)
  | .writeSingleRegister => return writeSingleRegister (← word) (← word)
  | .writeMultipleCoils => do
    let address ← word
    let quantity ← word
    return writeMultipleCoils address (← coils (some quantity))
  | .writeMultipleRegisters => do
    let address ← word
    let quantity ← word
    return writeMultipleRegisters address (← words (some quantity))
  | .reportId => return reportId
  | .maskWriteRegister => return maskWriteRegister (← word) (← word) (← word)
  | .readWriteRegisters => do
    let readAddress ← word
    let quantity ← word
    let writeAddress ← word
    let written ← word
    return readWriteRegisters readAddress quantity writeAddress (← words (some written))
  | .custom code =>
    if code < 0x80 then return custom code (← remaining) else throw (.functionCode code)

def reader : PduReader Request := do
  let code ← PduReader.byte
  readFields (.ofCode code)

def ofPdu (pdu : List UInt8) : Except PduFault Request := reader.decode pdu

end Request

end Modbus

import Modbus.Fault
import Modbus.Limits
import Modbus.Pdu.Words
import Modbus.Text.Hex

/-! Reading the fields of a protocol data unit one after the other, and what can be wrong with
them. -/

namespace Modbus

inductive PduFault where
  | oversized (size : Nat)
  | truncated
  | coilValue (value : UInt16)
  | byteCount (count : UInt8)
  | trailing (count : Nat)
  | functionCode (code : UInt8)
  | unsupported (code : UInt8)
  | noRunIndicator
  | runIndicator (status : UInt8)
  | notException (code : UInt8)
deriving DecidableEq

def PduFault.message : PduFault → String
  | oversized size =>
    "PDU of " ++ toString size ++ " bytes exceeds " ++ toString maxPduSize ++ " bytes"
  | truncated => "truncated PDU"
  | coilValue value => "invalid coil value: 0x" ++ Text.hex4 value
  | byteCount count => "invalid byte count: " ++ toString count.toNat
  | trailing count => toString count ++ " undecoded trailing bytes"
  | functionCode code => "invalid function code: 0x" ++ Text.hex2 code
  | unsupported code => "unsupported function code: 0x" ++ Text.hex2 code
  | noRunIndicator => "report without run indicator"
  | runIndicator status => "invalid run indicator status: 0x" ++ Text.hex2 status
  | notException code => "not an exception: 0x" ++ Text.hex2 code

/-- The kind of a transport's failure that a fault counts as when bytes are read from one. -/
def PduFault.kind : PduFault → FaultKind
  | truncated => .unexpectedEof
  | _ => .invalidData

/-- A reader takes what it needs from the front of the bytes. -/
abbrev PduReader := StateT (List UInt8) (Except PduFault)

namespace PduReader

def byte : PduReader UInt8
  | b :: rest => .ok (b, rest)
  | [] => .error .truncated

def word : PduReader UInt16
  | hi :: lo :: rest => .ok (wordOfBytes hi lo, rest)
  | _ => .error .truncated

def bytes (n : Nat) : PduReader (List UInt8) := fun pdu =>
  if pdu.length < n then .error .truncated else .ok (pdu.take n, pdu.drop n)

def remaining : PduReader (List UInt8) := fun pdu => .ok (pdu, [])

/-- The two words for a coil that is on or off. -/
def coil : PduReader Bool := do
  let value ← word
  if value = 0xFF00 then return true
  if value = 0x0000 then return false
  throw (.coilValue value)

/-- Words behind their byte count, as many as `expected` if that is known. -/
def words (expected : Option UInt16) : PduReader (List UInt16) := do
  let count ← byte
  if count.toNat % 2 ≠ 0 ∨ expected.any (2 * ·.toNat ≠ count.toNat) then
    throw (.byteCount count)
  return wordsOfBytes (← bytes count.toNat)

/-- Packed coils behind their byte count: `expected` of them if that is known, otherwise all that
the bytes hold. -/
def coils (expected : Option UInt16) : PduReader (List Bool) := do
  let count ← byte
  match expected with
  | none => return unpackCoils (← bytes count.toNat)
  | some n =>
    if packedSize n.toNat ≠ count.toNat then throw (.byteCount count)
    return (unpackCoils (← bytes count.toNat)).take n.toNat

/-- What `reader` makes of a whole protocol data unit, which must not be longer than the protocol
admits nor than what is read. -/
def decode {α : Type} (reader : PduReader α) (pdu : List UInt8) : Except PduFault α :=
  if maxPduSize < pdu.length then .error (.oversized pdu.length)
  else
    match reader pdu with
    | .error fault => .error fault
    | .ok (a, []) => .ok a
    | .ok (_, rest) => .error (.trailing rest.length)

end PduReader

end Modbus

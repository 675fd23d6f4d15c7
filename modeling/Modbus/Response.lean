import Modbus.ExceptionCode
import Modbus.Request

/-! Responses of devices. -/

namespace Modbus

/-- What a device answers when it has done what was asked. -/
inductive Response where
  | readCoils (coils : List Bool)
  | readDiscreteInputs (coils : List Bool)
  | readInputRegisters (words : List UInt16)
  | readHoldingRegisters (words : List UInt16)
  | writeSingleCoil (address : UInt16) (coil : Bool)
  | writeSingleRegister (address word : UInt16)
  | writeMultipleCoils (address quantity : UInt16)
  | writeMultipleRegisters (address quantity : UInt16)
  | reportId (report : Report)
  | maskWriteRegister (address andMask orMask : UInt16)
  | readWriteRegisters (words : List UInt16)
deriving DecidableEq

/-- A response, or the exception of the function that was refused. -/
abbrev Reply := Except ExceptionResponse Response

/-- What a client learns from a device: a value, or why there is none. -/
abbrev Answer (α : Type) := Except ExceptionCode α

namespace Response

def function : Response → FunctionCode
  | readCoils .. => .readCoils
  | readDiscreteInputs .. => .readDiscreteInputs
  | readInputRegisters .. => .readInputRegisters
  | readHoldingRegisters .. => .readHoldingRegisters
  | writeSingleCoil .. => .writeSingleCoil
  | writeSingleRegister .. => .writeSingleRegister
  | writeMultipleCoils .. => .writeMultipleCoils
  | writeMultipleRegisters .. => .writeMultipleRegisters
  | reportId .. => .reportId
  | maskWriteRegister .. => .maskWriteRegister
  | readWriteRegisters .. => .readWriteRegisters

/-- The rendering of a response, such as `ReadHoldingRegisters([1, 2])`. -/
def render (r : Response) : String :=
  Text.tagged r.function.render <|
    match r with
    | readCoils coils | readDiscreteInputs coils => Text.bracketed (coils.map toString)
    | readInputRegisters words | readHoldingRegisters words | readWriteRegisters words =>
      Text.bracketed (words.map fun w => toString w.toNat)
    | writeSingleCoil address coil => toString address.toNat ++ ", " ++ toString coil
    | writeSingleRegister address value | writeMultipleCoils address value
    | writeMultipleRegisters address value =>
      toString address.toNat ++ ", " ++ toString value.toNat
    | reportId report => report.render
    | maskWriteRegister address andMask orMask =>
      toString address.toNat ++ ", " ++ toString andMask.toNat ++ ", " ++ toString orMask.toNat

end Response

namespace Reply

def function : Reply → FunctionCode
  | .ok response => response.function
  | .error exception => exception.function

/-- The rendering of a reply, such as `Ok(…)` or `Err(…)`. -/
def render : Reply → String
  | .ok response => Text.tagged "Ok" response.render
  | .error exception => Text.tagged "Err" exception.render

end Reply

def quantity? (n : Nat) : Option UInt16 := if n < 65536 then some (UInt16.ofNat n) else none

/-- The response that confirms a write: it repeats the request, without the values of a write of
several cells. -/
def Request.echo? : Request → Option Response
  | .writeSingleCoil address coil => some (.writeSingleCoil address coil)
  | .writeMultipleCoils address coils => (quantity? coils.length).map (.writeMultipleCoils address)
  | .writeSingleRegister address word => some (.writeSingleRegister address word)
  | .writeMultipleRegisters address words =>
    (quantity? words.length).map (.writeMultipleRegisters address)
  | .maskWriteRegister address andMask orMask => some (.maskWriteRegister address andMask orMask)
  | _ => none

end Modbus

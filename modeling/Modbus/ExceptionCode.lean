import Modbus.FunctionCode

/-! Exception codes: why a device refuses a request. -/

namespace Modbus

/-- The reasons of the standard, and `custom` for every other code. -/
inductive ExceptionCode where
  | illegalFunction
  | illegalDataAddress
  | illegalDataValue
  | serverDeviceFailure
  | acknowledge
  | serverDeviceBusy
  | negativeAcknowledge
  | memoryParityError
  | gatewayPathUnavailable
  | gatewayTargetDevice
  | custom (code : UInt8)
deriving DecidableEq

namespace ExceptionCode

def ofCode (code : UInt8) : ExceptionCode :=
  if code = 0x01 then illegalFunction
  else if code = 0x02 then illegalDataAddress
  else if code = 0x03 then illegalDataValue
  else if code = 0x04 then serverDeviceFailure
  else if code = 0x05 then acknowledge
  else if code = 0x06 then serverDeviceBusy
  else if code = 0x07 then negativeAcknowledge
  else if code = 0x08 then memoryParityError
  else if code = 0x0A then gatewayPathUnavailable
  else if code = 0x0B then gatewayTargetDevice
  else custom code

def code : ExceptionCode → UInt8
  | illegalFunction => 0x01
  | illegalDataAddress => 0x02
  | illegalDataValue => 0x03
  | serverDeviceFailure => 0x04
  | acknowledge => 0x05
  | serverDeviceBusy => 0x06
  | negativeAcknowledge => 0x07
  | memoryParityError => 0x08
  | gatewayPathUnavailable => 0x0A
  | gatewayTargetDevice => 0x0B
  | custom code => code

@[simp] theorem code_ofCode (c : UInt8) : (ofCode c).code = c := by
  have h : ∀ n : Fin 256, (ofCode (UInt8.ofFin n)).code = UInt8.ofFin n := by decide +kernel
  exact h c.toFin

def text : ExceptionCode → String
  | illegalFunction => "Illegal function"
  | illegalDataAddress => "Illegal data address"
  | illegalDataValue => "Illegal data value"
  | serverDeviceFailure => "Server device failure"
  | acknowledge => "Acknowledge"
  | serverDeviceBusy => "Server device busy"
  | negativeAcknowledge => "Negative acknowledge"
  | memoryParityError => "Memory parity error"
  | gatewayPathUnavailable => "Gateway path unavailable"
  | gatewayTargetDevice => "Gateway target device failed to respond"
  | custom _ => "Custom"

/-- The name of an exception, such as `IllegalFunction` or `Custom(42)`. -/
def render : ExceptionCode → String
  | illegalFunction => "IllegalFunction"
  | illegalDataAddress => "IllegalDataAddress"
  | illegalDataValue => "IllegalDataValue"
  | serverDeviceFailure => "ServerDeviceFailure"
  | acknowledge => "Acknowledge"
  | serverDeviceBusy => "ServerDeviceBusy"
  | negativeAcknowledge => "NegativeAcknowledge"
  | memoryParityError => "MemoryParityError"
  | gatewayPathUnavailable => "GatewayPathUnavailable"
  | gatewayTargetDevice => "GatewayTargetDevice"
  | custom code => Text.tagged "Custom" (toString code.toNat)

end ExceptionCode

structure ExceptionResponse where
  function : FunctionCode
  exception : ExceptionCode
deriving DecidableEq

namespace ExceptionResponse

def text (e : ExceptionResponse) : String :=
  "Modbus function " ++ e.function.text ++ ": " ++ e.exception.text

def render (e : ExceptionResponse) : String :=
  Text.record "ExceptionResponse"
    [⟨"function", e.function.render⟩, ⟨"exception", e.exception.render⟩] true

end ExceptionResponse

end Modbus

import Modbus.Text.Hex

/-! Function codes: the byte that says what a request asks for. -/

namespace Modbus

/-- The functions of this library, and `custom` for every other code. -/
inductive FunctionCode where
  | readCoils
  | readDiscreteInputs
  | readHoldingRegisters
  | readInputRegisters
  | writeSingleCoil
  | writeSingleRegister
  | writeMultipleCoils
  | writeMultipleRegisters
  | reportId
  | maskWriteRegister
  | readWriteRegisters
  | custom (code : UInt8)
deriving DecidableEq

namespace FunctionCode

def ofCode (code : UInt8) : FunctionCode :=
  if code = 0x01 then readCoils
  else if code = 0x02 then readDiscreteInputs
  else if code = 0x03 then readHoldingRegisters
  else if code = 0x04 then readInputRegisters
  else if code = 0x05 then writeSingleCoil
  else if code = 0x06 then writeSingleRegister
  else if code = 0x0F then writeMultipleCoils
  else if code = 0x10 then writeMultipleRegisters
  else if code = 0x11 then reportId
  else if code = 0x16 then maskWriteRegister
  else if code = 0x17 then readWriteRegisters
  else custom code

def code : FunctionCode → UInt8
  | readCoils => 0x01
  | readDiscreteInputs => 0x02
  | readHoldingRegisters => 0x03
  | readInputRegisters => 0x04
  | writeSingleCoil => 0x05
  | writeSingleRegister => 0x06
  | writeMultipleCoils => 0x0F
  | writeMultipleRegisters => 0x10
  | reportId => 0x11
  | maskWriteRegister => 0x16
  | readWriteRegisters => 0x17
  | custom code => code

@[simp] theorem code_ofCode (c : UInt8) : (ofCode c).code = c := by
  have h : ∀ n : Fin 256, (ofCode (UInt8.ofFin n)).code = UInt8.ofFin n := by decide +kernel
  exact h c.toFin

/-- The text of a function is its code in base ten. -/
def text (f : FunctionCode) : String := toString f.code.toNat

/-- The name of a function, such as `ReadCoils` or `Custom(65)`. -/
def render : FunctionCode → String
  | readCoils => "ReadCoils"
  | readDiscreteInputs => "ReadDiscreteInputs"
  | readHoldingRegisters => "ReadHoldingRegisters"
  | readInputRegisters => "ReadInputRegisters"
  | writeSingleCoil => "WriteSingleCoil"
  | writeSingleRegister => "WriteSingleRegister"
  | writeMultipleCoils => "WriteMultipleCoils"
  | writeMultipleRegisters => "WriteMultipleRegisters"
  | reportId => "ReportSlaveId"
  | maskWriteRegister => "MaskWriteRegister"
  | readWriteRegisters => "ReadWriteMultipleRegisters"
  | custom code => Text.tagged "Custom" (toString code.toNat)

end FunctionCode

end Modbus

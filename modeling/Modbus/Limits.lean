/-! Limits of the protocol: the largest quantities of one request and the largest protocol data
unit. -/

namespace Modbus

/-- The most coils or discrete inputs that one request reads. -/
def maxReadBits : Nat := 2000

/-- The most registers that one request reads. -/
def maxReadRegisters : Nat := 125

/-- The most coils that one request writes. -/
def maxWriteBits : Nat := 1968

/-- The most registers that one request writes. -/
def maxWriteRegisters : Nat := 123

/-- The most registers that a request which also reads writes. -/
def maxReadWriteRegisters : Nat := 121

/-- The most bytes of a protocol data unit. -/
def maxPduSize : Nat := 253

end Modbus

import Modbus.Text.Hex

/-! Unit identifiers: the byte that names the device a request is for. -/

namespace Modbus

/-- The identifier of a unit on a line or behind a gateway. -/
structure UnitId where
  value : UInt8
deriving DecidableEq

namespace UnitId

/-- A request for this identifier is for every unit of the line. -/
def broadcast : UnitId := ⟨0⟩

def minDevice : UnitId := ⟨1⟩

def maxDevice : UnitId := ⟨247⟩

/-- The identifier of a device that is reached over TCP directly. -/
def tcpDevice : UnitId := ⟨255⟩

def isBroadcast (u : UnitId) : Bool := u == broadcast

def isDevice (u : UnitId) : Bool := minDevice.value ≤ u.value && u.value ≤ maxDevice.value

def isReserved (u : UnitId) : Bool := maxDevice.value < u.value

/-- A device may be registered under the identifier of one device or of a direct one. -/
def isRegistrable (u : UnitId) : Bool := u.isDevice || u == tcpDevice

/-- The text of an identifier, such as `0x21`. -/
def text (u : UnitId) : String := "0x" ++ Text.hex2 u.value

/-- The rendering of an identifier, such as `Slave(33)`. -/
def render (u : UnitId) : String := Text.tagged "Slave" (toString u.value.toNat)

end UnitId

end Modbus

import Modbus.Pdu.Words

/-! The checksum of frames on a serial line: a cyclic redundancy check of 16 bits with the
reflected polynomial 0xA001, started with all bits set. -/

namespace Modbus

/-- One bit of the division: the remainder moves down, and the polynomial is subtracted if a one
falls out. -/
def crcShift (crc : UInt16) : UInt16 :=
  if crc &&& 1 = 1 then (crc >>> 1) ^^^ 0xA001 else crc >>> 1

/-- Divides the next byte: it is added to the remainder, which then moves by eight bits. -/
def crcByte (crc : UInt16) (b : UInt8) : UInt16 := Nat.repeat crcShift 8 (crc ^^^ b.toUInt16)

def crc (bytes : List UInt8) : UInt16 := bytes.foldl crcByte 0xFFFF

/-- The checksum as it is sent: its low byte comes first, so the word has its bytes swapped. -/
def checksum (bytes : List UInt8) : UInt16 := swapBytes (crc bytes)

end Modbus

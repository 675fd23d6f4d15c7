import Modbus.Number
import Modbus.Text.Hex

/-! Text of numbers: base ten for integers, and the bits in base 16 for floating point numbers. -/

namespace Modbus

namespace NumberType

def all : List NumberType := [u16, i16, u32, i32, f32, u64, i64, f64]

def name : NumberType → String
  | u16 => "u16"
  | i16 => "i16"
  | u32 => "u32"
  | i32 => "i32"
  | f32 => "f32"
  | u64 => "u64"
  | i64 => "i64"
  | f64 => "f64"

def ofName? (s : String) : Option NumberType := all.find? (·.name == s)

theorem ofName?_name (t : NumberType) : ofName? t.name = some t := by cases t <;> decide

def isFloating : NumberType → Bool
  | f32 | f64 => true
  | _ => false

def isSigned : NumberType → Bool
  | i16 | i32 | i64 => true
  | _ => false

end NumberType

namespace ByteOrder

def all : List ByteOrder := [abcd, cdab, badc, dcba]

def ofText? (s : String) : Option ByteOrder := all.find? (·.text == s)

theorem ofText?_text (o : ByteOrder) : ofText? o.text = some o := by cases o <;> decide

end ByteOrder

namespace Number

variable {t : NumberType}

def text (x : Number t) : String :=
  if t.isFloating then Text.hexDigits (2 * t.size) x.bits.toNat
  else if t.isSigned then toString x.bits.toInt
  else toString x.bits.toNat

/-- The number that a text stands for, without what does not fit into its bits. -/
def ofText? (t : NumberType) (s : String) : Option (Number t) :=
  if t.isFloating then (Text.ofHexDigits? s.toList).map fun n => ⟨BitVec.ofNat _ n⟩
  else s.toInt?.map fun n => ⟨BitVec.ofInt _ n⟩

end Number

end Modbus

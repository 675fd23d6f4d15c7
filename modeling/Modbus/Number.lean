import Modbus.Pdu.Words

/-! Numbers that do not fit into one register: their bits, the registers that hold them, and the
four orders in which devices lay out the bytes of those registers. -/

namespace Modbus

/-- An order of bytes, named by where the bytes of a four byte number `ABCD` end up. -/
inductive ByteOrder where
  | abcd
  | cdab
  | badc
  | dcba
deriving DecidableEq

/-- The types of numbers: unsigned and signed integers and floating point numbers. -/
inductive NumberType where
  | u16
  | i16
  | u32
  | i32
  | f32
  | u64
  | i64
  | f64
deriving DecidableEq

def NumberType.registers : NumberType → Nat
  | u16 | i16 => 1
  | u32 | i32 | f32 => 2
  | u64 | i64 | f64 => 4

def NumberType.size (t : NumberType) : Nat := 2 * t.registers

/-- A number by its bits: two's complement for integers, IEEE 754 for floating point numbers. -/
structure Number (t : NumberType) where
  bits : BitVec (16 * t.registers)
deriving DecidableEq

/-- Registers that hold a number in the order `abcd`, laid out in the order `o`. -/
def ByteOrder.arrange : ByteOrder → List UInt16 → List UInt16
  | abcd, ws => ws
  | cdab, ws => ws.reverse
  | badc, ws => ws.map swapBytes
  | dcba, ws => (ws.map swapBytes).reverse

@[simp] theorem ByteOrder.length_arrange (o : ByteOrder) (ws : List UInt16) :
    (o.arrange ws).length = ws.length := by
  cases o <;> simp [arrange]

/-- The lowest `n` digits of `v` in base 65536, the highest first. -/
def digitWords : Nat → Nat → List UInt16
  | 0, _ => []
  | n + 1, v => UInt16.ofNat (v >>> (16 * n)) :: digitWords n v

def joinWords (ws : List UInt16) : Nat := ws.foldl (fun v w => 65536 * v + w.toNat) 0

@[simp] theorem length_digitWords (n v : Nat) : (digitWords n v).length = n := by
  induction n with
  | zero => rfl
  | succ n ih => simp [digitWords, ih]

namespace Number

variable {t : NumberType}

def words (x : Number t) : List UInt16 := digitWords t.registers x.bits.toNat

def ofWords (ws : List UInt16) : Number t := ⟨BitVec.ofNat _ (joinWords ws)⟩

def toRegisters (o : ByteOrder) (x : Number t) : List UInt16 := o.arrange x.words

/-- The number that registers hold in the order `o`, if they are as many as it takes. -/
def ofRegisters? (o : ByteOrder) (ws : List UInt16) : Option (Number t) :=
  if ws.length = t.registers then some (ofWords (o.arrange ws)) else none

/-- The number with the bytes of `x` laid out in the order `o`. -/
def swap (o : ByteOrder) (x : Number t) : Number t := ofWords (o.arrange x.words)

@[simp] theorem length_toRegisters (o : ByteOrder) (x : Number t) :
    (x.toRegisters o).length = t.registers := by
  simp [toRegisters, words]

def arrayRegisters (o : ByteOrder) (xs : List (Number t)) : List UInt16 :=
  xs.flatMap (toRegisters o)

/-- The numbers that registers hold one after the other; registers that do not make up a whole
number at the end are left out. -/
def arrayOfRegisters (o : ByteOrder) (ws : List UInt16) : List (Number t) :=
  if _ : t.registers ≤ ws.length then
    ofWords (o.arrange (ws.take t.registers)) :: arrayOfRegisters o (ws.drop t.registers)
  else []
termination_by ws.length
decreasing_by
  rw [List.length_drop]
  have : 0 < t.registers := by cases t <;> decide
  omega

end Number

/-- The name of an order, such as `CDAB`. -/
def ByteOrder.text : ByteOrder → String
  | abcd => "ABCD"
  | cdab => "CDAB"
  | badc => "BADC"
  | dcba => "DCBA"

end Modbus

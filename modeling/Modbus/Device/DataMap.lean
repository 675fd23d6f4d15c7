import Modbus.Number

/-! Data maps: the cells of a device, in one block for each of its four tables. -/

namespace Modbus

/-- The tables of a device. Coils and discrete inputs are bits, registers are words. -/
inductive Table where
  | coil
  | discreteInput
  | inputRegister
  | holdingRegister
deriving DecidableEq

namespace Table

def all : List Table := [coil, discreteInput, inputRegister, holdingRegister]

def isBits : Table → Bool
  | coil | discreteInput => true
  | inputRegister | holdingRegister => false

def text : Table → String
  | coil => "coil"
  | discreteInput => "discrete-input"
  | inputRegister => "input-register"
  | holdingRegister => "holding-register"

def ofText? (s : String) : Option Table := all.find? (·.text == s)

theorem ofText?_text (t : Table) : ofText? t.text = some t := by cases t <;> decide

end Table

/-- Why cells cannot be reached. -/
inductive RangeFault where
  /-- They are not all inside the block of a table of their kind. -/
  | outside
  /-- The position behind the last of them does not fit into a machine word. -/
  | overflow
deriving DecidableEq

def wordSpan : Nat := UInt64.size

/-- Cells at the addresses from `base` on. -/
structure Block (α : Type) where
  base : UInt16
  cells : List α
deriving DecidableEq

namespace Block

variable {α : Type}

def filled (base : UInt16) (quantity : Nat) (a : α) : Block α := ⟨base, List.replicate quantity a⟩

/-- The block moved to `base`, with `quantity` cells: those that it has, and `a` for each that it
lacks. -/
def resize (b : Block α) (base : UInt16) (quantity : Nat) (a : α) : Block α :=
  ⟨base, b.cells.take quantity ++ List.replicate (quantity - b.cells.length) a⟩

/-- The position of the first of `count` cells from `address` on. -/
def position (b : Block α) (address : UInt16) (count : Nat) : Except RangeFault Nat :=
  if address < b.base then .error .outside
  else
    let start := address.toNat - b.base.toNat
    if wordSpan ≤ start + count then .error .overflow
    else if b.cells.length < start + count then .error .outside
    else .ok start

def read (b : Block α) (address : UInt16) (count : Nat) : Except RangeFault (List α) :=
  (b.position address count).map fun start => (b.cells.drop start).take count

def write (b : Block α) (address : UInt16) (values : List α) : Except RangeFault (Block α) :=
  (b.position address values.length).map fun start =>
    { b with cells := b.cells.take start ++ values ++ b.cells.drop (start + values.length) }

end Block

/-- The cells of a device. A table without a block has none. -/
structure DataMap where
  coils : Option (Block Bool)
  discreteInputs : Option (Block Bool)
  inputRegisters : Option (Block UInt16)
  holdingRegisters : Option (Block UInt16)
deriving DecidableEq

namespace DataMap

def empty : DataMap := ⟨none, none, none, none⟩

def bits (m : DataMap) : Table → Option (Block Bool)
  | .coil => m.coils
  | .discreteInput => m.discreteInputs
  | _ => none

def registers (m : DataMap) : Table → Option (Block UInt16)
  | .inputRegister => m.inputRegisters
  | .holdingRegister => m.holdingRegisters
  | _ => none

def setBits (m : DataMap) (t : Table) (b : Block Bool) : DataMap :=
  match t with
  | .coil => { m with coils := some b }
  | .discreteInput => { m with discreteInputs := some b }
  | _ => m

def setRegisters (m : DataMap) (t : Table) (b : Block UInt16) : DataMap :=
  match t with
  | .inputRegister => { m with inputRegisters := some b }
  | .holdingRegister => { m with holdingRegisters := some b }
  | _ => m

/-- A block moved and resized, or a new one. -/
def declared {α : Type} (old : Option (Block α)) (base : UInt16) (quantity : Nat) (a : α) :
    Block α :=
  match old with
  | some b => b.resize base quantity a
  | none => .filled base quantity a

/-- Gives a table `quantity` cells from `base` on. A block that is there already is moved and
keeps its first cells. -/
def declare (m : DataMap) (t : Table) (quantity : Nat) (base : UInt16) : DataMap :=
  if t.isBits then m.setBits t (declared (m.bits t) base quantity false)
  else m.setRegisters t (declared (m.registers t) base quantity 0)

def block {α : Type} (b : Option (Block α)) : Except RangeFault (Block α) :=
  match b with
  | some b => .ok b
  | none => .error .outside

def readBits (m : DataMap) (t : Table) (address : UInt16) (count : Nat) :
    Except RangeFault (List Bool) := do
  (← block (m.bits t)).read address count

def writeBits (m : DataMap) (t : Table) (address : UInt16) (values : List Bool) :
    Except RangeFault DataMap := do
  return m.setBits t (← (← block (m.bits t)).write address values)

def readRegisters (m : DataMap) (t : Table) (address : UInt16) (count : Nat) :
    Except RangeFault (List UInt16) := do
  (← block (m.registers t)).read address count

def writeRegisters (m : DataMap) (t : Table) (address : UInt16) (values : List UInt16) :
    Except RangeFault DataMap := do
  return m.setRegisters t (← (← block (m.registers t)).write address values)

def check (m : DataMap) (t : Table) (address : UInt16) (count : Nat) : Except RangeFault Unit := do
  if t.isBits then discard ((← block (m.bits t)).position address count)
  else discard ((← block (m.registers t)).position address count)

/-- The number that the registers from `address` on hold in the order `o`. -/
def readNumber (m : DataMap) (t : Table) (address : UInt16) (n : NumberType) (o : ByteOrder) :
    Except RangeFault (Number n) := do
  match Number.ofRegisters? o (← m.readRegisters t address n.registers) with
  | some x => return x
  | none => throw .outside

/-- The map with a number in the registers from `address` on, in the order `o`. -/
def writeNumber (m : DataMap) (t : Table) (address : UInt16) {n : NumberType} (o : ByteOrder)
    (x : Number n) : Except RangeFault DataMap :=
  m.writeRegisters t address (x.toRegisters o)

end DataMap

end Modbus

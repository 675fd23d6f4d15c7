/-! Words and coils as bytes: a word is sent with its high byte first, and coils are packed eight
to a byte, the first in the lowest bit. -/

namespace Modbus

/-- The high byte of a word, then its low byte. -/
def wordBytes (w : UInt16) : List UInt8 := [(w >>> 8).toUInt8, w.toUInt8]

def wordOfBytes (hi lo : UInt8) : UInt16 := (hi.toUInt16 <<< 8) ||| lo.toUInt16

def swapBytes (w : UInt16) : UInt16 := (w <<< 8) ||| (w >>> 8)

def wordsBytes (ws : List UInt16) : List UInt8 := ws.flatMap wordBytes

/-- The words of an even number of bytes; an odd byte at the end is left out. -/
def wordsOfBytes : List UInt8 → List UInt16
  | hi :: lo :: rest => wordOfBytes hi lo :: wordsOfBytes rest
  | _ => []

/-- A byte whose lowest bits are `bits`, the first the lowest. -/
def packByte : List Bool → UInt8
  | [] => 0
  | b :: rest => 2 * packByte rest + b.toUInt8

def packedSize (n : Nat) : Nat := (n + 7) / 8

def packCoils (coils : List Bool) : List UInt8 :=
  match coils with
  | [] => []
  | c :: rest => packByte (c :: rest.take 7) :: packCoils (rest.drop 7)
termination_by coils.length
decreasing_by simp only [List.length_drop, List.length_cons]; omega

/-- The bits of a byte, the lowest first. -/
def unpackByte (b : UInt8) : List Bool := (List.range 8).map fun i => b.toNat.testBit i

def unpackCoils (bytes : List UInt8) : List Bool := bytes.flatMap unpackByte

@[simp] theorem length_wordBytes (w : UInt16) : (wordBytes w).length = 2 := rfl

@[simp] theorem length_wordsBytes (ws : List UInt16) : (wordsBytes ws).length = 2 * ws.length := by
  induction ws with
  | nil => rfl
  | cons w ws ih => simp_all [wordsBytes, wordBytes, Nat.mul_add]

@[simp] theorem length_unpackCoils (bytes : List UInt8) :
    (unpackCoils bytes).length = 8 * bytes.length := by
  induction bytes with
  | nil => rfl
  | cons b bs ih =>
    simp_all [unpackCoils, unpackByte]
    omega

theorem length_packCoils (coils : List Bool) :
    (packCoils coils).length = packedSize coils.length := by
  fun_induction packCoils coils with
  | case1 => rfl
  | case2 c rest ih => simp only [packedSize, List.length_cons, List.length_drop] at ih ⊢; omega

end Modbus

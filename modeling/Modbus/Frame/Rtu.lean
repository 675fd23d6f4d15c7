import Modbus.Frame.Split

/-! Frames on a serial line. Nothing marks their end: the length of a frame follows from its
function code and, for some functions, from a count inside it. -/

namespace Modbus.Rtu

/-- What is known of the number of bytes between the function code and the checksum. -/
inductive Length where
  | unknown
  | pending
  | known (n : Nat)
deriving DecidableEq

/-- A length of `fixed` bytes and as many as the byte at `offset` says. -/
def counted (fields : List UInt8) (offset fixed : Nat) : Length :=
  match fields[offset]? with
  | some count => .known (fixed + count.toNat)
  | none => .pending

/-- The length of a request of function `code`, of which `fields` have arrived. -/
def requestLength (code : UInt8) (fields : List UInt8) : Length :=
  if 0x01 ≤ code ∧ code ≤ 0x06 then .known 4
  else if code = 0x07 ∨ code = 0x0B ∨ code = 0x0C ∨ code = 0x11 then .known 0
  else if code = 0x0F ∨ code = 0x10 then counted fields 4 5
  else if code = 0x16 then .known 6
  else if code = 0x17 then counted fields 8 9
  else if code = 0x18 then .known 2
  else .unknown

/-- The length of a response or exception of function `code`, of which `fields` have arrived. -/
def responseLength (code : UInt8) (fields : List UInt8) : Length :=
  if (0x01 ≤ code ∧ code ≤ 0x04) ∨ code = 0x0C ∨ code = 0x11 ∨ code = 0x17 then
    counted fields 0 1
  else if code = 0x05 ∨ code = 0x06 ∨ code = 0x0B ∨ code = 0x0F ∨ code = 0x10 then .known 4
  else if code = 0x07 then .known 1
  else if code = 0x16 then .known 6
  else if code = 0x18 then
    match fields with
    | hi :: lo :: _ => .known (2 + (wordOfBytes hi lo).toNat)
    | _ => .pending
  else if 0x81 ≤ code ∧ code ≤ 0xAB then .known 1
  else .unknown

def payloadLength : Role → UInt8 → List UInt8 → Length
  | .request => requestLength
  | .response => responseLength

def cut (role : Role) (length : Nat) : List UInt8 → Split
  | [] => .incomplete
  | unit :: body =>
    match body.drop (length - 3) with
    | hi :: lo :: rest =>
      let pdu := body.take (length - 3)
      let expected := checksum (unit :: pdu)
      let actual := wordOfBytes hi lo
      if expected = actual then .frame ⟨.rtu ⟨unit⟩ actual, role, pdu⟩ rest
      else .damaged expected actual rest
    | _ => .incomplete

/-- Looks for a frame at the front of `buffer`. The length of a frame of an unknown function is
unknown: all that has arrived is accepted as soon as it carries a valid checksum. -/
def split (role : Role) (buffer : List UInt8) : Split :=
  match buffer with
  | _ :: code :: fields =>
    match payloadLength role code fields with
    | .pending => .incomplete
    | .known n =>
      if Framing.rtu.maxFrameSize < n + 4 then .invalid (.rtuLength (n + 4))
      else cut role (n + 4) buffer
    | .unknown =>
      if Framing.rtu.maxFrameSize < buffer.length then .invalid (.unknownLength role code)
      else if buffer.length < 4 then .incomplete
      else
        match cut role buffer.length buffer with
        | .frame message rest => .frame message rest
        | _ => .incomplete
  | _ => .incomplete

end Modbus.Rtu

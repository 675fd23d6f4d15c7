import Modbus.Error

/-! Frames in the form in which they are kept: the bytes of one frame in a buffer, and beside them
the number of those that are its protocol data unit. The unit identifier and the protocol data unit
are changed in place, and so are the fields that frame them. -/

namespace Modbus

/-- The word that stands at `place`. -/
def wordAt (bytes : List UInt8) (place : Nat) : UInt16 :=
  wordOfBytes (bytes.getD place 0) (bytes.getD (place + 1) 0)

/-- Puts a word in the place of the two bytes at `place`. -/
def putWord (w : UInt16) (place : Nat) (bytes : List UInt8) : List UInt8 :=
  (bytes.set place (w >>> 8).toUInt8).set (place + 1) w.toUInt8

/-- What stands before a protocol data unit of this many bytes. -/
def Header.front (length : Nat) : Header → List UInt8
  | .rtu unit => [unit.value]
  | .tcp transaction unit =>
    wordBytes transaction ++ wordBytes 0 ++ wordBytes (UInt16.ofNat (length + 1)) ++ [unit.value]

/-- The bytes of a frame, with its header and its checksum. -/
structure FrameBuffer where
  framing : Framing
  role : Role
  adu : List UInt8
  pduLength : Nat
deriving DecidableEq

namespace FrameBuffer

/-- Brings the fields up to date that frame the protocol data unit. What stands behind it is cut
off, and on a serial line the checksum is put there. -/
def prepared (b : FrameBuffer) : FrameBuffer :=
  let adu := b.adu.take (b.framing.headerSize + b.pduLength)
  match b.framing with
  | .tcp => { b with adu := putWord (UInt16.ofNat (b.pduLength + 1)) 4 (putWord 0 2 adu) }
  | .rtu => { b with adu := adu ++ wordBytes (checksum adu) }

/-- The frame of a request, unless it is too long. -/
def ofRequest (header : Header) (request : Request) : Except TransportError FrameBuffer :=
  if maxPduSize < request.size then .error .requestSize
  else .ok (prepared
    ⟨header.framing, .request, header.front request.size ++ request.pdu, request.size⟩)

def ofReply (header : Header) (reply : Reply) : Except TransportError FrameBuffer :=
  if maxPduSize < reply.size then .error .responseSize
  else .ok (prepared ⟨header.framing, .response, header.front reply.size ++ reply.pdu, reply.size⟩)

/-! ### Reading -/

def pdu (b : FrameBuffer) : List UInt8 := (b.adu.drop b.framing.headerSize).take b.pduLength

def unit (b : FrameBuffer) : UnitId := ⟨b.adu.getD (b.framing.headerSize - 1) 0⟩

def transaction? (b : FrameBuffer) : Option UInt16 :=
  match b.framing with
  | .tcp => some (wordAt b.adu 0)
  | .rtu => none

def header (b : FrameBuffer) : Header :=
  match b.transaction? with
  | some transaction => .tcp transaction b.unit
  | none => .rtu b.unit

/-- The answer to a request: it has the header of the request. -/
def reply (b : FrameBuffer) (reply : Reply) : Except TransportError FrameBuffer :=
  ofReply b.header reply

def functionCode (b : FrameBuffer) : UInt8 := b.pdu.headD 0

def isException (b : FrameBuffer) : Bool := 0x80 ≤ b.functionCode

def byte? (b : FrameBuffer) (offset : Nat) : Option UInt8 := b.pdu[offset]?

def word? (b : FrameBuffer) (offset : Nat) : Option UInt16 :=
  if offset + 2 ≤ b.pdu.length then some (wordAt b.pdu offset) else none

def request (b : FrameBuffer) : Except PduFault Request := Request.ofPdu b.pdu

def response (b : FrameBuffer) : Except PduFault Reply := Reply.ofPdu b.pdu

/-- The rendering of a frame, with its bytes as pairs of digits. -/
def render (b : FrameBuffer) : String :=
  Text.record "Message"
    [⟨"framing", b.framing.render⟩, ⟨"role", b.role.render⟩,
      ⟨"adu", Text.bracketed (b.adu.map Text.hex2)⟩, ⟨"pdu_len", toString b.pduLength⟩] true

/-! ### Changes in place -/

def setUnit (b : FrameBuffer) (unit : UnitId) : FrameBuffer :=
  { b with adu := b.adu.set (b.framing.headerSize - 1) unit.value }

/-- Changes the byte of the protocol data unit at `offset`, if there is one. -/
def setByte? (b : FrameBuffer) (offset : Nat) (value : UInt8) : Option FrameBuffer :=
  if b.pduLength ≤ offset then none
  else some { b with adu := b.adu.set (b.framing.headerSize + offset) value }

/-- Changes the word of the protocol data unit at `offset`, if there is one. -/
def setWord? (b : FrameBuffer) (offset : Nat) (value : UInt16) : Option FrameBuffer :=
  if b.pduLength < offset + 2 then none
  else some { b with adu := putWord value (b.framing.headerSize + offset) b.adu }

/-! ### Frames that arrive -/

/-- What has been found at the front of the bytes received so far, a frame or nothing yet, and the
bytes that are left. -/
abbrev Found := Except Error (Option FrameBuffer) × List UInt8

/-- Refuses bytes that do not end with their checksum. -/
def check (adu : List UInt8) : Except Error Unit :=
  let expected := checksum (adu.take (adu.length - 2))
  let actual := wordAt adu (adu.length - 2)
  if expected = actual then .ok () else .error (.ofChecksum expected actual)

/-- Takes a frame of `length` bytes from a serial line. One that is damaged is taken as well. -/
def cutRtu (role : Role) (length : Nat) (buffer : List UInt8) : Found :=
  let adu := buffer.take length
  match check adu with
  | .ok () => (.ok (some ⟨.rtu, role, adu, length - 3⟩), buffer.drop length)
  | .error e => (.error e, buffer.drop length)

def decodeRtu (role : Role) (buffer : List UInt8) : Found :=
  match buffer with
  | _ :: code :: fields =>
    match Rtu.payloadLength role code fields with
    | .pending => (.ok none, buffer)
    | .known n =>
      if Framing.rtu.maxFrameSize < n + 4 then (.error (.ofFault (.rtuLength (n + 4))), [])
      else if buffer.length < n + 4 then (.ok none, buffer)
      else cutRtu role (n + 4) buffer
    | .unknown =>
      if Framing.rtu.maxFrameSize < buffer.length then
        (.error (.ofFault (.unknownLength role code)), [])
      else if buffer.length < 4 then (.ok none, buffer)
      else
        match check buffer with
        | .ok () => cutRtu role buffer.length buffer
        | .error _ => (.ok none, buffer)
  | _ => (.ok none, buffer)

def decodeTcp (role : Role) (buffer : List UInt8) : Found :=
  if buffer.length < Framing.tcp.headerSize then (.ok none, buffer)
  else if wordAt buffer 2 ≠ 0 then (.error (.ofFault (.protocolId (wordAt buffer 2))), [])
  else
    let length := (wordAt buffer 4).toNat
    if length < 2 ∨ Framing.tcp.maxFrameSize - 6 < length then
      (.error (.ofFault (.mbapLength length)), [])
    else if buffer.length < 6 + length then (.ok none, buffer)
    else (.ok (some ⟨.tcp, role, buffer.take (6 + length), length - 1⟩), buffer.drop (6 + length))

def decode (codec : FrameCodec) (buffer : List UInt8) : Found :=
  match codec.framing with
  | .rtu => decodeRtu codec.role buffer
  | .tcp => decodeTcp codec.role buffer

/-- Reads bytes that are exactly one frame. -/
def parse (framing : Framing) (role : Role) (frame : List UInt8) : Except Error FrameBuffer :=
  match decode ⟨framing, role⟩ frame with
  | (.ok (some b), []) => .ok b
  | (.ok (some _), rest) => .error (.ofFault (.trailing rest.length framing))
  | (.ok none, _) => .error (.ofFault (.incomplete framing))
  | (.error e, _) => .error e

end FrameBuffer

end Modbus

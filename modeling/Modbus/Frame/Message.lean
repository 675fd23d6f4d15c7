import Modbus.Fault
import Modbus.Frame.Checksum
import Modbus.Frame.Header
import Modbus.Pdu.Response

/-! Messages: a protocol data unit together with what frames it. The protocol data unit and the
unit identifier may be changed in place; a checksum is brought up to date by `prepared`. In the form
of its bytes a message is a `FrameBuffer`. -/

namespace Modbus

/-- What surrounds a protocol data unit. The length field of a TCP frame is not kept, because it
follows from the protocol data unit. -/
inductive Envelope where
  | rtu (unit : UnitId) (checksum : UInt16)
  | tcp (transaction : UInt16) (unit : UnitId)
deriving DecidableEq

namespace Envelope

def header : Envelope → Header
  | rtu unit _ => .rtu unit
  | tcp transaction unit => .tcp transaction unit

def withUnit (unit : UnitId) : Envelope → Envelope
  | rtu _ checksum => rtu unit checksum
  | tcp transaction _ => tcp transaction unit

def front (pdu : List UInt8) : Envelope → List UInt8
  | rtu unit _ => [unit.value]
  | tcp transaction unit =>
    wordsBytes [transaction, 0, UInt16.ofNat (pdu.length + 1)] ++ [unit.value]

def back : Envelope → List UInt8
  | rtu _ checksum => wordBytes checksum
  | tcp .. => []

/-- The envelope with the checksum of a frame that holds `pdu`. -/
def sealed (pdu : List UInt8) : Envelope → Envelope
  | rtu unit _ => rtu unit (checksum (unit.value :: pdu))
  | tcp transaction unit => tcp transaction unit

end Envelope

/-- The envelope of a frame with this header that holds `pdu`. -/
def Header.envelope (pdu : List UInt8) : Header → Envelope
  | .rtu unit => .rtu unit (checksum (unit.value :: pdu))
  | .tcp transaction unit => .tcp transaction unit

/-- A frame that asks or answers. -/
structure Message where
  envelope : Envelope
  role : Role
  pdu : List UInt8
deriving DecidableEq

namespace Message

/-- The frame of a request, unless it is too long. -/
def ofRequest (header : Header) (request : Request) : Except TransportError Message :=
  if maxPduSize < request.size then .error .requestSize
  else .ok ⟨header.envelope request.pdu, .request, request.pdu⟩

def ofReply (header : Header) (reply : Reply) : Except TransportError Message :=
  if maxPduSize < reply.size then .error .responseSize
  else .ok ⟨header.envelope reply.pdu, .response, reply.pdu⟩

def header (m : Message) : Header := m.envelope.header

def framing (m : Message) : Framing := m.header.framing

def unit (m : Message) : UnitId := m.header.unit

def transaction? (m : Message) : Option UInt16 :=
  match m.envelope with
  | .rtu .. => none
  | .tcp transaction _ => some transaction

def adu (m : Message) : List UInt8 := m.envelope.front m.pdu ++ m.pdu ++ m.envelope.back

/-- The answer to a request: it has the header of the request. -/
def reply (m : Message) (reply : Reply) : Except TransportError Message := ofReply m.header reply

def functionCode (m : Message) : UInt8 := m.pdu.headD 0

/-- The highest bit of the function code marks an exception. -/
def isException (m : Message) : Bool := 0x80 ≤ m.functionCode

def byte? (m : Message) (offset : Nat) : Option UInt8 := m.pdu[offset]?

def word? (m : Message) (offset : Nat) : Option UInt16 :=
  match m.pdu.drop offset with
  | hi :: lo :: _ => some (wordOfBytes hi lo)
  | _ => none

def setUnit (m : Message) (unit : UnitId) : Message :=
  { m with envelope := m.envelope.withUnit unit }

/-- Changes the byte of the protocol data unit at `offset`, if there is one. -/
def setByte? (m : Message) (offset : Nat) (value : UInt8) : Option Message :=
  if offset < m.pdu.length then some { m with pdu := m.pdu.set offset value } else none

/-- Changes the word of the protocol data unit at `offset`, if there is one. -/
def setWord? (m : Message) (offset : Nat) (value : UInt16) : Option Message :=
  if offset + 2 ≤ m.pdu.length then
    some { m with pdu := m.pdu.take offset ++ wordBytes value ++ m.pdu.drop (offset + 2) }
  else none

/-- The message as it is sent, with the checksum of its bytes. -/
def prepared (m : Message) : Message := { m with envelope := m.envelope.sealed m.pdu }

def request (m : Message) : Except PduFault Request := Request.ofPdu m.pdu

def response (m : Message) : Except PduFault Reply := Reply.ofPdu m.pdu

/-- The rendering of a message, with its bytes as pairs of digits. -/
def render (m : Message) : String :=
  Text.record "Message"
    [⟨"framing", m.framing.render⟩, ⟨"role", m.role.render⟩,
      ⟨"adu", Text.bracketed (m.adu.map Text.hex2)⟩, ⟨"pdu_len", toString m.pdu.length⟩] true

end Message

end Modbus

import Modbus.Device.Process
import Modbus.Proofs.DataModel.Basic
import Modbus.Proofs.Pdu.Grammar

/-! The server of a data model: what a device answers and which cells it changes, said without
blocks, readers and checks. A request touches ranges of cells; it is executed when they are all
there, first its writes and then its reads. -/

namespace Modbus

/-- The ranges of cells that a request reads and writes: the table, the first protocol address and
the number of cells. -/
def Request.ranges : Request → List (Table × UInt16 × Nat)
  | readCoils a n => [(.coil, a, n.toNat)]
  | readDiscreteInputs a n => [(.discreteInput, a, n.toNat)]
  | readInputRegisters a n => [(.inputRegister, a, n.toNat)]
  | readHoldingRegisters a n => [(.holdingRegister, a, n.toNat)]
  | writeSingleCoil a _ => [(.coil, a, 1)]
  | writeSingleRegister a _ => [(.holdingRegister, a, 1)]
  | writeMultipleCoils a bits => [(.coil, a, bits.length)]
  | writeMultipleRegisters a words => [(.holdingRegister, a, words.length)]
  | maskWriteRegister a _ _ => [(.holdingRegister, a, 1)]
  | readWriteRegisters r n w words =>
    [(.holdingRegister, r, n.toNat), (.holdingRegister, w, words.length)]
  | reportId | custom .. => []

/-- The quantities of a request are what the protocol admits. -/
def Request.WithinLimits : Request → Prop
  | readCoils _ n | readDiscreteInputs _ n => 1 ≤ n.toNat ∧ n.toNat ≤ 2000
  | readInputRegisters _ n | readHoldingRegisters _ n => 1 ≤ n.toNat ∧ n.toNat ≤ 125
  | writeMultipleCoils _ bits => 1 ≤ bits.length ∧ bits.length ≤ 1968
  | writeMultipleRegisters _ words => 1 ≤ words.length ∧ words.length ≤ 123
  | readWriteRegisters _ n _ words =>
    (1 ≤ n.toNat ∧ n.toNat ≤ 125) ∧ 1 ≤ words.length ∧ words.length ≤ 121
  | _ => True

instance : DecidablePred Request.WithinLimits
  | .readCoils .. | .readDiscreteInputs .. | .readInputRegisters .. | .readHoldingRegisters ..
  | .writeMultipleCoils .. | .writeMultipleRegisters .. | .readWriteRegisters .. =>
    inferInstanceAs (Decidable (_ ∧ _))
  | .writeSingleCoil .. | .writeSingleRegister .. | .reportId | .maskWriteRegister ..
  | .custom .. => inferInstanceAs (Decidable True)

/-- The address of a cell for a protocol address: the same, or greater by one. -/
def cellAddress (pduAddressing : Bool) (a : UInt16) : Nat :=
  if pduAddressing then a.toNat else a.toNat + 1

namespace DataModel

variable (pduAddressing : Bool)

/-- All cells of a range are there. Where addresses start at one, none is there for protocol
address 65535. -/
def ReachesRange (m : DataModel) (range : Table × UInt16 × Nat) : Prop :=
  (pduAddressing = true ∨ range.2.1 ≠ 65535) ∧
    m.Holds range.1 (cellAddress pduAddressing range.2.1) range.2.2

instance (m : DataModel) (range : Table × UInt16 × Nat) :
    Decidable (m.ReachesRange pduAddressing range) :=
  instDecidableAnd

/-- All cells that a request reads and writes are there. -/
def Reaches (m : DataModel) (r : Request) : Prop :=
  ∀ range ∈ r.ranges, m.ReachesRange pduAddressing range

instance (m : DataModel) (r : Request) : Decidable (m.Reaches pduAddressing r) :=
  inferInstanceAs (Decidable (∀ range ∈ r.ranges, m.ReachesRange pduAddressing range))

/-- The model after the writes of a request. -/
def written (m : DataModel) : Request → DataModel
  | .writeSingleCoil a bit => m.putBits .coil (cellAddress pduAddressing a) [bit]
  | .writeMultipleCoils a bits => m.putBits .coil (cellAddress pduAddressing a) bits
  | .writeSingleRegister a word =>
    m.putRegisters .holdingRegister (cellAddress pduAddressing a) [word]
  | .writeMultipleRegisters a words =>
    m.putRegisters .holdingRegister (cellAddress pduAddressing a) words
  | .maskWriteRegister a andMask orMask =>
    m.putRegisters .holdingRegister (cellAddress pduAddressing a)
      ((m.holdingRegisters.cells (cellAddress pduAddressing a) 1).map fun v =>
        (v &&& andMask) ||| (orMask &&& ~~~andMask))
  | .readWriteRegisters _ _ w words =>
    m.putRegisters .holdingRegister (cellAddress pduAddressing w) words
  | _ => m

/-- The response to a request, from the model after its writes. A report that does not fit into a
protocol data unit is a failure of the device. -/
def response (m : DataModel) (report : Report) : Request → Answer Response
  | .readCoils a n => .ok (.readCoils (m.coils.cells (cellAddress pduAddressing a) n.toNat))
  | .readDiscreteInputs a n =>
    .ok (.readDiscreteInputs (m.discreteInputs.cells (cellAddress pduAddressing a) n.toNat))
  | .readInputRegisters a n =>
    .ok (.readInputRegisters (m.inputRegisters.cells (cellAddress pduAddressing a) n.toNat))
  | .readHoldingRegisters a n =>
    .ok (.readHoldingRegisters (m.holdingRegisters.cells (cellAddress pduAddressing a) n.toNat))
  | .writeSingleCoil a bit => .ok (.writeSingleCoil a bit)
  | .writeSingleRegister a word => .ok (.writeSingleRegister a word)
  | .writeMultipleCoils a bits => .ok (.writeMultipleCoils a (UInt16.ofNat bits.length))
  | .writeMultipleRegisters a words => .ok (.writeMultipleRegisters a (UInt16.ofNat words.length))
  | .reportId =>
    if report.data.length ≤ 249 then .ok (.reportId report) else .error .serverDeviceFailure
  | .maskWriteRegister a andMask orMask => .ok (.maskWriteRegister a andMask orMask)
  | .readWriteRegisters a n _ _ =>
    .ok (.readWriteRegisters (m.holdingRegisters.cells (cellAddress pduAddressing a) n.toNat))
  | .custom .. => .error .illegalFunction

/-- The answer to a request that is spelled well, and the model after it. -/
def execute (report : Report) (m : DataModel) (r : Request) : Answer Response × DataModel :=
  if ¬ r.WithinLimits then (.error .illegalDataValue, m)
  else if ¬ m.Reaches pduAddressing r then (.error .illegalDataAddress, m)
  else ((m.written pduAddressing r).response pduAddressing report r, m.written pduAddressing r)

/-- The reply to a protocol data unit, and the model after it. -/
def answer (report : Report) (m : DataModel) (pdu : List UInt8) : Reply × DataModel :=
  let refusal := fun (e : ExceptionCode) => (⟨.ofCode (pdu.headD 0), e⟩ : ExceptionResponse)
  match Request.spelled? pdu with
  | none => (.error (refusal .illegalDataValue), m)
  | some r =>
    let (result, m) := m.execute pduAddressing report r
    (result.mapError refusal, m)

/-- The replies to protocol data units one after the other, and the model after them. -/
def answers (report : Report) (m : DataModel) : List (List UInt8) → List Reply × DataModel
  | [] => ([], m)
  | pdu :: rest =>
    let (reply, m) := m.answer pduAddressing report pdu
    let (replies, m) := m.answers report rest
    (reply :: replies, m)

end DataModel

end Modbus

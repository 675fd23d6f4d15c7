import Modbus.Device.Basic
import Modbus.Device.Plan
import Modbus.Limits

/-! Executing requests on the map of a device. A request is checked, then its writes are done on
the map, then it is forwarded if the device is a gateway, and then it is answered from the
map, into which a gateway has put what came back. -/

namespace Modbus

/-- Where a request goes besides the map. -/
inductive Route where
  /-- Nowhere: the map is all there is. -/
  | own
  /-- To a client that is no longer there. -/
  | broken
  | forward
deriving DecidableEq

/-- Cells that cannot be reached are an illegal data address to a client. -/
def RangeFault.toAnswer {α : Type} (r : Except RangeFault α) : Answer α :=
  r.mapError fun _ => .illegalDataAddress

def checkQuantity (quantity max : Nat) : Answer Unit :=
  if quantity = 0 ∨ max < quantity then .error .illegalDataValue else .ok ()

/-- Whether a device executes requests of this function and quantity. -/
def Request.check : Request → Answer Unit
  | readCoils _ quantity | readDiscreteInputs _ quantity => checkQuantity quantity.toNat maxReadBits
  | readInputRegisters _ quantity | readHoldingRegisters _ quantity =>
    checkQuantity quantity.toNat maxReadRegisters
  | writeMultipleCoils _ coils => checkQuantity coils.length maxWriteBits
  | writeMultipleRegisters _ words => checkQuantity words.length maxWriteRegisters
  | readWriteRegisters _ quantity _ words => do
    checkQuantity quantity.toNat maxReadRegisters
    checkQuantity words.length maxReadWriteRegisters
  | writeSingleCoil .. | writeSingleRegister .. | maskWriteRegister .. | reportId => .ok ()
  | custom .. => .error .illegalFunction

/-- The first `count` bits of a response that holds at least as many. -/
def Response.bits (r : Response) (count : Nat) : Answer (List Bool) :=
  match r with
  | readCoils bits | readDiscreteInputs bits =>
    if count ≤ bits.length then .ok (bits.take count) else .error .serverDeviceFailure
  | _ => .error .serverDeviceFailure

def Response.words (r : Response) (count : Nat) : Answer (List UInt16) :=
  match r with
  | readInputRegisters words | readHoldingRegisters words | readWriteRegisters words =>
    if words.length = count then .ok words else .error .serverDeviceFailure
  | _ => .error .serverDeviceFailure

/-- A word of which the bits outside of `andMask` are replaced by those of `orMask`. -/
def masked (value andMask orMask : UInt16) : UInt16 :=
  (value &&& andMask) ||| (orMask &&& ~~~andMask)

namespace Device

open RangeFault (toAnswer)

def mapAddress (d : Device) (address : UInt16) : Answer UInt16 :=
  if d.pduAddressing then .ok address
  else if address = 65535 then .error .illegalDataAddress
  else .ok (address + 1)

/-- The map after the writes of a request, which must be possible, as its reads must be. -/
def prepare (d : Device) (map : DataMap) : Request → Answer DataMap
  | .readCoils address quantity => do
    toAnswer (map.check .coil (← d.mapAddress address) quantity.toNat)
    return map
  | .readDiscreteInputs address quantity => do
    toAnswer (map.check .discreteInput (← d.mapAddress address) quantity.toNat)
    return map
  | .readInputRegisters address quantity => do
    toAnswer (map.check .inputRegister (← d.mapAddress address) quantity.toNat)
    return map
  | .readHoldingRegisters address quantity => do
    toAnswer (map.check .holdingRegister (← d.mapAddress address) quantity.toNat)
    return map
  | .writeSingleCoil address coil => do
    toAnswer (map.writeBits .coil (← d.mapAddress address) [coil])
  | .writeMultipleCoils address coils => do
    toAnswer (map.writeBits .coil (← d.mapAddress address) coils)
  | .writeSingleRegister address word => do
    toAnswer (map.writeRegisters .holdingRegister (← d.mapAddress address) [word])
  | .writeMultipleRegisters address words => do
    toAnswer (map.writeRegisters .holdingRegister (← d.mapAddress address) words)
  | .maskWriteRegister address andMask orMask => do
    let address ← d.mapAddress address
    let words ← toAnswer (map.readRegisters .holdingRegister address 1)
    toAnswer (map.writeRegisters .holdingRegister address (words.map (masked · andMask orMask)))
  | .readWriteRegisters readAddress quantity writeAddress words => do
    toAnswer (map.check .holdingRegister (← d.mapAddress readAddress) quantity.toNat)
    toAnswer (map.writeRegisters .holdingRegister (← d.mapAddress writeAddress) words)
  | .reportId | .custom .. => return map

/-- Puts the bits that a forwarded request was answered with into the map. -/
def updateBits (map : DataMap) (t : Table) (address : UInt16) (count : Nat) :
    Option Response → Answer DataMap
  | none => return map
  | some response => do toAnswer (map.writeBits t address (← response.bits count))

def updateRegisters (map : DataMap) (t : Table) (address : UInt16) (count : Nat) :
    Option Response → Answer DataMap
  | none => return map
  | some response => do toAnswer (map.writeRegisters t address (← response.words count))

/-- The bits of a table, brought up to date before they are read. -/
def finishBits (d : Device) (map : DataMap) (t : Table) (address quantity : UInt16)
    (forwarded : Option Response) : Answer (List Bool × DataMap) := do
  let address ← d.mapAddress address
  let map ← updateBits map t address quantity.toNat forwarded
  return (← toAnswer (map.readBits t address quantity.toNat), map)

def finishRegisters (d : Device) (map : DataMap) (t : Table) (address quantity : UInt16)
    (forwarded : Option Response) : Answer (List UInt16 × DataMap) := do
  let address ← d.mapAddress address
  let map ← updateRegisters map t address quantity.toNat forwarded
  return (← toAnswer (map.readRegisters t address quantity.toNat), map)

/-- The response to a request whose writes are done, and the map with what `forwarded`, the response
to it if it was forwarded, holds. -/
def finish (d : Device) (map : DataMap) (request : Request) (forwarded : Option Response) :
    Answer (Response × DataMap) :=
  match request with
  | .readCoils address quantity => do
    let (bits, map) ← d.finishBits map .coil address quantity forwarded
    return (.readCoils bits, map)
  | .readDiscreteInputs address quantity => do
    let (bits, map) ← d.finishBits map .discreteInput address quantity forwarded
    return (.readDiscreteInputs bits, map)
  | .readInputRegisters address quantity => do
    let (words, map) ← d.finishRegisters map .inputRegister address quantity forwarded
    return (.readInputRegisters words, map)
  | .readHoldingRegisters address quantity => do
    let (words, map) ← d.finishRegisters map .holdingRegister address quantity forwarded
    return (.readHoldingRegisters words, map)
  | .readWriteRegisters address quantity _ _ => do
    let (words, map) ← d.finishRegisters map .holdingRegister address quantity forwarded
    return (.readWriteRegisters words, map)
  | request =>
    match request.echo? with
    | some response => return (response, map)
    | none => throw .illegalDataValue

/-- What a request comes to on a map whose writes are done. A failure leaves that map. -/
def conclude (d : Device) (map : DataMap) (request : Request) (forwarded : Option Response) :
    Answer Response × DataMap :=
  match d.finish map request forwarded with
  | .ok (response, map) => (.ok response, map)
  | .error e => (.error e, map)

def execute (d : Device) (map : DataMap) (route : Route) (request : Request) :
    Plan (Answer Response × DataMap) :=
  match request.check with
  | .error e => .done (.error e, map)
  | .ok () =>
    if request = .reportId then .done (.ok (.reportId d.report), map)
    else if route = .broken then .done (.error .gatewayPathUnavailable, map)
    else
      match d.prepare map request with
      | .error e => .done (.error e, map)
      | .ok map =>
        if route = .forward then
          .ask [] request fun answer =>
            match answer with
            | .error e => (.error e, map)
            | .ok response => d.conclude map request (some response)
        else .done (d.conclude map request none)

end Device

end Modbus

import Modbus.Client.Basic
import Modbus.Limits
import Modbus.Number

/-! Access to the cells of units through any client: arguments are checked before anything is
asked, and what comes back is checked against them. -/

namespace Modbus

/-- A client as its users see it, with a state of type `σ`. -/
structure Access (σ : Type) where
  call : UnitId → Request → EStateM Error σ (Answer Response)
  /-- Callers give protocol addresses; otherwise theirs are greater by one. -/
  pduAddressing : Bool

namespace Access

def protocolAddress (pduAddressing : Bool) (address : UInt16) : Except Error UInt16 :=
  if pduAddressing then .ok address
  else if address = 0 then .error (.config (.address address))
  else .ok (address - 1)

def checkQuantity (function : FunctionCode) (quantity max : Nat) : Except Error Unit :=
  if 1 ≤ quantity ∧ quantity ≤ max then .ok ()
  else .error (.config (.quantity function quantity))

/-- The first `quantity` bits of those that came packed in bytes. -/
def checkBits (bits : List Bool) (quantity : Nat) : Except Error (List Bool) :=
  if bits.length = packedSize quantity * 8 then .ok (bits.take quantity)
  else .error (.ofFault (.bits quantity bits.length))

def checkWords (words : List UInt16) (quantity : Nat) : Except Error (List UInt16) :=
  if words.length = quantity then .ok words
  else .error (.ofFault (.registers quantity words.length))

/-- The answer to a write: the response must repeat the request. -/
def checkEcho (request : Request) (response : Response) : Except Error Unit :=
  match request.echo? with
  | some expected =>
    if expected = response then .ok ()
    else .error (.protocol (.echoMismatch expected response))
  | none => .ok ()

def bitsOf (request : Request) (response : Response) (quantity : Nat) :
    Except Error (List Bool) :=
  match response with
  | .readCoils bits | .readDiscreteInputs bits => checkBits bits quantity
  | _ => .error (.protocol (.functionMismatch request.function (.ok response)))

def wordsOf (request : Request) (response : Response) (quantity : Nat) :
    Except Error (List UInt16) :=
  match response with
  | .readInputRegisters words | .readHoldingRegisters words | .readWriteRegisters words =>
    checkWords words quantity
  | _ => .error (.protocol (.functionMismatch request.function (.ok response)))

variable {σ : Type}

/-- What needs no client. -/
def pureWork {α : Type} (r : Except Error α) : EStateM Error σ α :=
  match r with
  | .ok a => pure a
  | .error e => throw e

def ask {α : Type} (a : Access σ) (unit : UnitId) (request : Request)
    (value : Response → Except Error α) : EStateM Error σ (Answer α) := do
  match ← a.call unit request with
  | .error exception => return .error exception
  | .ok response => return .ok (← pureWork (value response))

/-- Reads `quantity` bits with the request that `request` makes of an address and a quantity. -/
def readBits (a : Access σ) (request : UInt16 → UInt16 → Request) (unit : UnitId)
    (address quantity : UInt16) : EStateM Error σ (Answer (List Bool)) := do
  pureWork (checkQuantity (request address quantity).function quantity.toNat maxReadBits)
  let address ← pureWork (protocolAddress a.pduAddressing address)
  let request := request address quantity
  a.ask unit request fun response => bitsOf request response quantity.toNat

/-- Reads `quantity` registers with the request that `request` makes of an address and a
quantity. -/
def readRegisters (a : Access σ) (request : UInt16 → UInt16 → Request) (unit : UnitId)
    (address quantity : UInt16) : EStateM Error σ (Answer (List UInt16)) := do
  pureWork (checkQuantity (request address quantity).function quantity.toNat maxReadRegisters)
  let address ← pureWork (protocolAddress a.pduAddressing address)
  let request := request address quantity
  a.ask unit request fun response => wordsOf request response quantity.toNat

def readCoils (a : Access σ) : UnitId → UInt16 → UInt16 → EStateM Error σ (Answer (List Bool)) :=
  a.readBits .readCoils

def readDiscreteInputs (a : Access σ) :
    UnitId → UInt16 → UInt16 → EStateM Error σ (Answer (List Bool)) :=
  a.readBits .readDiscreteInputs

def readInputRegisters (a : Access σ) :
    UnitId → UInt16 → UInt16 → EStateM Error σ (Answer (List UInt16)) :=
  a.readRegisters .readInputRegisters

def readHoldingRegisters (a : Access σ) :
    UnitId → UInt16 → UInt16 → EStateM Error σ (Answer (List UInt16)) :=
  a.readRegisters .readHoldingRegisters

def writeThenRead (a : Access σ) (unit : UnitId) (writeAddress : UInt16) (words : List UInt16)
    (readAddress quantity : UInt16) : EStateM Error σ (Answer (List UInt16)) := do
  pureWork (checkQuantity .readWriteRegisters words.length maxReadWriteRegisters)
  pureWork (checkQuantity .readWriteRegisters quantity.toNat maxReadRegisters)
  let writeAddress ← pureWork (protocolAddress a.pduAddressing writeAddress)
  let readAddress ← pureWork (protocolAddress a.pduAddressing readAddress)
  let request := .readWriteRegisters readAddress quantity writeAddress words
  a.ask unit request fun response => wordsOf request response quantity.toNat

/-- The bytes of the report of a unit about itself. -/
def reportId (a : Access σ) (unit : UnitId) : EStateM Error σ (Answer (List UInt8)) :=
  a.ask unit .reportId fun
    | .reportId report => .ok report.bytes
    | response => .error (.protocol (.functionMismatch .reportId (.ok response)))

def write (a : Access σ) (request : UInt16 → Request) (unit : UnitId) (address : UInt16) :
    EStateM Error σ (Answer Unit) := do
  let address ← pureWork (protocolAddress a.pduAddressing address)
  a.ask unit (request address) fun response => checkEcho (request address) response

def writeCoil (a : Access σ) (unit : UnitId) (address : UInt16) (coil : Bool) :
    EStateM Error σ (Answer Unit) :=
  a.write (.writeSingleCoil · coil) unit address

def writeRegister (a : Access σ) (unit : UnitId) (address word : UInt16) :
    EStateM Error σ (Answer Unit) :=
  a.write (.writeSingleRegister · word) unit address

def writeCoils (a : Access σ) (unit : UnitId) (address : UInt16) (coils : List Bool) :
    EStateM Error σ (Answer Unit) := do
  pureWork (checkQuantity .writeMultipleCoils coils.length maxWriteBits)
  a.write (.writeMultipleCoils · coils) unit address

def writeRegisters (a : Access σ) (unit : UnitId) (address : UInt16) (words : List UInt16) :
    EStateM Error σ (Answer Unit) := do
  pureWork (checkQuantity .writeMultipleRegisters words.length maxWriteRegisters)
  a.write (.writeMultipleRegisters · words) unit address

def maskRegister (a : Access σ) (unit : UnitId) (address andMask orMask : UInt16) :
    EStateM Error σ (Answer Unit) :=
  a.write (.maskWriteRegister · andMask orMask) unit address

/-! ### Numbers -/

/-- The registers of `count` numbers, if a request can ask for so many. The count of registers is
a machine word, and more than it can count are as many as it can. -/
def arrayQuantity (function : FunctionCode) (t : NumberType) (count : Nat) :
    Except Error UInt16 :=
  let quantity := min (count * t.registers) (UInt64.size - 1)
  match quantity? quantity with
  | some q => .ok q
  | none => .error (.config (.quantity function quantity))

def numberOf {t : NumberType} (o : ByteOrder) (words : List UInt16) : Except Error (Number t) :=
  match Number.ofRegisters? o words with
  | some x => .ok x
  | none => .error (.ofFault (.value words.length))

abbrev RegisterReader (σ : Type) :=
  UnitId → UInt16 → UInt16 → EStateM Error σ (Answer (List UInt16))

/-- Reads a number with `read`, a reader of registers of the function `function`. -/
def readNumber (read : RegisterReader σ) (function : FunctionCode) (t : NumberType)
    (unit : UnitId) (address : UInt16) (o : ByteOrder) :
    EStateM Error σ (Answer (Number t)) := do
  let quantity ← pureWork (arrayQuantity function t 1)
  match ← read unit address quantity with
  | .error exception => return .error exception
  | .ok words => return .ok (← pureWork (numberOf o words))

/-- Reads `count` numbers with `read`, a reader of registers of the function `function`. -/
def readArray (read : RegisterReader σ) (function : FunctionCode) (t : NumberType)
    (unit : UnitId) (address : UInt16) (count : Nat) (o : ByteOrder) :
    EStateM Error σ (Answer (List (Number t))) := do
  let quantity ← pureWork (arrayQuantity function t count)
  return (← read unit address quantity).map (Number.arrayOfRegisters o)

def readInputNumber (a : Access σ) (t : NumberType) :
    UnitId → UInt16 → ByteOrder → EStateM Error σ (Answer (Number t)) :=
  readNumber a.readInputRegisters .readInputRegisters t

def readHoldingNumber (a : Access σ) (t : NumberType) :
    UnitId → UInt16 → ByteOrder → EStateM Error σ (Answer (Number t)) :=
  readNumber a.readHoldingRegisters .readHoldingRegisters t

def readInputArray (a : Access σ) (t : NumberType) :
    UnitId → UInt16 → Nat → ByteOrder → EStateM Error σ (Answer (List (Number t))) :=
  readArray a.readInputRegisters .readInputRegisters t

def readHoldingArray (a : Access σ) (t : NumberType) :
    UnitId → UInt16 → Nat → ByteOrder → EStateM Error σ (Answer (List (Number t))) :=
  readArray a.readHoldingRegisters .readHoldingRegisters t

def writeArray (a : Access σ) {t : NumberType} (unit : UnitId) (address : UInt16)
    (xs : List (Number t)) (o : ByteOrder) : EStateM Error σ (Answer Unit) :=
  a.writeRegisters unit address (Number.arrayRegisters o xs)

def writeNumber (a : Access σ) {t : NumberType} (unit : UnitId) (address : UInt16)
    (x : Number t) (o : ByteOrder) : EStateM Error σ (Answer Unit) :=
  a.writeArray unit address [x] o

end Access

def Client.access (c : Client) : Access Client := ⟨Client.call, c.pduAddressing⟩

end Modbus

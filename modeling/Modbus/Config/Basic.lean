import Modbus.Config.Document
import Modbus.Device.Basic
import Modbus.Link.Settings
import Modbus.Link.Transport

/-! Configurations: links, the devices behind them and their blocks, and how they are read from a
document and written to one. What a document does not say has a standard value, and what it says
besides is ignored. -/

namespace Modbus

structure LinkConfig where
  mode : Framing
  connection : String
  settings : String
  recovery : Bool
  debug : Bool
  responseTimeout : Nat
  byteTimeout : Nat
  transmitter : Line.Transmitter
deriving DecidableEq

def LinkConfig.standard : LinkConfig :=
  ⟨.tcp, "127.0.0.1", "", false, false, 500, 500, .idle⟩

structure BlockConfig where
  table : Table
  start : UInt16
  quantity : UInt16
deriving DecidableEq

structure DeviceConfig where
  id : UnitId
  pduAddressing : Bool
  blocks : List BlockConfig
deriving DecidableEq

/-- A client, by its name, and the devices that forward to it. -/
structure ClientConfig where
  name : String
  link : LinkConfig
  devices : List DeviceConfig
deriving DecidableEq

structure Config where
  link : LinkConfig
  devices : List DeviceConfig
  clients : List ClientConfig
deriving DecidableEq

def Config.standard : Config := ⟨.standard, [], []⟩

/-! ### Names -/

namespace Config

def modeName : Framing → String
  | .rtu => "rtu"
  | .tcp => "tcp"

def modeOfName? (s : String) : Option Framing := [.rtu, .tcp].find? (modeName · == s)

def standardName : Line.Standard → String
  | .rs232 => "rs232"
  | .rs485 => "rs485"

def standardOfName? (s : String) : Option Line.Standard :=
  [.rs232, .rs485].find? (standardName · == s)

def rtsName : Line.RequestToSend → String
  | .none => "none"
  | .up => "up"
  | .down => "down"

def rtsOfName? (s : String) : Option Line.RequestToSend :=
  [.none, .up, .down].find? (rtsName · == s)

end Config

/-! ### Reading -/

open Document Config

/-- A transmitter, where a name may stand over what counts as `nothing`. -/
def Line.Transmitter.read? (nothing : Document → Bool) (d : Document) :
    Option Line.Transmitter := do
  match ← d.fields? ["mode", "rts", "rts_delay_us"] with
  | [mode, rts, delay] =>
    return ⟨← orElse (fun d => d.name? nothing >>= standardOfName?) .rs232 mode,
      ← orElse (fun d => d.name? nothing >>= rtsOfName?) .none rts,
      UInt32.ofNat (← orElse (natBelow? UInt32.size) 0 delay)⟩
  | _ => none

/-- A transmitter from a document of its own. -/
def Line.Transmitter.ofDocument? : Document → Option Line.Transmitter :=
  Line.Transmitter.read? isNull

/-- A link from the fields of the record that it stands in. As that record also holds other fields,
a name may stand over an empty record here. -/
def LinkConfig.ofFields? (fields : List (String × Document)) : Option LinkConfig := do
  let standard := LinkConfig.standard
  return {
    mode := ← orElse (fun d => d.name? isVoid >>= modeOfName?) standard.mode (field? "mode" fields)
    connection := ← orElse text? standard.connection (field? "connection" fields)
    settings := ← orElse text? standard.settings (field? "settings" fields)
    recovery := ← orElse bool? standard.recovery (field? "recovery_link" fields)
    debug := ← orElse bool? standard.debug (field? "debug" fields)
    responseTimeout := ← orElse (natBelow? UInt64.size) standard.responseTimeout
      (field? "response_timeout_ms" fields)
    byteTimeout := ← orElse (natBelow? UInt64.size) standard.byteTimeout
      (field? "byte_timeout_ms" fields)
    transmitter := ← orElse (Line.Transmitter.read? isVoid) standard.transmitter
      (field? "rtu" fields) }

def BlockConfig.ofDocument? (d : Document) : Option BlockConfig := do
  match ← d.fields? ["table", "starting_address", "quantity"] with
  | [some table, some start, some quantity] =>
    return ⟨← table.name? isNull >>= Table.ofText?, UInt16.ofNat (← start.natBelow? UInt16.size),
      UInt16.ofNat (← quantity.natBelow? UInt16.size)⟩
  | _ => none

def DeviceConfig.ofDocument? (d : Document) : Option DeviceConfig := do
  match ← d.fields? ["id", "pdu_addressing", "blocks"] with
  | [some id, pduAddressing, blocks] =>
    return ⟨⟨UInt8.ofNat (← id.natBelow? UInt8.size)⟩, ← orElse bool? false pduAddressing,
      ← (← orElse list? [] blocks).mapM BlockConfig.ofDocument?⟩
  | _ => none

def ClientConfig.ofDocument? : Document → Option ClientConfig
  | .record fields => do
    return {
      name := ← (← field? "name" fields).text?
      link := ← LinkConfig.ofFields? fields
      devices := ← (← orElse list? [] (field? "slaves" fields)).mapM DeviceConfig.ofDocument? }
  | _ => none

def Config.ofDocument? : Document → Option Config
  | .record fields => do
    return {
      link := ← LinkConfig.ofFields? fields
      devices := ← (← orElse list? [] (field? "slaves" fields)).mapM DeviceConfig.ofDocument?
      clients := ← (← orElse list? [] (field? "masters" fields)).mapM ClientConfig.ofDocument? }
  | _ => none

/-! ### Writing -/

def Line.Transmitter.document (t : Line.Transmitter) : Document :=
  .record [("mode", .text (standardName t.standard)), ("rts", .text (rtsName t.rts)),
    ("rts_delay_us", .integer t.delay.toNat)]

def LinkConfig.fields (c : LinkConfig) : List (String × Document) :=
  [("mode", .text (modeName c.mode)), ("connection", .text c.connection),
    ("settings", .text c.settings), ("recovery_link", .bool c.recovery), ("debug", .bool c.debug),
    ("response_timeout_ms", .integer c.responseTimeout),
    ("byte_timeout_ms", .integer c.byteTimeout), ("rtu", c.transmitter.document)]

def BlockConfig.document (c : BlockConfig) : Document :=
  .record [("table", .text c.table.text), ("starting_address", .integer c.start.toNat),
    ("quantity", .integer c.quantity.toNat)]

def DeviceConfig.document (c : DeviceConfig) : Document :=
  .record [("id", .integer c.id.value.toNat), ("pdu_addressing", .bool c.pduAddressing),
    ("blocks", .list (c.blocks.map BlockConfig.document))]

def ClientConfig.document (c : ClientConfig) : Document :=
  .record (("name", .text c.name) :: c.link.fields ++
    [("slaves", .list (c.devices.map DeviceConfig.document))])

def Config.document (c : Config) : Document :=
  .record (c.link.fields ++ [("slaves", .list (c.devices.map DeviceConfig.document)),
    ("masters", .list (c.clients.map ClientConfig.document))])

end Modbus

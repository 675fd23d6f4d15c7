import Modbus.Client.Basic
import Modbus.Config.Basic

/-! Building what a configuration describes. -/

namespace Modbus

namespace Net

def Endpoint.ofConnection (connection settings : String) : Except ConfigError Endpoint :=
  match ofConnection? connection settings with
  | some e => .ok e
  | none => .error (.connection (.port connection settings))

/-- The socket address to listen at that a connection text names. -/
def SocketAddress.ofConnection (connection settings : String) :
    Except ConfigError SocketAddress := do
  let e ← Endpoint.ofConnection connection settings
  match e.listenAddress? with
  | some a => return a
  | none => throw (.connection (.listenHost e.host))

end Net

def Line.Settings.parse (text : String) : Except ConfigError Line.Settings :=
  (Line.Settings.ofText text).mapError (.serialSettings text)

namespace LinkConfig

def linkSettings (c : LinkConfig) : LinkSettings :=
  ⟨c.responseTimeout, c.byteTimeout, c.recovery, c.debug⟩

def expectMode (c : LinkConfig) (wanted : Framing) : Except ConfigError Unit :=
  if c.mode = wanted then .ok () else .error (.unsupported (.link wanted c.mode))

/-- The settings of the serial line; a blank text stands for the standard ones. -/
def serialSettings (c : LinkConfig) : Except ConfigError Line.Settings :=
  if (Text.trim c.settings.toList).isEmpty then .ok .standard else Line.Settings.parse c.settings

def endpoint (c : LinkConfig) : Except ConfigError Net.Endpoint := do
  c.expectMode .tcp
  Net.Endpoint.ofConnection c.connection c.settings

def listenAddress (c : LinkConfig) : Except ConfigError Net.SocketAddress := do
  c.expectMode .tcp
  Net.SocketAddress.ofConnection c.connection c.settings

def serialPort (c : LinkConfig) : Except ConfigError SerialPort := do
  c.expectMode .rtu
  return ⟨c.connection, ← c.serialSettings, c.transmitter⟩

def transportKind (c : LinkConfig) : Except ConfigError TransportKind :=
  match c.mode with
  | .tcp => TransportKind.endpoint <$> c.endpoint
  | .rtu => TransportKind.serial <$> c.serialPort

def client (c : LinkConfig) (name : String) : Except ConfigError Client := do
  return .ofTransport ⟨← c.transportKind, .quiet name⟩ c.linkSettings false

end LinkConfig

/-- The device that is described, with its blocks declared one after the other. -/
def DeviceConfig.build (c : DeviceConfig) : Except ConfigError Device :=
  if c.id.isRegistrable then
    .ok (c.blocks.foldl (fun d b => d.declare b.table b.quantity.toNat b.start)
      { Device.ofId c.id with pduAddressing := c.pduAddressing })
  else .error (.invalidUnit c.id)

end Modbus

import Modbus.Text.Duration
import Modbus.Text.Hex

/-! Settings of a link. -/

namespace Modbus

/-- How long a link waits, in milliseconds, and what it does when it fails. -/
structure LinkSettings where
  /-- The time that an answer may take, and the pause before a failed link is set up again. -/
  responseTimeout : Nat
  /-- The time between two reads of one frame. -/
  byteTimeout : Nat
  /-- Whether a failed link is given up and set up again. -/
  recovery : Bool
  debug : Bool
deriving DecidableEq

namespace LinkSettings

def standard : LinkSettings := ⟨500, 500, false, false⟩

def render (s : LinkSettings) : String :=
  Text.record "LinkSettings"
    [⟨"response_timeout", Text.duration s.responseTimeout⟩,
      ⟨"byte_timeout", Text.duration s.byteTimeout⟩, ⟨"recovery_link", toString s.recovery⟩,
      ⟨"debug", toString s.debug⟩] true

end LinkSettings

end Modbus

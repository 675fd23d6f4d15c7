import Modbus.Frame.Mbap
import Modbus.Frame.Rtu

/-! Splitting a stream of bytes into the frames of one side. -/

namespace Modbus

/-- Which frames are expected: servers receive requests and clients responses. -/
structure FrameCodec where
  framing : Framing
  role : Role
deriving DecidableEq

namespace FrameCodec

def client (framing : Framing) : FrameCodec := ⟨framing, .response⟩

def server (framing : Framing) : FrameCodec := ⟨framing, .request⟩

/-- Looks for a frame at the front of the bytes received so far. -/
def split (codec : FrameCodec) (buffer : List UInt8) : Split :=
  match codec.framing with
  | .rtu => Rtu.split codec.role buffer
  | .tcp => Mbap.split codec.role buffer

def encode (message : Message) : List UInt8 := message.prepared.adu

def render (codec : FrameCodec) : String :=
  Text.record "FrameCodec"
    [⟨"framing", codec.framing.render⟩, ⟨"role", codec.role.render⟩] true

end FrameCodec

end Modbus

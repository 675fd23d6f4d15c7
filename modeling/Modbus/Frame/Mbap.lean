import Modbus.Frame.Split

/-! Frames on a TCP stream, behind a header that counts the bytes that follow it. -/

namespace Modbus.Mbap

/-- Looks for a frame at the front of `buffer`. After a header that makes no sense nothing says
where the next frame begins, so nothing is left of the buffer. -/
def split (role : Role) (buffer : List UInt8) : Split :=
  match buffer with
  | t1 :: t0 :: p1 :: p0 :: l1 :: l0 :: unit :: body =>
    let protocol := wordOfBytes p1 p0
    let length := (wordOfBytes l1 l0).toNat
    if protocol ≠ 0 then .invalid (.protocolId protocol)
    else if length < 2 ∨ Framing.tcp.maxFrameSize - 6 < length then .invalid (.mbapLength length)
    else if body.length < length - 1 then .incomplete
    else
      .frame ⟨.tcp (wordOfBytes t1 t0) ⟨unit⟩, role, body.take (length - 1)⟩
        (body.drop (length - 1))
  | _ => .incomplete

end Modbus.Mbap

import Modbus.Link.Basic

/-! Receiving a frame: bytes are read until they make one up, or until none arrive in time. -/

namespace Modbus

/-- What came of waiting for a frame: the frame or the error, the bytes that are left of those
read, what is still to arrive after the time `now`, and the deadlines that have been set. -/
structure Received where
  result : Except Error Message
  buffer : List UInt8
  now : Nat
  arrivals : List Arrival
  deadlines : List Nat

/-- The same after a deadline that has been set before. -/
def Received.setting (r : Received) (deadline : Nat) : Received :=
  { r with deadlines := deadline :: r.deadlines }

namespace Received

section

variable (r : Received) (deadline : Nat)

@[simp] theorem setting_result : (r.setting deadline).result = r.result := rfl

@[simp] theorem setting_buffer : (r.setting deadline).buffer = r.buffer := rfl

@[simp] theorem setting_now : (r.setting deadline).now = r.now := rfl

@[simp] theorem setting_arrivals : (r.setting deadline).arrivals = r.arrivals := rfl

@[simp] theorem setting_deadlines :
    (r.setting deadline).deadlines = deadline :: r.deadlines := rfl

end

/-- Waits for the rest of the frame that `buffer` begins. Bytes that arrive at `deadline` are
still in time, and after them the next ones have `byteTimeout` milliseconds. -/
def await (codec : FrameCodec) (byteTimeout deadline : Nat) (buffer : List UInt8)
    (now : Nat) : List Arrival → Received
  | [] => ⟨.error .timeout, [], max now deadline, [], []⟩
  | .pause ms :: rest =>
    if now + ms ≤ deadline then await codec byteTimeout deadline buffer (now + ms) rest
    else ⟨.error .timeout, [], max now deadline, .until (now + ms) :: rest, []⟩
  | .until t :: rest =>
    if t ≤ max now deadline then await codec byteTimeout deadline buffer (max now t) rest
    else ⟨.error .timeout, [], max now deadline, .until t :: rest, []⟩
  | .failure kind :: rest => ⟨.error (.transport (.scripted kind)), buffer, now, rest, []⟩
  | .bytes [] :: rest => ⟨.error (.transport .closedByPeer), buffer, now, rest, []⟩
  | .bytes (b :: bs) :: rest =>
    match (codec.split (buffer ++ b :: bs)).outcome? with
    | some (result, left) => ⟨result, left, now, rest, []⟩
    | none =>
      (await codec byteTimeout (now + byteTimeout) (buffer ++ b :: bs) now rest).setting
        (now + byteTimeout)

/-- Looks for a frame in the bytes that are left of earlier reads, and waits for one if there is
none. The first bytes of it may take `timeout` milliseconds; the deadline for them is set first,
also if it is not waited for. -/
def start (codec : FrameCodec) (timeout byteTimeout : Nat) (buffer : List UInt8)
    (now : Nat) (arrivals : List Arrival) : Received :=
  match (codec.split buffer).outcome? with
  | some (result, left) => ⟨result, left, now, arrivals, [now + timeout]⟩
  | none =>
    let deadline := now + if buffer.isEmpty then timeout else byteTimeout
    ((await codec byteTimeout deadline buffer now arrivals).setting deadline).setting
      (now + timeout)

end Received

namespace Link

def receive (timeout byteTimeout : Nat) : LinkM Message := fun l =>
  match l.channel with
  | none => .error (.transport .disconnected) l
  | some c =>
    let wire := l.transport.wire
    let r := Received.start c.codec timeout byteTimeout c.buffer l.journal.now wire.arrivals
    let l := l.withWire { wire with arrivals := r.arrivals }
    let l := { l with
      channel := some { c with buffer := r.buffer },
      journal := { l.journal with now := r.now }.set r.deadlines }
    match r.result with
    | .ok message => .ok message l
    | .error e => .error e l

end Link

end Modbus

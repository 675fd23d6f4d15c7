import Modbus.Proofs.Frame.Delimits
import Modbus.Proofs.Link.Faultless

/-! Bytes that are delivered in time. However they are divided into reads, and however the reads
are spread over the time that a receiver waits, the frame that they are is received. -/

namespace Modbus

/-- How long it takes until everything has arrived. -/
def Arrival.delay : List Arrival → Nat
  | [] => 0
  | .pause ms :: rest => ms + delay rest
  | _ :: rest => delay rest

/-- The arrivals bring `bytes` in time and nothing else: the first of them come within `within`
milliseconds, and more within `byteTimeout` of those before. -/
inductive Brings (byteTimeout : Nat) : Nat → List UInt8 → List Arrival → Prop where
  | last {within : Nat} (b : UInt8) (bs : List UInt8) :
    Brings byteTimeout within (b :: bs) [.bytes (b :: bs)]
  | more {within : Nat} (b : UInt8) (bs : List UInt8) {bytes : List UInt8} {later : List Arrival} :
    Brings byteTimeout byteTimeout bytes later →
      Brings byteTimeout within (b :: bs ++ bytes) (.bytes (b :: bs) :: later)
  | pause {within ms : Nat} {bytes : List UInt8} {later : List Arrival} :
    ms ≤ within → Brings byteTimeout (within - ms) bytes later →
      Brings byteTimeout within bytes (.pause ms :: later)

variable {byteTimeout within : Nat} {bytes : List UInt8} {arrivals : List Arrival}

theorem Brings.bytes_ne_nil (h : Brings byteTimeout within bytes arrivals) : bytes ≠ [] := by
  induction h with
  | last b bs => exact List.cons_ne_nil b bs
  | more b bs h ih => exact List.cons_ne_nil b _
  | pause hms h ih => exact ih

theorem Brings.arrivals_ne_nil (h : Brings byteTimeout within bytes arrivals) : arrivals ≠ [] := by
  cases h <;> exact List.cons_ne_nil _ _

/-- A direct pipe is always in time. -/
theorem Brings.direct (h : bytes ≠ []) : Brings byteTimeout within bytes [.bytes bytes] := by
  obtain ⟨b, bs, rfl⟩ := List.exists_cons_of_ne_nil h
  exact .last b bs

namespace Received

variable {codec : FrameCodec} {message : Message}

/-- A frame of which a part is in the buffer is received when the rest of it is delivered, at the
time at which the last byte of it arrives. -/
theorem await_of_brings (h : Brings byteTimeout within bytes arrivals) {buffer : List UInt8}
    {deadline now : Nat} (hframe : codec.Delimits (buffer ++ bytes) message)
    (hdeadline : now + within ≤ deadline) :
    ∃ deadlines, await codec byteTimeout deadline buffer now arrivals =
      ⟨.ok message, [], now + Arrival.delay arrivals, [], deadlines⟩ := by
  induction h generalizing buffer deadline now with
  | last b bs =>
    have hsplit := hframe.whole []
    rw [List.append_nil] at hsplit
    exact ⟨[], by simp only [await, hsplit, Split.outcome?, Arrival.delay, Nat.add_zero]⟩
  | more b bs hlater ih =>
    rename_i within bytes later
    rw [← List.append_assoc] at hframe
    have hne : buffer ++ b :: bs ≠ buffer ++ b :: bs ++ bytes := fun heq =>
      hlater.bytes_ne_nil (List.self_eq_append_right.mp heq)
    have hsplit := hframe.part (buffer ++ b :: bs) (List.prefix_append _ _) hne
    obtain ⟨deadlines, hawait⟩ := ih hframe (Nat.le_refl (now + byteTimeout))
    exact ⟨(now + byteTimeout) :: deadlines,
      by simp only [await, hsplit, Split.outcome?, hawait, setting, Arrival.delay]⟩
  | pause hms hlater ih =>
    rename_i within ms bytes later
    obtain ⟨deadlines, hawait⟩ := ih hframe (show now + ms + (within - ms) ≤ deadline by omega)
    refine ⟨deadlines, ?_⟩
    simp only [await, if_pos (show now + ms ≤ deadline by omega), hawait, Arrival.delay,
      Nat.add_assoc]

/-- A frame of which nothing has been read yet is received when it is delivered. -/
theorem start_of_brings (h : Brings byteTimeout within bytes arrivals) (now : Nat)
    (hframe : codec.Delimits bytes message) :
    ∃ deadlines, start codec within byteTimeout [] now arrivals =
      ⟨.ok message, [], now + Arrival.delay arrivals, [], deadlines⟩ := by
  have hsplit := hframe.part [] (List.nil_prefix) hframe.ne_nil.symm
  have hframe' : codec.Delimits ([] ++ bytes) message := hframe
  obtain ⟨deadlines, hawait⟩ := await_of_brings h hframe' (Nat.le_refl (now + within))
  exact ⟨(now + within) :: (now + within) :: deadlines,
    by simp only [start, hsplit, Split.outcome?, List.isEmpty_nil, if_true, hawait, setting]⟩

end Received

namespace Link

/-- A stream is connected on which nothing fails, and nothing of it is left in the buffer. -/
structure Joined (role : Role) (l : Link) : Prop where
  faultless : l.Faultless
  channel : ∃ peer debug, l.channel = some ⟨⟨l.framing, role⟩, [], peer, debug⟩

theorem Joined.of_sends {role : Role} {l l' : Link} {groups : List (List UInt8)}
    (h : l.Joined role) (hsends : Sends groups l l') (hchannel : l'.channel = l.channel) :
    l'.Joined role := by
  obtain ⟨peer, debug, hl⟩ := h.channel
  exact ⟨hsends.faultless h.faultless, peer, debug, by rw [hchannel, hl, hsends.framing]⟩

/-- A frame that is delivered in time is received. -/
theorem receive_of_brings {role : Role} {l : Link} {message : Message} (hl : l.Joined role)
    (h : Brings byteTimeout within bytes l.transport.wire.arrivals)
    (hframe : FrameCodec.Delimits ⟨l.framing, role⟩ bytes message) :
    ∃ l', receive within byteTimeout l = .ok message l' ∧ l'.Joined role ∧
      l'.channel = l.channel ∧ l'.transport.wire.arrivals = [] ∧ Sends [] l l' := by
  obtain ⟨peer, debug, hchannel⟩ := hl.channel
  obtain ⟨deadlines, hstart⟩ := Received.start_of_brings h l.journal.now hframe
  let now := l.journal.now + Arrival.delay l.transport.wire.arrivals
  refine ⟨{ l with
    transport := { l.transport with wire := { l.transport.wire with arrivals := [] } },
    journal := { l.journal with now }.set deadlines }, ?_, ?_, rfl, rfl, rfl, rfl, [], ?_, rfl⟩
  · simp only [receive, hchannel, hstart]
    rw [← hchannel]
    rfl
  · exact ⟨hl.faultless, peer, debug, hchannel⟩
  · exact (List.append_nil _).symm

end Link

end Modbus

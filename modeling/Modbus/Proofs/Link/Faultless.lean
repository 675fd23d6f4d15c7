import Modbus.Pair
import Modbus.Proofs.Link.Work

/-! Links on which nothing fails. Each step of such a link succeeds, and what matters of it later is
which bytes it has sent: `Sends` says that a link comes from another one by steps that have sent
these bytes and left its framing and the fate of its actions alone. -/

namespace Modbus

open Pair (sentBytes)

namespace Pair

theorem sentBytes_append (es es' : List Entry) :
    sentBytes (es ++ es') = sentBytes es ++ sentBytes es' := by
  induction es with
  | nil => rfl
  | cons e es ih => cases e <;> simp only [List.cons_append, sentBytes, ih]

end Pair

namespace Link

/-- No action on the link fails. -/
def Faultless (l : Link) : Prop := ∀ a, l.transport.wire.faults a = []

/-- The link `l'` comes from `l` by steps that have sent `groups` of bytes. -/
structure Sends (groups : List (List UInt8)) (l l' : Link) : Prop where
  framing : l'.framing = l.framing
  faults : l'.transport.wire.faults = l.transport.wire.faults
  record : ∃ added, l'.journal.entries = l.journal.entries ++ added ∧ sentBytes added = groups

variable {l l' l'' : Link}

theorem Sends.refl (l : Link) : Sends [] l l := ⟨rfl, rfl, [], by simp, rfl⟩

theorem Sends.trans {groups groups' : List (List UInt8)} (h : Sends groups l l')
    (h' : Sends groups' l' l'') : Sends (groups ++ groups') l l'' := by
  obtain ⟨added, hadded, hgroups⟩ := h.record
  obtain ⟨added', hadded', hgroups'⟩ := h'.record
  refine ⟨h'.framing.trans h.framing, h'.faults.trans h.faults, added ++ added', ?_, ?_⟩
  · rw [hadded', hadded, List.append_assoc]
  · rw [Pair.sentBytes_append, hgroups, hgroups']

theorem Sends.faultless {groups : List (List UInt8)} (h : Sends groups l l') (hl : l.Faultless) :
    l'.Faultless := fun a => by
  rw [h.faults, hl a]

/-- What was sent is found in the part of the record that was added. -/
theorem Sends.since {groups : List (List UInt8)} (h : Sends groups l l') :
    sentBytes (Pair.since l'.journal l.journal.entries.length) = groups := by
  obtain ⟨added, hadded, hgroups⟩ := h.record
  rw [Pair.since, hadded, List.drop_left, hgroups]

/-! ### Actions -/

variable (hl : l.Faultless)
include hl

theorem attempt_of_faultless (a : Action) : attempt a l = .ok () l := by
  have hattempt : l.transport.wire.attempt a = (none, l.transport.wire) := by
    rw [Wire.attempt, hl a]
  rw [attempt, hattempt]
  rfl

theorem perform_of_faultless (a : Action) :
    ∃ l', perform a l = .ok () l' ∧ l'.transport = l.transport ∧ l'.channel = l.channel ∧
      Sends [] l l' := by
  by_cases hdoes : l.transport.kind.does a = true
  · refine ⟨l.record (.did l.transport.wire.name a), ?_, rfl, rfl, ?_⟩
    · have hl' : (l.record (.did l.transport.wire.name a)).Faultless := hl
      rw [perform, run_get_bind, if_pos hdoes, run_set_bind]
      exact attempt_of_faultless hl' a
    · exact ⟨rfl, rfl, [.did l.transport.wire.name a], rfl, rfl⟩
  · refine ⟨l, ?_, rfl, rfl, .refl l⟩
    rw [perform, run_get_bind, if_neg hdoes]
    rfl

theorem write_of_faultless (bytes : List UInt8) :
    write bytes l = .ok () (l.record (.sent l.transport.wire.name bytes)) := by
  rw [write, run_bind (run_outcome (attempt_of_faultless hl .writing))]
  rfl

/-- Sending a message sends the bytes of its frame. -/
theorem send_of_faultless (message : Message) :
    ∃ l', send message l = .ok () l' ∧ l'.transport = l.transport ∧ l'.channel = l.channel ∧
      Sends [FrameCodec.encode message] l l' := by
  obtain ⟨l₁, hbegin, htransport₁, hchannel₁, hsends₁⟩ := perform_of_faultless hl .beginning
  have hl₁ := hsends₁.faultless hl
  have hwrite := write_of_faultless hl₁ (FrameCodec.encode message)
  have hsends₂ : Sends [FrameCodec.encode message] l₁
      (l₁.record (.sent l₁.transport.wire.name (FrameCodec.encode message))) :=
    ⟨rfl, rfl, [.sent l₁.transport.wire.name (FrameCodec.encode message)], rfl, rfl⟩
  have hl₂ := hsends₂.faultless hl₁
  have hflush := attempt_of_faultless hl₂ .flushing
  obtain ⟨l₃, hend, htransport₃, hchannel₃, hsends₃⟩ := perform_of_faultless hl₂ .ending
  refine ⟨{ l₃ with journal := l₃.journal.sleep l₃.transport.kind.silence }, ?_,
    htransport₃.trans htransport₁, hchannel₃.trans hchannel₁, ?_⟩
  · rw [send, run_bind hbegin, run_bind hwrite, run_bind hflush, run_bind hend]
    rfl
  · have hsends : Sends [FrameCodec.encode message] l l₃ := (hsends₁.trans hsends₂).trans hsends₃
    exact ⟨hsends.framing, hsends.faults, hsends.record⟩

/-! ### Connecting -/

omit hl in
/-- A stream can be connected: one is attached, or a peer comes. -/
def CanConnect (l : Link) : Prop :=
  match l.transport.kind with
  | .attached _ present => present = true
  | kind => ∃ peer, l.transport.wire.meetings.headD kind.defaultMeeting = .peer peer

theorem meet_of_faultless {peer : Peer} (deadline : Option Nat)
    (h : l.transport.wire.meetings.headD l.transport.kind.defaultMeeting = .peer peer) :
    ∃ l', meet deadline l = .ok (some peer) l' ∧
      l'.transport.wire.arrivals = l.transport.wire.arrivals ∧ Sends [] l l' := by
  obtain ⟨l₁, hconnect, htransport, -, hsends⟩ := perform_of_faultless hl .connecting
  refine ⟨l₁.withWire { l₁.transport.wire with meetings := l₁.transport.wire.meetings.tail }, ?_,
    congrArg (·.wire.arrivals) htransport, hsends.framing, hsends.faults, hsends.record⟩
  rw [meet, run_bind hconnect, run_get_bind, run_set_bind]
  simp only [htransport, h]
  rfl

/-- A stream that can be connected is, with nothing in its buffer. -/
theorem connect_of_canConnect (hc : l.CanConnect) (role : Role) (debug : Bool)
    (deadline : Option Nat) :
    ∃ peer l', connect role debug deadline l = .ok true l' ∧
      l'.channel = some ⟨⟨l.framing, role⟩, [], peer, debug⟩ ∧
      l'.transport.wire.arrivals = l.transport.wire.arrivals ∧ Sends [] l l' := by
  obtain ⟨⟨kind, wire⟩, channel, journal⟩ := l
  cases kind with
  | attached framing present =>
    obtain rfl : present = true := hc
    exact ⟨.inProcess, _, rfl, rfl, rfl, rfl, rfl, [], by simp, rfl⟩
  | hooked | endpoint | serial =>
    obtain ⟨peer, hpeer⟩ := hc
    obtain ⟨l₁, hmeet, harrivals, hsends⟩ := meet_of_faultless hl deadline hpeer
    refine ⟨peer, { l₁ with channel := some ⟨⟨l₁.framing, role⟩, [], peer, debug⟩ }, ?_, ?_,
      harrivals, hsends.framing, hsends.faults, hsends.record⟩
    · rw [connect, run_get_bind]
      dsimp only
      rw [run_bind hmeet]
      rfl
    · rw [hsends.framing]

end Link

end Modbus

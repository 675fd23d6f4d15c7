import Modbus.Proofs.Frame.Replies
import Modbus.Proofs.Server.Deadlines
import Modbus.Proofs.Server.Failures

/-! Requests do not stop a server. Whatever bytes arrive, and however its clients answer, a poll
fails only with the transport, and what it writes is at most one reply to the request that it has
taken. The clock stops a poll if it cannot tell one of its deadlines, and does not matter
otherwise. -/

namespace Modbus

/-! ### Replies -/

/-- The frame answers a request: it is no longer than frames may be, it has the header of the request
and it is read as a reply about the same function. -/
structure Message.AnsweredBy (request : Message) (frame : List UInt8) : Prop where
  fits : frame.length ≤ request.framing.maxFrameSize
  read : ∃ message reply, Message.parse request.framing .response frame = .ok message ∧
    message.header = request.header ∧ message.response = .ok reply ∧
    reply.function.code = request.functionCode

theorem Message.answeredBy_encode {request : Message} {reply : Reply} (hsize : reply.size ≤ 253)
    (hfunction : reply.function = .ofCode request.functionCode)
    (hcode : request.functionCode < 0x80) :
    request.AnsweredBy (FrameCodec.encode (request.answered reply)) := by
  have hsame : reply.function.code = request.functionCode := by
    rw [hfunction, FunctionCode.code_ofCode]
  have hlow : reply.function.code < 0x80 := by
    rw [hsame]
    exact hcode
  have hframe : FrameCodec.encode (request.answered reply) =
      (request.header.frame .response reply.pdu).adu := Header.encode_frame
  obtain ⟨read, hread, hreadCode⟩ := Reply.exists_ofPdu hsize hlow
  rw [hframe]
  exact ⟨Reply.length_frame hsize, _, read, Reply.parse_frame request.header hsize hlow,
    Header.header_frame, hread, hreadCode.trans hsame⟩

namespace Server

variable {s s' : Server} {timeout : Nat}

/-- What the frames `groups` that are written after a request have to do with it. -/
structure Replies (s : Server) (request : Message) (groups : List (List UInt8)) : Prop where
  single : groups.length ≤ 1
  answered : ∀ frame ∈ groups, request.AnsweredBy frame
  /-- Exceptions, broadcasts and requests for other units of a line are not answered. -/
  passedOver : 0x80 ≤ request.functionCode ∨
      s.framing = .rtu ∧ (request.unit.isBroadcast = true ∨ s.device? request.unit = none) →
    groups = []
  /-- A request for a unit that is not there is refused, unless sending cannot begin. -/
  unserved : s.framing = .tcp → request.functionCode < 0x80 → s.Unserved request.unit →
    groups = [FrameCodec.encode (request.answered
      (.error ⟨.ofCode request.functionCode, .gatewayTargetDevice⟩))] ∨
    groups = [] ∧ ∃ kind, (s.link.transport.wire.faults .beginning).head? = some (some kind)

theorem silent_onLink {wire : String} {work : LinkM α} (h : Within (Silent wire id) work) :
    Within (Silent wire Server.link) (onLink work) := by
  intro s
  rw [after_onLink]
  exact h s.link

theorem silent_recover {wire : String} (e : Error) :
    Within (Silent wire Server.link) (recover e) :=
  within_recover (silent_onLink Link.silent_dropChannel)
    (silent_onLink (Link.silent_perform .closing)) (silent_onLink (Link.silent_perform .opening))
    (fun ms => silent_onLink (Link.silent_sleep ms)) e

/-- Handling a request writes its reply, if there is one to be written. -/
theorem writes_handle (hs : s.IsSound) (hc : s.link.isConnected = true) (request : Message) :
    ∃ groups, s.link.Writes s.link.transport.wire.name groups (after (handle request) s).link ∧
      s.Replies request groups := by
  obtain ⟨c, hchannel⟩ := Option.isSome_iff_exists.mp hc
  have hpeer : s.peer? = some c.peer := by
    rw [peer?, hchannel, Option.map_some]
  have hserves := serves_dispatch hs.isPlain c.peer request
  have hreply := @of_dispatch_reply s c.peer request hs.isPlain
  have hrefused : s.framing = .tcp → request.functionCode < 0x80 → s.Unserved request.unit → _ :=
    fun htcp hcode hunit => dispatch_of_unserved htcp hcode hunit c.peer
  rcases hdispatch : s.dispatch c.peer request with ⟨dispatched, s₁⟩
  rw [hdispatch] at hserves hreply hrefused
  have hwrites : s.link.Writes s.link.transport.wire.name [] s₁.link :=
    ⟨congrArg (·.wire.name) hserves.transport, (hserves.shuns _ hs.shuns).2⟩
  by_cases hanswered : ∃ answer, dispatched = .reply answer
  · obtain ⟨answer, rfl⟩ := hanswered
    obtain ⟨reply, rfl, hsize, hfunction, hcode, hserved⟩ := hreply rfl
    -- The frame is all that is written, or nothing is if sending cannot begin.
    have hsent : ∃ groups, s₁.link.Writes s.link.transport.wire.name groups
          (after (onLink (Link.send (request.answered reply))) s₁).link ∧
        (groups = [FrameCodec.encode (request.answered reply)] ∨
          groups = [] ∧ ∃ kind,
            (s.link.transport.wire.faults .beginning).head? = some (some kind)) := by
      rw [after_onLink]
      rcases Link.writes_send (request.answered reply) s₁.link with hone | ⟨hnone, e, -, hfails⟩
      · exact ⟨_, hone, .inl (if_pos hwrites.name)⟩
      · obtain ⟨a, ha, kind, hfaults, -⟩ := hfails
        cases List.mem_singleton.mp ha
        refine ⟨[], hnone, .inr ⟨rfl, kind, ?_⟩⟩
        rw [← hserves.transport, hfaults]
        rfl
    obtain ⟨groups, hsent, hgroups⟩ := hsent
    have hafter : s₁.link.Writes s.link.transport.wire.name (groups ++ [])
        (after (handle request) s).link := by
      rcases hsend : onLink (Link.send (request.answered reply)) s₁ with ⟨_, s₂⟩ | ⟨e, s₂⟩ <;>
        rw [after, hsend] at hsent
      · rw [after, handle_of_send hpeer hdispatch hsend, List.append_nil]
        exact hsent
      · rw [after, handle_of_send_error hpeer hdispatch hsend, ← after]
        exact hsent.trans (silent_recover e s₂)
    rw [List.append_nil] at hafter
    refine ⟨groups, hwrites.trans hafter, ?_, ?_, ?_, ?_⟩
    · rcases hgroups with rfl | ⟨rfl, -⟩
      · exact Nat.le_refl 1
      · exact Nat.zero_le 1
    · intro frame hframe
      rcases hgroups with rfl | ⟨rfl, -⟩
      · rw [List.mem_singleton.mp hframe]
        exact Message.answeredBy_encode hsize hfunction hcode
      · cases hframe
    · rintro (hexception | ⟨hrtu, hunit⟩)
      · exact (UInt8.not_le.mpr hcode hexception).elim
      · obtain ⟨hbroadcast, hdevice⟩ := hserved hrtu
        rcases hunit with hunit | hunit
        · rw [hbroadcast] at hunit
          cases hunit
        · rw [hunit] at hdevice
          cases hdevice
    · intro htcp hcode hunit
      have hsame := Dispatched.reply.inj (Prod.mk.inj (hrefused htcp hcode hunit)).1
      rw [← hsame]
      exact hgroups
  · obtain ⟨polled, hhandle⟩ :=
      handle_of_no_reply hpeer hdispatch fun answer h => hanswered ⟨answer, h⟩
    refine ⟨[], ?_, Nat.zero_le 1, ?_, fun _ => rfl, fun htcp hcode hunit => ?_⟩
    · rw [after, hhandle]
      exact hwrites
    · intro frame hframe
      cases hframe
    · exact (hanswered ⟨_, (Prod.mk.inj (hrefused htcp hcode hunit)).1⟩).elim

/-- Nothing that the replies to a request depend on is changed by what comes before them. -/
theorem Replies.of_same {request : Message} {groups : List (List UInt8)}
    (h : s'.Replies request groups) (hframing : s'.framing = s.framing)
    (hdevices : s'.devices = s.devices)
    (hfaults : s'.link.transport.wire.faults .beginning =
      s.link.transport.wire.faults .beginning) : s.Replies request groups := by
  have hdevice : s'.device? request.unit = s.device? request.unit := by
    rw [device?, hdevices, ← device?]
  refine ⟨h.single, h.answered, ?_, fun htcp hcode hunit => ?_⟩
  · rw [← hframing, ← hdevice]
    exact h.passedOver
  · rw [← hfaults]
    apply h.unserved (hframing.trans htcp) hcode
    exact ⟨by rw [hdevices]; exact hunit.absent, by rw [hdevices]; exact hunit.alone⟩

/-- The frames that are written after what is asked of the server. -/
def Writing (s : Server) (asked : Option Message) (groups : List (List UInt8)) : Prop :=
  match asked with
  | none => groups = []
  | some request => request.framing = s.framing ∧ request.pdu ≠ [] ∧ s.Replies request groups

theorem Writing.of_same {asked : Option Message} {groups : List (List UInt8)}
    (h : s'.Writing asked groups) (hframing : s'.framing = s.framing)
    (hdevices : s'.devices = s.devices)
    (hfaults : s'.link.transport.wire.faults .beginning =
      s.link.transport.wire.faults .beginning) : s.Writing asked groups := by
  cases asked with
  | none => exact h
  | some request =>
    obtain ⟨hrequest, hpdu, hreplies⟩ := h
    exact ⟨hrequest.trans hframing, hpdu, hreplies.of_same hframing hdevices hfaults⟩

theorem silent_receive {wire : String} (timeout byteTimeout : Nat) :
    Within (Silent wire Server.link) (onLink (Link.receive timeout byteTimeout)) :=
  silent_onLink (Link.silent_receive timeout byteTimeout)

theorem writes_pollStream (hs : s.IsSound) (timeout : Nat) :
    ∃ groups, s.link.Writes s.link.transport.wire.name groups (after (pollStream timeout) s).link ∧
      s.Writing (s.taken? timeout) groups := by
  rw [taken?, if_pos hs.isOpen]
  rcases hreceive : Link.receive timeout s.settings.byteTimeout s.link with ⟨m, l⟩ | ⟨e, l⟩
  · have hl : s.link.Writes s.link.transport.wire.name [] l :=
      (Link.silent_receive timeout _).of_ok hreceive
    have hsound : ({ s with link := l } : Server).IsSound :=
      (spans_sustains.receive timeout _).of_ok (run_onLink hreceive) hs
    have hkeeps : s.link.Keeps .request l := (Link.keeping_receive timeout _).of_ok hreceive
    obtain ⟨c, bytes, rest, hchannel, hsplit⟩ := Link.exists_split_of_receive hreceive
    obtain ⟨hrequest, hpdu⟩ := FrameCodec.of_split hsplit
    obtain ⟨groups, hwrites, hreplies⟩ :=
      writes_handle hsound (Link.isConnected_of_receive hreceive) m
    rw [after, pollStream_of_receive hreceive, ← after]
    rw [show ({ s with link := l } : Server).link.transport.wire.name =
      s.link.transport.wire.name from hl.name] at hwrites
    refine ⟨groups, hl.trans hwrites, ?_, hpdu, hreplies.of_same hkeeps.framing rfl ?_⟩
    · rw [hrequest, hs.isFor c hchannel]
      rfl
    · exact (Link.spending_receive timeout _).of_ok hreceive .beginning List.not_mem_nil
  · have hl : s.link.Writes s.link.transport.wire.name [] l :=
      (Link.silent_receive timeout _).of_error hreceive
    refine ⟨[], ?_, rfl⟩
    by_cases htimeout : e = .timeout
    · rw [htimeout] at hreceive
      rw [after, pollStream_of_timeout hreceive]
      exact hl
    · rw [after, pollStream_of_error htimeout hreceive, ← after]
      have hrest : Within (Silent s.link.transport.wire.name Server.link)
          (if e.isFraming then discardFrame else recover e) := by
        split
        · exact within_discardFrame (silent_onLink Link.silent_dropChannel)
        · exact silent_recover e
      exact hl.trans (hrest { s with link := l })

/-- The request that a poll takes, if it takes one: from the stream, or from the one of the peer that
it accepts. -/
def asked? (timeout : Nat) (s : Server) : Option Message :=
  if s.link.isConnected then s.taken? timeout
  else
    match accept timeout s with
    | .ok true s => s.taken? timeout
    | _ => none

theorem writes_poll (hs : s.IsSound) (timeout : Nat) :
    ∃ groups, s.link.Writes s.link.transport.wire.name groups (after (poll timeout) s).link ∧
      s.Writing (s.asked? timeout) groups := by
  by_cases hc : s.link.isConnected = true
  · rw [asked?, if_pos hc, after, poll_of_isConnected hs.isOpen hc, ← after]
    exact writes_pollStream hs timeout
  · have hnot : s.link.isConnected = false := Bool.eq_false_iff.mpr hc
    have haccepting : Within (Silent s.link.transport.wire.name Server.link) (accept timeout) :=
      .bind .get fun s => silent_onLink (Link.silent_connect .request s.settings.debug _)
    rw [asked?, if_neg hc]
    rcases haccept : accept timeout s with ⟨_ | _, s₁⟩ | ⟨e, s₁⟩
    · rw [after, poll_of_accept_false hs.isOpen hnot haccept]
      exact ⟨[], haccepting.of_ok haccept, rfl⟩
    · have hfirst : s.link.Writes s.link.transport.wire.name [] s₁.link :=
        haccepting.of_ok haccept
      obtain ⟨hsound, l, rfl, deadline, hconnect⟩ := of_accept hs haccept
      obtain ⟨groups, hwrites, hwriting⟩ := writes_pollStream hsound timeout
      rw [show ({ s with link := l } : Server).link.transport.wire.name =
        s.link.transport.wire.name from hfirst.name] at hwrites
      rw [after, poll_eq_pollStream hs.isOpen hnot haccept, ← after]
      have hkeeps : s.link.Keeps .request l := (Link.keeping_connect _ _).of_ok hconnect
      refine ⟨groups, hfirst.trans hwrites, hwriting.of_same hkeeps.framing rfl ?_⟩
      exact (Link.spending_connect _ _ _).of_ok hconnect .beginning (by decide)
    · rw [after, poll_of_accept_error hs.isOpen hnot haccept, ← after]
      have hfirst : s.link.Writes s.link.transport.wire.name [] s₁.link :=
        haccepting.of_error haccept
      exact ⟨[], hfirst.trans (silent_recover e s₁), rfl⟩

/-! ### Hostile bytes -/

/-- The groups of bytes that a poll writes to the wire of the server, whether or not they go out. -/
def writes (timeout : Nat) (s : Server) : List (List UInt8) :=
  (Pair.since (after (poll timeout) s).journal s.journal.entries.length).filterMap
    (Entry.written? s.link.transport.wire.name)

/-- A server withstands what a poll brings: the poll fails only with the transport, and nothing is
written but a reply to the request that it has taken. On a clock it comes to the same, or it
overflows. -/
structure Withstands (timeout : Nat) (s : Server) : Prop where
  fails : ∀ e s', poll timeout s = .error e s' → s.Excuses s' e
  unasked : s.asked? timeout = none → s.writes timeout = []
  asked : ∀ request, s.asked? timeout = some request →
    request.framing = s.framing ∧ request.pdu ≠ [] ∧ s.Replies request (s.writes timeout)
  /-- No position in a map overflows, whatever is executed. -/
  inMaps : ∀ r : Request, r.check = .ok () → ∀ d ∈ s.devices, ∀ range ∈ r.ranges, ∀ a,
    d.map.check range.1 a range.2.2 ≠ .error .overflow
  /-- A clock that can tell the deadlines of the poll does not get in its way. -/
  inTime : ∀ horizon, (∀ t ∈ s.deadlines timeout, t ≤ horizon) →
    s.pollOn horizon timeout = .ok (poll timeout s)
  overflows : ∀ horizon, ∀ t ∈ s.deadlines timeout, horizon < t →
    s.pollOn horizon timeout = .error .overflow
  /-- The deadline for the first bytes of a request is set whether or not they are there. -/
  due : s.link.isConnected = true → s.journal.now + timeout ∈ s.deadlines timeout
  /-- A clock that goes on after the poll for the longest of all waits can tell its deadlines. -/
  near : ∀ longest, timeout ≤ longest → s.WaitsAtMost longest →
    ∀ t ∈ s.deadlines timeout, t ≤ (after (poll timeout) s).journal.now + longest

end Server

end Modbus

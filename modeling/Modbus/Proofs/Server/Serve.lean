import Modbus.Proofs.Client.Exchange
import Modbus.Proofs.DataModel.Process
import Modbus.Proofs.Server.Poll

/-! A server whose link works. A request for a local device that is delivered in time is handled by
one poll: the device answers it from its map, and the frame of its reply is all that is sent. -/

namespace Modbus

theorem UnitId.isBroadcast_of_isRegistrable {unit : UnitId} (h : unit.isRegistrable = true) :
    unit.isBroadcast = false := by
  rcases hbroadcast : unit.isBroadcast with _ | _
  · rfl
  · have hzero : unit = broadcast := beq_iff_eq.mp hbroadcast
    rw [hzero] at h
    exact absurd h (by decide)

theorem Journal.addNotes_nil (j : Journal) : j.addNotes [] = j := by
  rw [addNotes, List.map_nil, List.append_nil]

namespace Server

variable {s s' : Server} {d : Device}

/-- A device that is put in the place of the one with its identifier is found there, and the other
devices are where they were. -/
theorem device?_putDevice (s : Server) (d : Device) (id : UnitId) :
    (s.putDevice d).device? id = (s.device? id).map fun e => if e.id = d.id then d else e := by
  have hid : ∀ e : Device, (if e.id = d.id then d else e).id = e.id := by
    intro e
    by_cases he : e.id = d.id
    · rw [if_pos he, he]
    · rw [if_neg he]
  simp only [device?, putDevice, List.find?_map, Function.comp_def, hid]

theorem device?_putDevice_self {id : UnitId} (h : s.device? id = some d) (map : DataMap) :
    (s.putDevice { d with map }).device? id = some { d with map } := by
  rw [device?_putDevice, h, Option.map_some, if_pos rfl]

/-- The server `s'` comes from `s` by a request to the device `d`, whose map is `map` after it:
`frame` was sent, and nothing is pending. -/
structure Answers (d : Device) (map : DataMap) (frame : List UInt8) (s s' : Server) : Prop where
  sends : Link.Sends [frame] s.link s'.link
  joined : s'.link.Joined .request
  arrivals : s'.link.transport.wire.arrivals = []
  devices : s'.devices = (s.putDevice { d with map }).devices
  settings : s'.settings = s.settings
  clients : s'.clients = s.clients
  isOpen : s'.isOpen = s.isOpen

variable {peer : Peer} {message reply : Message} {map : DataMap}

theorem serve_of_process {reply : Option Message}
    (hprocess : d.process peer (s.route d) message = .done ⟨reply, map, []⟩) :
    s.serve peer d message = (reply, s.putDevice { d with map }) := by
  simp only [serve, hprocess, Plan.run, Journal.addNotes_nil]
  rfl

theorem serve_of_done (hlocal : d.IsLocal)
    (hprocess : d.process peer .own message = .done ⟨some reply, map, []⟩) :
    s.serve peer d message = (some reply, s.putDevice { d with map }) := by
  have hroute : s.route d = .own := by
    rw [route, hlocal.forwardsTo]
  exact serve_of_process (by rw [hroute, hprocess])

theorem dispatch_of_done (hd : s.device? message.unit = some d) (hlocal : d.IsLocal)
    (hexception : message.isException = false) (hunit : message.unit.isBroadcast = false)
    (hprocess : d.process peer .own message = .done ⟨some reply, map, []⟩) :
    s.dispatch peer message = (.reply reply, s.putDevice { d with map }) := by
  have htarget : s.target? message.unit = some d := by
    rw [target?, hd]
  simp only [dispatch, hexception, hunit, Bool.false_eq_true, and_false, if_false, htarget,
    serve_of_done hlocal hprocess]

/-- A request for a local device is handled by sending its reply. -/
theorem handle_of_process (hfaultless : s.link.Faultless) (hpeer : s.peer? = some peer)
    (hd : s.device? message.unit = some d) (hlocal : d.IsLocal)
    (hexception : message.isException = false) (hunit : message.unit.isBroadcast = false)
    (hprocess : d.process peer .own message = .done ⟨some reply, map, []⟩) :
    ∃ l, handle message s = .ok .handled { s.putDevice { d with map } with link := l } ∧
      Link.send reply s.link = .ok () l ∧ l.transport = s.link.transport ∧
      l.channel = s.link.channel ∧ Link.Sends [FrameCodec.encode reply] s.link l := by
  obtain ⟨l, hsend, htransport, hchannel, hsends⟩ := Link.send_of_faultless hfaultless reply
  have hsendLink : onLink (Link.send reply) (s.putDevice { d with map }) =
      .ok () { s.putDevice { d with map } with link := l } := run_onLink hsend
  have hdispatch := dispatch_of_done hd hlocal hexception hunit hprocess
  exact ⟨l, handle_of_send hpeer hdispatch hsendLink, hsend, htransport, hchannel, hsends⟩

section

variable (hd : s.device? message.unit = some d) (hlocal : d.IsLocal)
  (hexception : message.isException = false) (hunit : message.unit.isBroadcast = false)
  (hprocess : ∀ peer, d.process peer .own message = .done ⟨some reply, map, []⟩)
include hd hlocal hexception hunit hprocess

theorem handle_of_done (hjoined : s.link.Joined .request)
    (harrivals : s.link.transport.wire.arrivals = []) :
    ∃ s', handle message s = .ok .handled s' ∧
      Answers d map (FrameCodec.encode reply) s s' := by
  obtain ⟨peer, debug, hchannel⟩ := hjoined.channel
  have hpeer : s.peer? = some peer := by
    rw [peer?, hchannel, Option.map_some]
  obtain ⟨l, hhandle, -, htransport, hchannel', hsends⟩ := handle_of_process hjoined.faultless
    hpeer hd hlocal hexception hunit (hprocess peer)
  exact ⟨_, hhandle, hsends, hjoined.of_sends hsends hchannel', by rw [htransport, harrivals], rfl,
    rfl, rfl, rfl⟩

theorem pollStream_of_brings {interval : Nat} {bytes : List UInt8}
    (hjoined : s.link.Joined .request)
    (h : Brings s.settings.byteTimeout interval bytes s.link.transport.wire.arrivals)
    (hframe : FrameCodec.Delimits ⟨s.framing, .request⟩ bytes message) :
    ∃ s', pollStream interval s = .ok .handled s' ∧
      Answers d map (FrameCodec.encode reply) s s' := by
  obtain ⟨l₁, hreceive, hjoined₁, -, harrivals₁, hsends₁⟩ :=
    Link.receive_of_brings hjoined h hframe
  have hd₁ : ({ s with link := l₁ } : Server).device? message.unit = some d := hd
  obtain ⟨s', hhandle, hanswers⟩ :=
    handle_of_done hd₁ hlocal hexception hunit hprocess hjoined₁ harrivals₁
  refine ⟨s', ?_, hsends₁.trans hanswers.sends, hanswers.joined, hanswers.arrivals,
    hanswers.devices, hanswers.settings, hanswers.clients, hanswers.isOpen⟩
  rw [pollStream_of_receive hreceive, hhandle]

/-- A request for a local device that is delivered in time is handled by one poll. -/
theorem poll_of_brings {interval : Nat} {bytes : List UInt8} (hopen : s.isOpen = true)
    (hable : s.link.Able .request)
    (h : Brings s.settings.byteTimeout interval bytes s.link.transport.wire.arrivals)
    (hframe : FrameCodec.Delimits ⟨s.framing, .request⟩ bytes message) :
    ∃ s', poll interval s = .ok .handled s' ∧ Answers d map (FrameCodec.encode reply) s s' := by
  rcases hable.connected with hjoined | ⟨hchannel, hc⟩
  · obtain ⟨s', hpoll, hanswers⟩ :=
      pollStream_of_brings hd hlocal hexception hunit hprocess hjoined h hframe
    refine ⟨s', ?_, hanswers⟩
    rw [poll_of_isConnected hopen hjoined.isConnected, hpoll]
  · have hnot : s.link.isConnected = false := by
      rw [Link.isConnected, hchannel]
      rfl
    obtain ⟨peer, l₁, hconnect, hchannel₁, harrivals₁, hsends₁⟩ :=
      Link.connect_of_canConnect hable.faultless hc .request s.settings.debug
        (if s.link.transport.kind.acceptsPeers then some (s.journal.now + interval) else none)
    have hjoined₁ : l₁.Joined .request :=
      ⟨hsends₁.faultless hable.faultless, peer, s.settings.debug, by
        rw [hchannel₁, hsends₁.framing]⟩
    have haccept : accept interval s = .ok true { s with link := l₁ } := by
      rw [accept, run_get_bind]
      exact run_onLink hconnect
    have hd₁ : ({ s with link := l₁ } : Server).device? message.unit = some d := hd
    rw [← harrivals₁] at h
    rw [framing, ← hsends₁.framing] at hframe
    obtain ⟨s', hpoll, hanswers⟩ :=
      pollStream_of_brings hd₁ hlocal hexception hunit hprocess hjoined₁ h hframe
    refine ⟨s', ?_, hsends₁.trans hanswers.sends, hanswers.joined, hanswers.arrivals,
      hanswers.devices, hanswers.settings, hanswers.clients, hanswers.isOpen⟩
    rw [poll_eq_pollStream hopen hnot haccept, hpoll]

theorem settle_of_brings {interval limit : Nat} {bytes : List UInt8} (hopen : s.isOpen = true)
    (hable : s.link.Able .request)
    (h : Brings s.settings.byteTimeout interval bytes s.link.transport.wire.arrivals)
    (hframe : FrameCodec.Delimits ⟨s.framing, .request⟩ bytes message) (hlimit : 0 < limit) :
    ∃ s', Pair.settle interval limit s = .ok () s' ∧
      Answers d map (FrameCodec.encode reply) s s' := by
  obtain ⟨limit, rfl⟩ : ∃ n, limit = n + 1 := ⟨limit - 1, by omega⟩
  obtain ⟨s', hpoll, hanswers⟩ :=
    poll_of_brings hd hlocal hexception hunit hprocess hopen hable h hframe
  have hpending : Pair.isPending s.link = true := by
    have hne := h.arrivals_ne_nil
    simp [Pair.isPending, hne]
  have hdone : Pair.isPending s'.link = false := by
    obtain ⟨peer, debug, hchannel⟩ := hanswers.joined.channel
    simp [Pair.isPending, hanswers.arrivals, hchannel]
  have hrest : Pair.settle interval limit s' = .ok () s' := by
    cases limit with
    | zero => rfl
    | succ limit =>
      rw [Pair.settle, run_get_bind]
      simp only [hdone, Bool.false_eq_true, if_false]
      rfl
  refine ⟨s', ?_, hanswers⟩
  rw [Pair.settle, run_get_bind]
  simp only [hpending, if_true]
  rw [run_bind (run_discard hpoll), hrest]

end

end Server

end Modbus

import Modbus.Proofs.Client.Work
import Modbus.Proofs.Link.Delivery

/-! A client whose link works. Submitting a request connects if need be and sends one frame, and
collecting the answer takes the frame that is delivered. -/

namespace Modbus

namespace Link

/-- A link on which nothing fails and on which a stream is connected or can be. -/
structure Able (role : Role) (l : Link) : Prop where
  faultless : l.Faultless
  connected : l.Joined role ∨ l.channel = none ∧ l.CanConnect

/-- A link that is able and on which nothing is on its way. -/
structure Ready (role : Role) (l : Link) : Prop extends Able role l where
  arrivals : l.transport.wire.arrivals = []

/-- What is on its way to a link takes nothing from what it can do. -/
theorem Able.feed {role : Role} {l : Link} (h : l.Able role) (more : List Arrival) :
    (l.withWire (l.transport.wire.feed more)).Able role := by
  refine ⟨h.faultless, ?_⟩
  rcases h.connected with hjoined | hconnects
  · exact .inl ⟨hjoined.faultless, hjoined.channel⟩
  · exact .inr hconnects

theorem Joined.ready {role : Role} {l : Link} (h : l.Joined role)
    (harrivals : l.transport.wire.arrivals = []) : l.Ready role :=
  ⟨⟨h.faultless, .inl h⟩, harrivals⟩

theorem Joined.isConnected {role : Role} {l : Link} (h : l.Joined role) : l.isConnected = true := by
  obtain ⟨peer, debug, hchannel⟩ := h.channel
  rw [Link.isConnected, hchannel]
  rfl

theorem clearBuffer_of_joined {role : Role} {l : Link} (h : l.Joined role) :
    clearBuffer l = .ok () l := by
  obtain ⟨peer, debug, hchannel⟩ := h.channel
  show EStateM.Result.ok () { l with channel := _ } = .ok () l
  rw [hchannel, Option.map_some, ← hchannel]

end Link

namespace Client

/-- The client `c'` comes from `c` by steps that have sent `groups` of bytes. -/
structure Sends (groups : List (List UInt8)) (c c' : Client) : Prop where
  link : Link.Sends groups c.link c'.link
  settings : c'.settings = c.settings
  pduAddressing : c'.pduAddressing = c.pduAddressing

variable {c c' c'' : Client}

theorem Sends.refl (c : Client) : Sends [] c c := ⟨.refl c.link, rfl, rfl⟩

theorem Sends.trans {groups groups' : List (List UInt8)} (h : Sends groups c c')
    (h' : Sends groups' c' c'') : Sends (groups ++ groups') c c'' :=
  ⟨h.link.trans h'.link, h'.settings.trans h.settings, h'.pduAddressing.trans h.pduAddressing⟩

theorem sends_of_link {groups : List (List UInt8)} {l : Link} (h : Link.Sends groups c.link l) :
    Sends groups c { c with link := l } := ⟨h, rfl, rfl⟩

theorem connect_of_canConnect (hchannel : c.link.channel = none) (hl : c.link.Faultless)
    (hc : c.link.CanConnect) :
    ∃ c', connect c = .ok () c' ∧ c'.link.Joined .response ∧
      c'.link.transport.wire.arrivals = c.link.transport.wire.arrivals ∧ Sends [] c c' := by
  have hnot : ¬ c.isConnected = true := by
    rw [isConnected, Link.isConnected, hchannel]
    exact Bool.false_ne_true
  obtain ⟨l₁, hopen, htransport, -, hsends₁⟩ := Link.perform_of_faultless hl .opening
  have hc₁ : l₁.CanConnect := by
    rw [Link.CanConnect, htransport]
    exact hc
  obtain ⟨peer, l₂, hconnect, hchannel₂, harrivals, hsends₂⟩ :=
    Link.connect_of_canConnect (hsends₁.faultless hl) hc₁ .response c.settings.debug none
  have hsends := hsends₁.trans hsends₂
  refine ⟨{ c with link := l₂, reconnectAt := none }, ?_, ?_, ?_, hsends, rfl, rfl⟩
  · have hopenTransport : onLink Link.openTransport c = .ok () { c with link := l₁ } :=
      run_onLink hopen
    have hconnectLink : onLink (Link.connect .response c.settings.debug none)
        { c with link := l₁ } = .ok true { c with link := l₂ } :=
      run_onLink hconnect
    rw [connect, run_get_bind]
    simp only [hnot, Bool.false_eq_true, if_false]
    rw [run_bind hopenTransport, run_bind hconnectLink]
    rfl
  · exact ⟨hsends.faultless hl, peer, c.settings.debug, by rw [hchannel₂, hsends₂.framing]⟩
  · rw [harrivals, htransport]

theorem ensureConnected_of_ready (h : c.link.Ready .response) :
    ∃ c', ensureConnected c = .ok () c' ∧ c'.link.Joined .response ∧
      c'.link.transport.wire.arrivals = [] ∧ Sends [] c c' := by
  rcases h.connected with hjoined | ⟨hchannel, hc⟩
  · exact ⟨c, ensureConnected_of_isConnected hjoined.isConnected, hjoined, h.arrivals, .refl c⟩
  · have hnot : ¬ c.isConnected = true := by
      rw [isConnected, Link.isConnected, hchannel]
      exact Bool.false_ne_true
    rcases hreconnect : c.reconnectAt with _ | t
    · obtain ⟨c', hconnect, hjoined, harrivals, hsends⟩ :=
        connect_of_canConnect hchannel h.faultless hc
      refine ⟨c', ?_, hjoined, harrivals.trans h.arrivals, hsends⟩
      rw [ensureConnected, run_get_bind]
      simp only [hnot, Bool.false_eq_true, if_false, hreconnect]
      exact hconnect
    · -- Waiting changes the time alone.
      let waited := { c with link := { c.link with journal := c.link.journal.sleepUntil t } }
      obtain ⟨c', hconnect, hjoined, harrivals, hsends⟩ :=
        connect_of_canConnect (c := waited) hchannel h.faultless hc
      have hsleep : onLink (Link.sleepUntil t) c = .ok () waited := rfl
      have hwaited : Sends [] c waited := ⟨⟨rfl, rfl, [], (List.append_nil _).symm, rfl⟩, rfl, rfl⟩
      refine ⟨c', ?_, hjoined, harrivals.trans h.arrivals, hwaited.trans hsends⟩
      rw [ensureConnected, run_get_bind]
      simp only [hnot, Bool.false_eq_true, if_false, hreconnect]
      rw [run_bind hsleep]
      exact hconnect

theorem nextHeader_spec (unit : UnitId) (c : Client) :
    ∃ header c', nextHeader unit c = .ok header c' ∧ header.framing = c.link.framing ∧
      header.unit = unit ∧ c'.link = c.link ∧ Sends [] c c' := by
  rcases hframing : c.link.framing with _ | _
  · refine ⟨.rtu unit, c, ?_, rfl, rfl, rfl, .refl c⟩
    rw [nextHeader, run_get_bind, hframing]
    rfl
  · refine ⟨.tcp c.transaction unit, { c with transaction := c.transaction + 1 }, ?_, rfl, rfl, rfl,
      .refl c.link, rfl, rfl⟩
    rw [nextHeader, run_get_bind, hframing]
    rfl

/-- Submitting a request sends its frame, under a header for its unit. -/
theorem submit_of_ready (h : c.link.Ready .response) (unit : UnitId) {request : Request}
    (hsize : request.size ≤ 253) :
    ∃ header c', submit unit request c = .ok ⟨header, request⟩ c' ∧
      header.framing = c.link.framing ∧ header.unit = unit ∧ c'.link.Joined .response ∧
      c'.link.transport.wire.arrivals = [] ∧
      Sends [(header.frame .request request.pdu).adu] c c' := by
  obtain ⟨c₁, hconnect, hjoined₁, harrivals₁, hsends₁⟩ := ensureConnected_of_ready h
  obtain ⟨header, c₂, hheader, hframing, hunit, hlink₂, hsends₂⟩ := nextHeader_spec unit c₁
  have hjoined₂ : c₂.link.Joined .response := hlink₂ ▸ hjoined₁
  have hmessage : Message.ofRequest header request =
      .ok (header.frame .request request.pdu) :=
    if_neg (by unfold maxPduSize; omega)
  have hclear : onLink Link.clearBuffer c₂ = .ok () c₂ :=
    run_onLink (Link.clearBuffer_of_joined hjoined₂)
  obtain ⟨l₃, hsend, htransport₃, hchannel₃, hsends₃⟩ :=
    Link.send_of_faultless hjoined₂.faultless (header.frame .request request.pdu)
  rw [Header.encode_frame] at hsends₃
  have hsendLink : onLink (Link.send (header.frame .request request.pdu)) c₂ =
      .ok () { c₂ with link := l₃ } :=
    run_onLink hsend
  refine ⟨header, { c₂ with link := l₃ }, ?_, hframing.trans hsends₁.link.framing, hunit,
    hjoined₂.of_sends hsends₃ hchannel₃, ?_, (hsends₁.trans hsends₂).trans (sends_of_link hsends₃)⟩
  · rw [submit, run_bind hconnect, run_bind hheader, hmessage]
    dsimp only
    rw [run_bind hclear, run_bind hsendLink]
    rfl
  · rw [htransport₃, hlink₂, harrivals₁]

/-- Collecting takes the reply that is delivered, if it is one to the request that is pending. -/
theorem collect_of_brings {bytes : List UInt8} {within : Nat} {message : Message} {p : Pending}
    {answer : Answer Response} (hjoined : c.link.Joined .response)
    (hwithin : c.settings.responseTimeout = within)
    (h : Brings c.settings.byteTimeout within bytes c.link.transport.wire.arrivals)
    (hframe : FrameCodec.Delimits ⟨c.link.framing, .response⟩ bytes message)
    (haccept : p.accept message = .ok answer) :
    ∃ c', collect p c = .ok answer c' ∧ c'.link.Joined .response ∧
      c'.link.transport.wire.arrivals = [] ∧ Sends [] c c' := by
  obtain ⟨l', hreceive, hjoined', -, harrivals, hsends⟩ :=
    Link.receive_of_brings hjoined h hframe
  have hreceiveLink : onLink (Link.receive c.settings.responseTimeout c.settings.byteTimeout) c =
      .ok message { c with link := l' } :=
    run_onLink (hwithin ▸ hreceive)
  refine ⟨{ c with link := l' }, ?_, hjoined', harrivals, sends_of_link hsends⟩
  rw [collect, run_get_bind, run_bind hreceiveLink, haccept]
  rfl

end Client

end Modbus

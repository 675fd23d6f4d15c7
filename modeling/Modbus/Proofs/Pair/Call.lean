import Modbus.Proofs.Frame.Messages
import Modbus.Proofs.Server.Serve

/-! Calls between a client and a server whose links work. A call of a local device ends with what
the data model of the device answers, and leaves the pair ready for the next one. -/

namespace Modbus

/-! ### Replies that can be sent -/

namespace DataModel

variable {pduAddressing : Bool} {report : Report} {m : DataModel} {r : Request}

theorem function_of_response {response : Response}
    (h : m.response pduAddressing report r = .ok response) : response.function = r.function := by
  cases r with
  | custom code data => cases h
  | reportId =>
    by_cases hfits : report.data.length ≤ 249
    · rw [DataModel.response, if_pos hfits] at h
      cases h
      rfl
    · rw [DataModel.response, if_neg hfits] at h
      cases h
  | _ =>
    cases h
    rfl

theorem function_of_execute {response : Response}
    (h : (m.execute pduAddressing report r).1 = .ok response) : response.function = r.function := by
  unfold execute at h
  split at h
  · cases h
  · split at h
    · cases h
    · exact function_of_response h

theorem ofCode_code_of_execute {e : ExceptionCode}
    (h : (m.execute pduAddressing report r).1 = .error e) : ExceptionCode.ofCode e.code = e := by
  unfold execute at h
  split at h
  · cases h
    rfl
  · split at h
    · cases h
      rfl
    · cases r with
      | custom code data =>
        cases h
        rfl
      | reportId =>
        simp only [DataModel.response] at h
        split at h
        · cases h
        · cases h
          rfl
      | _ => cases h

/-- What is answered to the protocol data unit of a request is what comes of executing it. -/
theorem answer_pdu (hs : r.IsSupported) (hsize : r.size ≤ 253) :
    m.answer pduAddressing report r.pdu =
      ((m.execute pduAddressing report r).1.mapError (⟨r.function, ·⟩),
        (m.execute pduAddressing report r).2) := by
  have hc := Request.isCanonical_of_isSupported hs
  have hspelled : Request.spelled? r.pdu = some r := by
    rw [← Request.toOption_ofPdu, Request.ofPdu_pdu hsize hc]
    rfl
  rw [answer, hspelled]
  simp only [Request.pdu, List.headD_cons, Request.ofCode_code_function hc]

end DataModel

theorem Device.size_of_execute {d : Device} {r : Request} {response : Response}
    (h : (d.map.model.execute d.pduAddressing d.report r).1 = .ok response) :
    response.size ≤ 253 := by
  obtain ⟨result, map', -, hmodel, -⟩ := execute_own d d.map r
  rw [← hmodel] at h
  exact (Answer.of_fitted h).2

/-- The answer of a device to a request that it knows can be sent. -/
theorem Device.isSendable_execute (d : Device) {r : Request} (hs : r.IsSupported) :
    Reply.IsSendable
      ((d.map.model.execute d.pduAddressing d.report r).1.mapError (⟨r.function, ·⟩)) := by
  rcases hresult : (d.map.model.execute d.pduAddressing d.report r).1 with e | response
  · have hcode := Request.code_function_of_isSupported hs
    have hmax : r.function.code < 0x80 :=
      Nat.lt_of_le_of_lt (UInt8.le_iff_toNat_le.mp hcode.2) (by decide)
    exact ⟨hmax, Request.ofCode_code_function (Request.isCanonical_of_isSupported hs),
      DataModel.ofCode_code_of_execute hresult⟩
  · exact Device.size_of_execute hresult

theorem Request.isException_frame {header : Header} {r : Request} (hs : r.IsSupported) :
    (header.frame .request r.pdu).isException = false := by
  have hmax := UInt8.le_iff_toNat_le.mp (code_function_of_isSupported hs).2
  have hlow : ¬ 0x80 ≤ r.function.code := by
    rw [UInt8.le_iff_toNat_le, Nat.not_le]
    exact Nat.lt_of_le_of_lt hmax (by decide)
  exact decide_eq_false hlow

/-- What a local device makes of a request depends on nothing but the request and its map. -/
theorem Device.process_frame {d : Device} (hlocal : d.IsLocal) (header : Header) {r : Request}
    (hs : r.IsSupported) (hsize : r.size ≤ 253) :
    let result := d.map.model.execute d.pduAddressing d.report r
    ∃ map, (∀ peer, d.process peer .own (header.frame .request r.pdu) =
        .done ⟨some (header.frame .response (Reply.pdu (result.1.mapError (⟨r.function, ·⟩)))),
          map, []⟩) ∧ map.model = result.2 ∧ map.shape = d.map.shape := by
  intro result
  have hanswer : d.map.model.answer d.pduAddressing d.report (header.frame .request r.pdu).pdu =
      (result.1.mapError (⟨r.function, ·⟩), result.2) := DataModel.answer_pdu hs hsize
  have hanswered : ∀ reply : Reply, (header.frame .request r.pdu).answered reply =
      header.frame .response reply.pdu := by
    intro reply
    show Header.frame (header.frame .request r.pdu).header .response _ = _
    rw [Header.header_frame]
  obtain ⟨map, -, hmodel, hshape⟩ :=
    process_of_isLocal hlocal .inProcess (header.frame .request r.pdu)
  rw [hanswer] at hmodel
  refine ⟨map, fun peer => ?_, hmodel, hshape⟩
  obtain ⟨map', hprocess', hmodel', hshape'⟩ :=
    process_of_isLocal hlocal peer (header.frame .request r.pdu)
  rw [hanswer] at hprocess' hmodel'
  have hmap : map' = map :=
    DataMap.eq_of_model_of_shape (hmodel'.trans hmodel.symm) (hshape'.trans hshape.symm)
  rw [hprocess', hmap, hanswered]

/-! ### Acceptance -/

/-- An answer as a client learns it: its coils are padded. -/
def Answer.padded (a : Answer Response) : Answer Response := a.map Response.padded

/-- The reply to a request is accepted as its answer. -/
theorem Client.Pending.accept_frame {header : Header} {r : Request} {answer : Answer Response}
    (hsend : Reply.IsSendable (answer.mapError (⟨r.function, ·⟩)))
    (hfunction : ∀ response, answer = .ok response → response.function = r.function) :
    Pending.accept ⟨header, r⟩
      (header.frame .response (Reply.pdu (answer.mapError (⟨r.function, ·⟩)))) =
      .ok answer.padded := by
  have hread := Reply.ofPdu_pdu hsend
  have hresponse : (header.frame .response
      (Reply.pdu (answer.mapError (⟨r.function, ·⟩)))).response =
        .ok (Reply.padded (answer.mapError (⟨r.function, ·⟩))) := hread
  rw [Pending.accept, hresponse]
  rcases answer with e | response
  · simp [Header.header_frame, Except.mapError, Reply.padded, Reply.function, Answer.padded,
      Except.map]
  · have hsame := hfunction response rfl
    simp [Header.header_frame, Except.mapError, Reply.padded, Reply.function, Answer.padded,
      Except.map, Response.function_padded, hsame]

/-- The reply to a request is collected when its frame is delivered. -/
theorem Client.collect_frame {c : Client} (header : Header) {r : Request}
    {answer : Answer Response} (hjoined : c.link.Joined .response)
    (hheader : header.framing = c.link.framing) (hs : r.IsSupported)
    (hsend : Reply.IsSendable (answer.mapError (⟨r.function, ·⟩)))
    (hfunction : ∀ response, answer = .ok response → response.function = r.function)
    (hbrings : ∀ bytes, bytes ≠ [] → bytes = (header.frame .response
        (Reply.pdu (answer.mapError (⟨r.function, ·⟩)))).adu →
      Brings c.settings.byteTimeout c.settings.responseTimeout bytes
        c.link.transport.wire.arrivals) :
    ∃ c', collect ⟨header, r⟩ c = .ok answer.padded c' ∧ c'.link.Joined .response ∧
      c'.link.transport.wire.arrivals = [] ∧ Sends [] c c' := by
  have hreply : Reply.function (answer.mapError (⟨r.function, ·⟩)) = r.function := by
    rcases answer with e | response
    · rfl
    · exact hfunction response rfl
  have hframe : FrameCodec.Delimits ⟨c.link.framing, .response⟩
      (header.frame .response (Reply.pdu (answer.mapError (⟨r.function, ·⟩)))).adu
      (header.frame .response (Reply.pdu (answer.mapError (⟨r.function, ·⟩)))) := by
    rw [← hheader]
    refine Reply.delimits header (Reply.size_le_of_isSendable hsend) fun _ => ?_
    rw [hreply]
    exact Request.code_function_of_isSupported hs
  exact collect_of_brings hjoined rfl (hbrings _ hframe.ne_nil rfl) hframe
    (Pending.accept_frame hsend hfunction)

/-! ### Pipes -/

/-- Everything that the pipe carries is delivered in time. -/
def Pipe.InTime (byteTimeout within : Nat) (p : Pipe) : Prop :=
  ∀ n bytes, bytes ≠ [] → Brings byteTimeout within bytes (p.carry n bytes)

theorem Pipe.inTime_direct (byteTimeout within : Nat) : direct.InTime byteTimeout within :=
  fun _ _ h => .direct h

namespace Pair

variable {interval : Nat} {p : Pair}

/-- A pair whose links work, and on which nothing is pending. What is in time for each side is told
by its own clock; a round trip that is in time for the client is bounded by `Pair.RoundTrip`. -/
structure Ready (interval : Nat) (p : Pair) : Prop where
  client : p.client.link.Ready .response
  server : p.server.link.Ready .request
  framing : p.client.link.framing = p.server.link.framing
  isOpen : p.server.isOpen = true
  toServer : p.toServer.InTime p.server.settings.byteTimeout interval
  toClient : p.toClient.InTime p.client.settings.byteTimeout p.client.settings.responseTimeout

/-- The pair `p'` comes from `p` by requests to the device `d`, whose map is `map` after them. -/
structure Serves (d : Device) (map : DataMap) (p p' : Pair) : Prop where
  devices : p'.server.devices = (p.server.putDevice { d with map }).devices
  framing : p'.server.framing = p.server.framing
  settings : p'.client.settings = p.client.settings
  pduAddressing : p'.client.pduAddressing = p.client.pduAddressing

theorem run_onClient {α : Type} {work : ClientM α} {a : α} {c : Client}
    (h : work p.client = .ok a c) : onClient work p = .ok a { p with client := c } := by
  rw [onClient, h]

theorem run_onServer {α : Type} {work : ServerM α} {a : α} {s : Server}
    (h : work p.server = .ok a s) : onServer work p = .ok a { p with server := s } := by
  rw [onServer, h]

theorem workload_pos (l : Link) : 0 < l.workload := Nat.succ_pos _

/-- The frame of a request that the client has sent is carried to the server, and the frame of the
reply back to the client. -/
theorem exchange_of_ready {n : Nat} {d : Device} {message reply : Message} {map : DataMap}
    (hsent : sentBytes (since p.client.link.journal n) = [message.adu])
    (hserver : p.server.link.Ready .request) (hopen : p.server.isOpen = true)
    (hpipe : p.toServer.InTime p.server.settings.byteTimeout interval)
    (hd : p.server.device? message.unit = some d) (hlocal : d.IsLocal)
    (hexception : message.isException = false) (hunit : message.unit.isBroadcast = false)
    (hprocess : ∀ peer, d.process peer .own message = .done ⟨some reply, map, []⟩)
    (hframe : FrameCodec.Delimits ⟨p.server.framing, .request⟩ message.adu message) :
    ∃ s', exchange interval n p = .ok () { p with
        client := { p.client with
          link := p.client.link.withWire (p.client.link.transport.wire.feed
            (p.toClient.carry p.toClient.used (FrameCodec.encode reply))) },
        server := s',
        toServer := { p.toServer with used := p.toServer.used + 1 },
        toClient := { p.toClient with used := p.toClient.used + 1 } } ∧
      Server.Answers d map (FrameCodec.encode reply) p.server s' := by
  let delivered : Server := { p.server with
    link := p.server.link.withWire (p.server.link.transport.wire.feed
      (p.toServer.carry p.toServer.used message.adu)) }
  have hbrings : Brings delivered.settings.byteTimeout interval message.adu
      delivered.link.transport.wire.arrivals := by
    show Brings _ _ _ (p.server.link.transport.wire.arrivals ++ _)
    rw [hserver.arrivals, List.nil_append]
    exact hpipe _ _ hframe.ne_nil
  have hable : delivered.link.Able .request := hserver.toAble.feed _
  have hd' : delivered.device? message.unit = some d := hd
  obtain ⟨s', hsettle, hanswers⟩ := Server.settle_of_brings hd' hlocal hexception hunit hprocess
    hopen hable hbrings hframe (workload_pos delivered.link)
  have hanswered := hanswers.sends.since
  have hdiscard : discard (outcome (onServer (settle interval delivered.link.workload)))
      { p with
        server := delivered, toServer := { p.toServer with used := p.toServer.used + 1 } } =
      .ok () { p with
        server := s', toServer := { p.toServer with used := p.toServer.used + 1 } } :=
    run_discard (run_outcome (run_onServer hsettle))
  refine ⟨s', ?_, ⟨hanswers.sends.framing, hanswers.sends.faults, hanswers.sends.record⟩,
    hanswers.joined, hanswers.arrivals, hanswers.devices, hanswers.settings, hanswers.clients,
    hanswers.isOpen⟩
  rw [exchange, run_get_bind]
  simp only [hsent, Pipe.deliver]
  rw [run_set_bind, run_get_bind]
  rw [run_bind hdiscard, run_get_bind]
  simp only [Server.journal] at hanswered ⊢
  rw [hanswered]
  rfl

theorem permit_of_isSupported {c : Client} {unit : UnitId} {r : Request} (hs : r.IsSupported)
    (hunit : unit.isBroadcast = false) : c.permit unit r = .ok () := by
  have hbroadcast : c.isBroadcast unit = false := by
    rw [Client.isBroadcast, hunit, Bool.false_and]
  cases r with
  | custom code data => exact hs.elim
  | _ =>
    simp only [Client.permit, hbroadcast, Bool.false_and, Bool.false_eq_true, if_false]

/-- A call of a local device ends with what the data model of the device answers, and the device
has the map that the model has then. -/
theorem call_of_ready (h : p.Ready interval) {unit : UnitId} {d : Device} {r : Request}
    (hd : p.server.device? unit = some d) (hlocal : d.IsLocal)
    (hunit : unit.isBroadcast = false) (hs : r.IsSupported) (hsize : r.size ≤ 253) :
    let result := d.map.model.execute d.pduAddressing d.report r
    ∃ map p', call interval unit r p = .ok result.1.padded p' ∧ map.model = result.2 ∧
      map.shape = d.map.shape ∧ p'.Ready interval ∧ Serves d map p p' := by
  intro result
  obtain ⟨header, c₁, hsubmit, hframing, hheader, hjoined₁, harrivals₁, hsends₁⟩ :=
    Client.submit_of_ready h.client unit hsize
  have hmessage : (header.frame .request r.pdu).unit = unit := by
    rw [Message.unit, Header.header_frame, hheader]
  have hexception : (header.frame .request r.pdu).isException = false :=
    Request.isException_frame hs
  obtain ⟨map, hprocess, hmodel, hshape⟩ := Device.process_frame hlocal header hs hsize
  have hdelimits : FrameCodec.Delimits ⟨p.server.framing, .request⟩
      (header.frame .request r.pdu).adu (header.frame .request r.pdu) := by
    rw [Server.framing, ← h.framing, ← hframing]
    exact Request.delimits header (fun _ => hs) hsize
  let reply := header.frame .response (Reply.pdu (result.1.mapError (⟨r.function, ·⟩)))
  obtain ⟨s', hexchange, hanswers⟩ := exchange_of_ready (p := { p with client := c₁ })
    hsends₁.link.since h.server h.isOpen h.toServer (by rw [hmessage]; exact hd) hlocal hexception
    (by rw [hmessage]; exact hunit) hprocess hdelimits
  let c₂ : Client := { c₁ with
    link := c₁.link.withWire (c₁.link.transport.wire.feed
      (p.toClient.carry p.toClient.used (FrameCodec.encode reply))) }
  obtain ⟨c₃, hcollect, hjoined₃, harrivals₃, hsends₃⟩ := Client.collect_frame (c := c₂)
    header ⟨hjoined₁.faultless, hjoined₁.channel⟩
    (hframing.trans hsends₁.link.framing.symm) hs (d.isSendable_execute hs)
    (fun _ hresponse => DataModel.function_of_execute hresponse) <| by
      intro bytes hne hbytes
      show Brings c₁.settings.byteTimeout c₁.settings.responseTimeout _
        (c₁.link.transport.wire.arrivals ++ p.toClient.carry _ (FrameCodec.encode reply))
      rw [harrivals₁, List.nil_append, hsends₁.settings, Header.encode_frame, ← hbytes]
      exact h.toClient _ _ hne
  have hsettings : c₃.settings = p.client.settings := hsends₃.settings.trans hsends₁.settings
  refine ⟨map, ⟨c₃, s', { p.toServer with used := p.toServer.used + 1 },
    { p.toClient with used := p.toClient.used + 1 }⟩, ?_, hmodel, hshape, ?_, ?_⟩
  · have hsubmit' : onClient (Client.recovering (Client.submit unit r)) p =
        .ok ⟨header, r⟩ { p with client := c₁ } :=
      run_onClient (Client.run_recovering hsubmit)
    have hcollect' := run_onClient (p := { p with
      client := c₂, server := s', toServer := { p.toServer with used := p.toServer.used + 1 },
      toClient := { p.toClient with used := p.toClient.used + 1 } })
      (Client.run_recovering hcollect)
    have hbroadcast : p.client.isBroadcast unit = false := by
      rw [Client.isBroadcast, hunit, Bool.false_and]
    rw [call, run_get_bind, permit_of_isSupported hs hunit]
    dsimp only
    rw [run_bind hsubmit', run_bind hexchange]
    simp only [hbroadcast, Bool.false_eq_true, if_false]
    exact hcollect'
  · exact ⟨hjoined₃.ready harrivals₃, hanswers.joined.ready hanswers.arrivals,
      (hsends₃.link.framing.trans hsends₁.link.framing).trans
        (h.framing.trans hanswers.sends.framing.symm),
      hanswers.isOpen.trans h.isOpen,
      fun n bytes hne => by rw [hanswers.settings]; exact h.toServer n bytes hne,
      fun n bytes hne => by rw [hsettings]; exact h.toClient n bytes hne⟩
  · exact ⟨hanswers.devices, hanswers.sends.framing, hsettings,
      hsends₃.pduAddressing.trans hsends₁.pduAddressing⟩

end Pair

end Modbus

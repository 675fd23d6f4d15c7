import Modbus.Proofs.Client.Session
import Modbus.Proofs.Link.Blind

/-! Bytes that are there before a request is sent. Those that have been read do not count for it,
but those that have arrived and have not been read do: they are the first that a call finds when it
waits for the answer, whatever the peer sends later. -/

namespace Modbus

namespace Received

variable {codec : FrameCodec} {byteTimeout : Nat}

/-- A wait does not time out when what arrives without a pause cannot be a part of a frame. -/
theorem await_ne_timeout {groups : List (List UInt8)} (hgroups : ∀ group ∈ groups, group ≠ [])
    {last : List UInt8} (hlast : last ≠ []) {buffer : List UInt8} {deadline now : Nat}
    (h : codec.split (buffer ++ groups.flatten ++ last) ≠ .incomplete) :
    (await codec byteTimeout deadline buffer now
      (groups.map .bytes ++ [.bytes last])).result ≠ .error .timeout := by
  induction groups generalizing buffer deadline now with
  | nil =>
    obtain ⟨b, bs, rfl⟩ := List.exists_cons_of_ne_nil hlast
    rw [List.flatten_nil, List.append_nil] at h
    rw [List.map_nil, List.nil_append, await]
    split
    · rename_i houtcome
      exact Split.ne_timeout_of_outcome? houtcome
    · rename_i houtcome
      rcases hsplit : codec.split (buffer ++ b :: bs) <;> rw [hsplit] at houtcome <;>
        cases houtcome
      exact (h hsplit).elim
  | cons group groups ih =>
    obtain ⟨b, bs, rfl⟩ := List.exists_cons_of_ne_nil (hgroups group List.mem_cons_self)
    rw [List.flatten_cons, ← List.append_assoc] at h
    rw [List.map_cons, List.cons_append, await]
    split
    · rename_i houtcome
      exact Split.ne_timeout_of_outcome? houtcome
    · exact ih (fun group hgroup => hgroups group (List.mem_cons_of_mem _ hgroup)) h

/-- A wait for the rest of a frame that never comes times out. -/
theorem await_part {part : List UInt8} (hpart : codec.split part = .incomplete)
    {deadline now : Nat} (hne : part ≠ []) :
    (await codec byteTimeout deadline [] now [.bytes part]).result = .error .timeout := by
  obtain ⟨b, bs, rfl⟩ := List.exists_cons_of_ne_nil hne
  simp only [await, List.nil_append, hpart, Split.outcome?, setting_result]

end Received

namespace Client

variable {α : Type} {c c' : Client} {unit : UnitId} {request : Request} {p : Pending}
  {channel : Option Channel → Option Channel} {buffer : List UInt8} {arrivals : List Arrival}

/-- The client with another channel and with other arrivals to come. -/
def given (channel : Option Channel → Option Channel) (arrivals : List Arrival) (c : Client) :
    Client :=
  { c with link := c.link.given channel arrivals }

/-- The client if `buffer` were left of earlier reads and `arrivals` were to come. -/
def hearing (buffer : List UInt8) (arrivals : List Arrival) (c : Client) : Client :=
  c.given (Option.map fun channel => { channel with buffer }) arrivals

theorem exists_hearing (arrivals : List Arrival) (c : Client) :
    ∃ buffer, c.given id arrivals = c.hearing buffer arrivals := by
  rcases hchannel : c.link.channel with _ | channel
  · exact ⟨[], by simp only [hearing, given, Link.given, hchannel, id, Option.map_none]⟩
  · exact ⟨channel.buffer, by simp only [hearing, given, Link.given, hchannel, id, Option.map_some]⟩

theorem hearing_of_not_isConnected (h : ¬ c.isConnected = true) :
    c.hearing buffer arrivals = c.given id arrivals := by
  rcases hchannel : c.link.channel with _ | channel
  · simp only [hearing, given, Link.given, hchannel, id, Option.map_none]
  · rw [isConnected, Link.isConnected, hchannel] at h
    exact (h rfl).elim

theorem isConnected_hearing : (c.hearing buffer arrivals).isConnected = c.isConnected := by
  rcases hchannel : c.link.channel with _ | channel <;>
    simp only [isConnected, Link.isConnected, hearing, given, Link.given, hchannel, Option.map_none,
      Option.map_some, Option.isSome]

/-! ### Submitting -/

theorem blind_onLink {work : LinkM α} (h : Blind (Link.given channel arrivals) work) :
    Blind (given channel arrivals) (onLink work) := by
  intro c
  have hlink : (given channel arrivals c).link = c.link.given channel arrivals := rfl
  rw [onLink, onLink, hlink, h c.link]
  rcases work c.link with ⟨a, l⟩ | ⟨e, l⟩ <;> rfl

theorem blind_connect : Blind (given id arrivals) connect := by
  refine .get_bind (fun _ => rfl) fun c => ?_
  dsimp only
  split
  · exact .pure _
  · refine .bind (blind_onLink (Link.blind_perform .opening)) fun _ =>
      .bind (blind_onLink (Link.blind_connect .response c.settings.debug none))
        fun connected => ?_
    have hreset : Blind (given id arrivals)
        (modify fun c => { c with reconnectAt := none } : ClientM PUnit) :=
      .modify fun _ => rfl
    split
    · exact hreset
    · exact .bind (.throw _) fun _ => hreset

theorem blind_ensureConnected : Blind (given id arrivals) ensureConnected := by
  refine .get_bind (fun _ => rfl) fun c => ?_
  dsimp only
  split
  · exact .pure _
  · split
    · exact .bind (blind_onLink (Link.blind_sleepUntil _)) fun _ => blind_connect
    · exact blind_connect

theorem blind_nextHeader (unit : UnitId) : Blind (given channel arrivals) (nextHeader unit) := by
  intro c
  have hframing : (given channel arrivals c).link.framing = c.link.framing := rfl
  rw [nextHeader, run_get_bind, run_get_bind, hframing]
  rcases c.link.framing with _ | _ <;> rfl

/-- A header is made in the same way whatever has been received. -/
theorem announce_hearing {header : Header} (h : announce unit c = .ok header c')
    (buffer : List UInt8) (arrivals : List Arrival) :
    ∃ buffer', announce unit (c.hearing buffer arrivals) =
      .ok header (c'.hearing buffer' arrivals) := by
  obtain ⟨⟨⟩, c₀, hconnect, hheader⟩ := of_run_bind h
  -- A stream that is there keeps its buffer; one that is connected now begins with its own.
  by_cases hconnected : c.isConnected = true
  · rw [ensureConnected_of_isConnected hconnected] at hconnect
    cases hconnect
    refine ⟨buffer, ?_⟩
    rw [announce, run_bind (ensureConnected_of_isConnected (isConnected_hearing.trans hconnected))]
    exact (blind_nextHeader unit).run hheader
  · obtain ⟨buffer', hbuffer'⟩ := exists_hearing arrivals c'
    refine ⟨buffer', ?_⟩
    rw [hearing_of_not_isConnected hconnected, announce,
      run_bind (blind_ensureConnected.run hconnect), ← hbuffer']
    exact (blind_nextHeader unit).run hheader

theorem clearBuffer_hearing (c : Client) :
    after (onLink Link.clearBuffer) (c.hearing buffer arrivals) =
      (after (onLink Link.clearBuffer) c).given id arrivals := by
  have hchannel : (c.link.channel.map fun channel => { channel with buffer }).map
      (fun channel => { channel with buffer := [] }) =
        c.link.channel.map fun channel => { channel with buffer := [] } := by
    rw [Option.map_map]
    rfl
  exact congrArg (fun channel => { c with link :=
    { c.link.withWire { c.link.transport.wire with arrivals } with channel } }) hchannel

/-- A request is sent in the same way whatever has been received, and then nothing is left of what
has been read. -/
theorem dispatch_hearing {header : Header} (h : dispatch request header c = .ok p c')
    (buffer : List UInt8) (arrivals : List Arrival) :
    dispatch request header (c.hearing buffer arrivals) = .ok p (c'.given id arrivals) := by
  rcases hmessage : Message.ofRequest header request with e | message
  · rw [dispatch, hmessage] at h
    cases h
  · rw [dispatch, hmessage] at h ⊢
    have hclear : ∀ c, onLink Link.clearBuffer c = .ok ⟨⟩ (after (onLink Link.clearBuffer) c) :=
      fun _ => rfl
    dsimp only at h ⊢
    rw [run_bind (hclear _)] at h ⊢
    rw [clearBuffer_hearing]
    have hsend : Blind (given id arrivals) (do
        onLink (Link.send message)
        return ⟨header, request⟩ : ClientM Pending) :=
      .bind (blind_onLink (Link.blind_send message)) fun _ => .pure _
    exact hsend.run h

theorem submit_hearing (h : submit unit request c = .ok p c') (buffer : List UInt8)
    (arrivals : List Arrival) :
    submit unit request (c.hearing buffer arrivals) = .ok p (c'.given id arrivals) := by
  rw [submit_eq] at h ⊢
  obtain ⟨header, c₁, hannounce, hdispatch⟩ := of_run_bind h
  obtain ⟨buffer', hannounce'⟩ := announce_hearing hannounce buffer arrivals
  rw [run_bind hannounce']
  exact dispatch_hearing hdispatch buffer' arrivals

theorem blind_dispatch (request : Request) (header : Header) :
    Blind (given id arrivals) (dispatch request header) := by
  rw [dispatch]
  split
  · exact .throw _
  · exact .bind (blind_onLink (.modify fun _ => rfl)) fun _ =>
      .bind (blind_onLink (Link.blind_send _)) fun _ => .pure _

/-- What is still to arrive does not count before a request has been sent, also when that fails. -/
theorem blind_submit (unit : UnitId) (request : Request) :
    Blind (given id arrivals) (submit unit request) := by
  rw [submit_eq, announce]
  exact .bind (.bind blind_ensureConnected fun _ => blind_nextHeader unit) (blind_dispatch request)

/-- A client that has connected reads responses on a new stream, of which it has read nothing. -/
theorem channel_of_connect (hc : c.isConnected = false) (h : connect c = .ok () c') :
    ∃ peer, c'.link.channel = some ⟨.client c.link.framing, [], peer, c.settings.debug⟩ := by
  rw [connect, run_get_bind, if_neg (Bool.not_eq_true _ ▸ hc)] at h
  obtain ⟨_, c₁, hopen, hrest⟩ := of_run_bind h
  obtain ⟨connected, c₂, hconnect, hend⟩ := of_run_bind hrest
  obtain ⟨l₁, hopened, rfl⟩ := of_onLink hopen
  obtain ⟨l₂, hlink, rfl⟩ := of_onLink hconnect
  have hspares : c.link.Spares l₁ := (Link.sparing_perform .opening).of_ok hopened
  cases connected with
  | false => cases hend
  | true =>
    cases hend
    obtain ⟨peer, hchannel, -⟩ := Link.connect_spec hlink
    exact ⟨peer, by rw [hchannel, hspares.framing]; rfl⟩

theorem isConnected_of_connect (h : connect c = .ok () c') : c'.isConnected = true := by
  rcases hconnected : c.isConnected with _ | _
  · obtain ⟨peer, hchannel⟩ := channel_of_connect hconnected h
    rw [isConnected, Link.isConnected, hchannel]
    rfl
  · rw [connect, run_get_bind, if_pos hconnected] at h
    cases h
    exact hconnected

theorem isConnected_of_ensureConnected (h : ensureConnected c = .ok () c') :
    c'.isConnected = true := by
  by_cases hthere : c.isConnected = true
  · rw [ensureConnected_of_isConnected hthere] at h
    cases h
    exact hthere
  · rw [ensureConnected, run_get_bind, if_neg hthere] at h
    rcases hreconnect : c.reconnectAt with _ | t <;> rw [hreconnect] at h
    · exact isConnected_of_connect h
    · obtain ⟨_, c₁, -, hrest⟩ := of_run_bind h
      exact isConnected_of_connect hrest

theorem isConnected_of_announce {header : Header} (h : announce unit c = .ok header c') :
    c'.isConnected = true := by
  obtain ⟨⟨⟩, c₀, hconnect, hheader⟩ := of_run_bind h
  have hconnected := isConnected_of_ensureConnected hconnect
  rw [nextHeader, run_get_bind] at hheader
  rcases hframing : c₀.link.framing with _ | _ <;> rw [hframing] at hheader <;> cases hheader <;>
    exact hconnected

/-- When a request has been sent, its answer is awaited on an empty buffer. -/
theorem channel_of_submit (h : submit unit request c = .ok p c') (hc : c.link.IsFor .response) :
    ∃ peer debug, c'.link.channel = some ⟨.client c.link.framing, [], peer, debug⟩ := by
  rw [submit_eq] at h
  obtain ⟨header, c₁, hannounce, hdispatch⟩ := of_run_bind h
  obtain ⟨hkeeps, -⟩ := of_announce hannounce
  obtain ⟨channel, hchannel⟩ := Option.isSome_iff_exists.mp (isConnected_of_announce hannounce)
  have hcodec : channel.codec = .client c.link.framing := by
    rw [hkeeps.isFor hc channel hchannel, hkeeps.framing]
    rfl
  refine ⟨channel.peer, channel.debug, ?_⟩
  rw [(of_dispatch hdispatch).2, hchannel, Option.map_some, ← hcodec]

/-! ### What a call comes to -/

theorem resultOf_call (hpermit : c.permit unit request = .ok ())
    (hunit : c.isBroadcast unit = false) (h : submit unit request c = .ok p c') :
    resultOf (call unit request) c = resultOf (collect p) c' := by
  rw [resultOf, resultOf, call_of_permit hpermit, recovering_eq, transact_of_submit h, hunit,
    if_neg Bool.false_ne_true]
  rcases collect p c' with ⟨a, c''⟩ | ⟨e, c''⟩ <;> rfl

theorem resultOf_collect {ch : Channel} (hc : c.link.channel = some ch) :
    resultOf (collect p) c =
      (Received.start ch.codec c.settings.responseTimeout c.settings.byteTimeout ch.buffer
        c.link.journal.now c.link.transport.wire.arrivals).result >>= p.accept := by
  have hreceive : Link.receive c.settings.responseTimeout c.settings.byteTimeout c.link = _ :=
    Link.receive_eq hc
  generalize Received.start ch.codec c.settings.responseTimeout c.settings.byteTimeout ch.buffer
    c.link.journal.now c.link.transport.wire.arrivals = r at hreceive ⊢
  rcases hresult : r.result with e | m <;> rw [hresult] at hreceive
  · have hlink : onLink (Link.receive c.settings.responseTimeout c.settings.byteTimeout) c =
        .error e { c with link := c.link.hasReceived ch r } := by
      rw [onLink, hreceive]
    rw [resultOf, collect, run_get_bind, run_bind_of_error hlink]
    rfl
  · have hlink : onLink (Link.receive c.settings.responseTimeout c.settings.byteTimeout) c =
        .ok m { c with link := c.link.hasReceived ch r } := run_onLink hreceive
    rw [resultOf, collect, run_get_bind, run_bind hlink]
    show _ = p.accept m
    rcases p.accept m with e | answer <;> rfl

theorem accept_ne_timeout (m : Message) : p.accept m ≠ .error .timeout := by
  rw [Pending.accept]
  split
  · rintro ⟨⟩
  · split
    · rintro ⟨⟩
    · split <;> rintro ⟨⟩

theorem bind_accept_ne_timeout {result : Except Error Message} (h : result ≠ .error .timeout) :
    result >>= p.accept ≠ .error .timeout := by
  rcases result with e | m
  · intro he
    cases he
    exact h rfl
  · exact accept_ne_timeout m

/-- What a call comes to follows from what arrives, whatever is left of earlier reads. -/
theorem resultOf_call_hearing (hpermit : c.permit unit request = .ok ())
    (hunit : c.isBroadcast unit = false) (hc : c.link.IsFor .response)
    (h : submit unit request c = .ok p c') (buffer : List UInt8) (arrivals : List Arrival) :
    resultOf (call unit request) (c.hearing buffer arrivals) =
      (Received.await (.client c.link.framing) c'.settings.byteTimeout
        (c'.link.journal.now + c'.settings.responseTimeout) [] c'.link.journal.now
        arrivals).result >>= p.accept := by
  have hsubmit := submit_hearing h buffer arrivals
  obtain ⟨peer, debug, hchannel⟩ := channel_of_submit h hc
  have hgiven : (c'.given id arrivals).link.channel =
      some ⟨.client c.link.framing, [], peer, debug⟩ := hchannel
  have hpermit' : (c.hearing buffer arrivals).permit unit request = .ok () := hpermit
  have hunit' : (c.hearing buffer arrivals).isBroadcast unit = false := hunit
  rw [resultOf_call hpermit' hunit' hsubmit, resultOf_collect hgiven]
  have hempty : (FrameCodec.client c.link.framing).split [] = .incomplete := by
    cases c.link.framing <;> rfl
  simp only [Received.start, hempty, Split.outcome?]
  rfl

end Client

namespace Session

open Client (submit)

variable {s : Session} {unit : UnitId} {request : Request}

/-- What is left of earlier reads does not count for a request that is sent. Bytes that have arrived
and have not been read do: what the peer sends later can tell whether they are there. -/
theorem resultOf_call_eq_iff (hs : s.Reach) (hpermit : s.client.permit unit request = .ok ())
    (hunit : s.client.isBroadcast unit = false) {p : Client.Pending} {c : Client}
    (hsubmit : submit unit request s.client = .ok p c) (buffer : List UInt8)
    {groups : List (List UInt8)} (hgroups : ∀ group ∈ groups, group ≠ []) :
    (∀ later, resultOf (Client.call unit request)
        (s.client.hearing buffer (groups.map .bytes ++ later)) =
      resultOf (Client.call unit request) (s.client.hearing [] later)) ↔ groups = [] := by
  have hcall := Client.resultOf_call_hearing hpermit hunit hs.good.isFor hsubmit
  constructor
  · -- The longest beginning of a frame, and nothing after it: alone it is waited on in vain, but
    -- behind bytes that are there already it is too long for a beginning, and the wait ends with it.
    intro hsame
    by_contra hne
    obtain ⟨part, hpart, hsplit, hlong⟩ := FrameCodec.exists_part s.client.link.framing
    have hflat : groups.flatten ≠ [] := by
      obtain ⟨group, rest, rfl⟩ := List.exists_cons_of_ne_nil hne
      rw [List.flatten_cons]
      exact List.append_ne_nil_of_left_ne_nil (hgroups group List.mem_cons_self) _
    have htimeout := hsame [.bytes part]
    rw [hcall, hcall, Received.await_part hsplit hpart] at htimeout
    exact Client.bind_accept_ne_timeout
      (Received.await_ne_timeout hgroups hpart (hlong _ hflat)) htimeout
  · rintro rfl later
    rw [List.map_nil, List.nil_append, hcall, hcall]

/-- The answer to a first request comes twice in one read, and then it comes once more. The second
one is forgotten when another request is sent, the third one is not. -/
theorem resultOf_call_eq_iff_registers :
    let answer := ((Header.tcp 1 ⟨7⟩).frame .response [0x03, 2, 0, 11]).adu
    let request := Request.readHoldingRegisters 0 1
    let transport : Transport := ⟨.attached .tcp true,
      { Wire.quiet "client" with arrivals := [.bytes (answer ++ answer)] }⟩
    let s : Session := (⟨.ofTransport transport .standard true, []⟩ : Session).call ⟨7⟩ request
    let p : Client.Pending := ⟨.tcp 2 ⟨7⟩, request⟩
    let c := after (submit ⟨7⟩ request) s.client
    let outcome := fun buffer arrivals =>
      resultOf (Client.call ⟨7⟩ request) (s.client.hearing buffer arrivals)
    (s.Reach ∧ s.client.permit ⟨7⟩ request = .ok () ∧ s.client.isBroadcast ⟨7⟩ = false ∧
      submit ⟨7⟩ request s.client = .ok p c) ∧
      (∀ later, outcome answer later = outcome [] later) ∧
      ∃ later, outcome answer (.bytes answer :: later) ≠ outcome [] later := by
  intro answer request transport s p c outcome
  have hreach : s.Reach := .call _ _ (.start _ _ _)
  have hpermit : s.client.permit ⟨7⟩ request = .ok () := rfl
  have hunit : s.client.isBroadcast ⟨7⟩ = false := by decide
  have hsubmit : submit ⟨7⟩ request s.client = .ok p c := by
    subst c p s transport request answer
    rfl
  have hiff := fun (groups : List (List UInt8)) (hgroups : ∀ group ∈ groups, group ≠ []) =>
    resultOf_call_eq_iff hreach hpermit hunit hsubmit answer hgroups
  refine ⟨⟨hreach, hpermit, hunit, hsubmit⟩, (hiff [] nofun).mpr rfl, ?_⟩
  by_contra hnone
  rw [not_exists] at hnone
  have hgroup : ∀ group ∈ [answer], group ≠ [] := by decide
  have hempty : [answer] = [] := (hiff [answer] hgroup).mp fun later => not_not.mp (hnone later)
  exact List.cons_ne_nil _ _ hempty

/-- A peer answers a first request twice and each later one correctly and in time. The second answer
has arrived, but it has not been read when the next request is sent: it is taken for the answer to
this request, the answer to this request for the one to the request after it, and both calls
fail. -/
theorem unread_answer_persists :
    let answer := fun (transaction : UInt16) (value : UInt8) =>
      ((Header.tcp transaction ⟨7⟩).frame .response [0x03, 2, 0, value]).adu
    let ask := Client.call ⟨7⟩ (.readHoldingRegisters 0 1)
    let fed := fun (arrivals : List Arrival) (c : Client) =>
      { c with link := c.link.withWire (c.link.transport.wire.feed arrivals) }
    let settings := { LinkSettings.standard with recovery := true }
    let c₁ := fed [.bytes (answer 1 11)]
      (Client.ofTransport ⟨.attached .tcp true, .quiet "client"⟩ settings false)
    let extra := [.bytes (answer 1 11)]
    let c₂ := fed (extra ++ [.pause 5, .bytes (answer 2 12)]) (after ask c₁)
    let c₃ := fed [.pause 5, .bytes (answer 3 13)] (after ask c₂)
    resultOf ask c₁ = .ok (.ok (.readHoldingRegisters [11])) ∧
      resultOf ask (c₂.hearing [] [.pause 5, .bytes (answer 2 12)]) =
        .ok (.ok (.readHoldingRegisters [12])) ∧
      resultOf ask c₂ = .error (.protocol (.headerMismatch (.tcp 2 ⟨7⟩) (.tcp 1 ⟨7⟩)
        (.ok (.readHoldingRegisters [11])))) ∧
      resultOf ask c₃ = .error (.protocol (.headerMismatch (.tcp 3 ⟨7⟩) (.tcp 2 ⟨7⟩)
        (.ok (.readHoldingRegisters [12])))) := by
  refine ⟨?_, ?_, ?_, ?_⟩ <;> rfl

end Session

end Modbus

import Modbus.Proofs.Client.Exchange
import Modbus.Proofs.Client.Recovery
import Modbus.Proofs.Link.Writes

/-! Broadcasts of a client. To all units of a serial line a client sends nothing but writes, each in
one frame, and it reads no answer: unless the transport fails, the confirmation is its own. -/

namespace Modbus

/-! ### Speaking without listening -/

/-- The link `l'` comes from `l` by work that has written `groups` of bytes to the wire and has read
nothing from it. -/
structure Link.Speaks (groups : List (List UInt8)) (l l' : Link) : Prop where
  writes : l.Writes l.transport.wire.name groups l'
  arrivals : l'.transport.wire.arrivals = l.transport.wire.arrivals

/-- The transport has failed, or what was asked of it cannot be sent. -/
def Error.IsTransport (e : Error) : Prop := ∃ fault, e = .transport fault

abbrev FailsWithTransport {σ α : Type} (work : EStateM Error σ α) : Prop :=
  Throws Error.IsTransport work

theorem Honest.failsWithTransport {σ α : Type} {link : σ → Link} {actions : List Action}
    {work : EStateM Error σ α} (h : Honest link actions work) : FailsWithTransport work := by
  intro s e s' he
  obtain ⟨a, -, kind, -, rfl⟩ := h.fails s e s' he
  exact ⟨_, rfl⟩

namespace Link

variable {groups groups' : List (List UInt8)} {tried : List Action} {l l' l'' : Link}

theorem Speaks.trans (h : l.Speaks groups l') (h' : l'.Speaks groups' l'') :
    l.Speaks (groups ++ groups') l'' :=
  ⟨h.writes.trans (h.writes.name ▸ h'.writes), h'.arrivals.trans h.arrivals⟩

theorem Tries.silent (h : l.Tries tried l') (wire : String) : Silent wire id l l' := by
  obtain ⟨actions, -, hrecord⟩ := h.record
  refine ⟨h.name, _, hrecord, ?_⟩
  rw [List.filterMap_map]
  exact List.filterMap_eq_nil_iff.mpr fun _ _ => rfl

theorem Tries.speaks (h : l.Tries tried l') : l.Speaks [] l' :=
  ⟨h.silent l.transport.wire.name, h.arrivals⟩

/-- Sending a message speaks its frame, if sending can begin. -/
theorem speaks_send (message : Message) (l : Link) :
    l.Speaks [FrameCodec.encode message] (after (send message) l) ∨
      l.Speaks [] (after (send message) l) ∧ ∃ e, resultOf (send message) l = .error e := by
  have hspares : l.Spares (after (send message) l) := sparing_send message l
  have hsend := @writes_send l.transport.wire.name message l
  rcases hsend with hwrites | ⟨hwrites, e, hfails, -⟩
  · rw [share, if_pos rfl] at hwrites
    exact .inl ⟨hwrites, hspares.arrivals⟩
  · exact .inr ⟨⟨hwrites, hspares.arrivals⟩, e, by rw [resultOf, hfails]⟩

theorem failsWithTransport_connect (role : Role) (debug : Bool) (deadline : Option Nat) :
    FailsWithTransport (connect role debug deadline) := by
  intro l e l' h
  cases unmet_of_connect h with
  | failed hfails =>
    obtain ⟨a, -, kind, -, rfl⟩ := hfails
    exact ⟨_, rfl⟩
  | refused | detached => exact ⟨_, rfl⟩

end Link

namespace Client

variable {c c' : Client} {unit : UnitId} {request : Request}

/-! ### Before and after the frame -/

theorem failsWithTransport_connect : FailsWithTransport connect := by
  refine .bind .get fun c => ?_
  dsimp only
  split
  · exact .pure _
  · refine .bind (throws_onLink (Link.honest_perform .opening).failsWithTransport) fun _ =>
      .bind (throws_onLink (Link.failsWithTransport_connect _ _ _)) fun connected => ?_
    split
    · exact .modify _
    · exact .bind (.throw ⟨_, rfl⟩) fun _ => .modify _

theorem failsWithTransport_ensureConnected : FailsWithTransport ensureConnected := by
  intro c e c' h
  rcases hconnected : c.isConnected with _ | _
  · rw [ensureConnected_of_not_isConnected hconnected] at h
    exact failsWithTransport_connect _ _ _ h
  · rw [ensureConnected_of_isConnected hconnected] at h
    cases h

theorem trying_ensureConnected :
    Within (Trying [.opening, .connecting] Client.link) ensureConnected := by
  intro c
  rcases hconnected : c.isConnected with _ | _
  · obtain ⟨t, hdue⟩ := whenDue_spec c
    have hwait : c.link.Tries [.opening, .connecting] c.whenDue.link := by
      rw [hdue]
      exact Link.trying_sleepUntil t c.link
    rw [after, ensureConnected_of_not_isConnected hconnected]
    exact hwait.trans (trying_connect c.whenDue)
  · rw [after, ensureConnected_of_isConnected hconnected]
    exact refl c

theorem trying_recover (e : Error) :
    Within (Trying [.shutdown, .closing] Client.link) (recover e) := by
  have hperform : ∀ a ∈ [Action.shutdown, .closing],
      Within (Trying [.shutdown, .closing] Client.link) (onLink (Link.perform a)) :=
    fun a ha => trying_onLink (Link.trying_perform ha)
  have hdisconnect : Within (Trying [.shutdown, .closing] Client.link) disconnect := by
    refine .bind .get fun c => ?_
    split
    · refine .bind (trying_onLink (.modify fun _ => .of_journal_eq rfl rfl rfl)) fun _ =>
        .bind (.outcome (hperform .shutdown List.mem_cons_self)) fun ended =>
          .bind (hperform .closing (by decide)) fun _ => ?_
      split
      · exact .pure _
      · exact .throw _
    · exact .pure _
  refine .bind .get fun c => ?_
  split
  · exact .bind (.map _ (.outcome hdisconnect)) fun _ => .bind .get fun c =>
      .bind (trying_onLink (Link.trying_setDeadline _)) fun _ =>
        .modify fun c => Link.Tries.refl c.link
  · exact .pure _

/-! ### Broadcasts -/

/-- The frame of a broadcast. -/
def broadcastFrame (unit : UnitId) (request : Request) : List UInt8 :=
  ((Header.rtu unit).frame .request request.pdu).adu

/-- What a broadcast that is sent leaves: its frame has been written, or it has not because of the
transport, and nothing has been read. -/
def Spoken (unit : UnitId) (request : Request) (c : Client) {α : Type} :
    EStateM.Result Error Client α → Prop
  | .ok _ c' => c.link.Speaks [broadcastFrame unit request] c'.link
  | .error e c' => e.IsTransport ∧
    (c.link.Speaks [] c'.link ∨ c.link.Speaks [broadcastFrame unit request] c'.link)

/-- A request that fits is sent on a link whose stream has nothing left of earlier reads. -/
theorem dispatch_eq (hsize : request.size ≤ 253) (header : Header) (c : Client) :
    let cleared := after Link.clearBuffer c.link
    dispatch request header c =
      match Link.send (header.frame .request request.pdu) cleared with
      | .ok _ l => .ok ⟨header, request⟩ { c with link := l }
      | .error e l => .error e { c with link := l } := by
  intro cleared
  have hmessage : Message.ofRequest header request = .ok (header.frame .request request.pdu) :=
    if_neg (Nat.not_lt.mpr hsize)
  have hclear : onLink Link.clearBuffer c = .ok ⟨⟩ { c with link := cleared } := rfl
  rw [dispatch, hmessage]
  dsimp only
  rw [run_bind hclear]
  rcases hsend : Link.send (header.frame .request request.pdu) cleared with ⟨_, l⟩ | ⟨e, l⟩
  · rw [run_bind (run_onLink hsend)]
    rfl
  · rw [run_bind_of_error (run_onLink_of_error hsend)]

theorem spoken_dispatch (hsize : request.size ≤ 253) (unit : UnitId) (c : Client) :
    Spoken unit request c (dispatch request (.rtu unit) c) := by
  have hquiet : c.link.Speaks [] (after Link.clearBuffer c.link) :=
    ⟨Link.silent_of_same rfl rfl, rfl⟩
  have hspeaks := Link.speaks_send ((Header.rtu unit).frame .request request.pdu)
    (after Link.clearBuffer c.link)
  have hframe : FrameCodec.encode ((Header.rtu unit).frame .request request.pdu) =
      broadcastFrame unit request := Header.encode_frame
  rw [hframe] at hspeaks
  rw [dispatch_eq hsize]
  generalize after Link.clearBuffer c.link = cleared at hquiet hspeaks ⊢
  rcases hsend : Link.send ((Header.rtu unit).frame .request request.pdu) cleared
    with ⟨_, l⟩ | ⟨e, l⟩ <;> rw [after, resultOf, hsend] at hspeaks
  · rcases hspeaks with h | ⟨-, e, he⟩
    · exact hquiet.trans h
    · cases he
  · refine ⟨(Link.honest_send _).failsWithTransport _ _ _ hsend, ?_⟩
    rcases hspeaks with h | ⟨h, -⟩
    · exact .inr (hquiet.trans h)
    · exact .inl (hquiet.trans h)

/-- A broadcast that may be sent ends with the confirmation that the client gives itself. -/
theorem exchange_rtu (hrtu : c.link.framing = .rtu) {response : Response}
    (hecho : request.echo? = some response) :
    exchange unit request true c =
      match dispatch request (.rtu unit) c with
      | .ok _ c' => .ok (.ok response) c'
      | .error e c' => .error e c' := by
  have hheader : nextHeader unit c = .ok (.rtu unit) c := by
    rw [nextHeader, run_get_bind, hrtu]
    rfl
  rw [exchange, run_bind hheader]
  rcases hdispatch : dispatch request (.rtu unit) c with ⟨p, c'⟩ | ⟨e, c'⟩
  · rw [run_bind hdispatch, unanswered, hecho]
    rfl
  · rw [run_bind_of_error hdispatch]

/-- The client can send: nothing fails on its link, and a stream is connected or can be. -/
structure CanSpeak (c : Client) : Prop where
  faultless : c.link.Faultless
  connects : c.isConnected = true ∨ c.link.CanConnect

theorem CanSpeak.ensureConnected (h : c.CanSpeak) :
    ∃ c', Client.ensureConnected c = .ok ⟨⟩ c' ∧ c'.link.Faultless := by
  rcases hconnected : c.isConnected with _ | _
  · obtain ⟨t, hdue⟩ := whenDue_spec c
    have hcan : c.link.CanConnect := by
      rcases h.connects with hc | hc
      · rw [hc] at hconnected
        cases hconnected
      · exact hc
    have hnone : c.link.channel = none :=
      Option.not_isSome_iff_eq_none.mp (Bool.not_eq_true _ ▸ hconnected)
    obtain ⟨c', hconnect, -, -, hsends⟩ := connect_of_canConnect (c := c.whenDue)
      (by rw [hdue]; exact hnone) (by rw [hdue]; exact h.faultless) (by rw [hdue]; exact hcan)
    refine ⟨c', (ensureConnected_of_not_isConnected hconnected).trans hconnect, ?_⟩
    exact hsends.link.faultless (by rw [hdue]; exact h.faultless)
  · exact ⟨c, ensureConnected_of_isConnected hconnected, h.faultless⟩

theorem dispatch_of_faultless (hsize : request.size ≤ 253) (h : c.link.Faultless)
    (header : Header) : ∃ p c', dispatch request header c = .ok p c' := by
  obtain ⟨l, hsend, -⟩ := Link.send_of_faultless (l := after Link.clearBuffer c.link) h
    (header.frame .request request.pdu)
  refine ⟨⟨header, request⟩, { c with link := l }, ?_⟩
  rw [dispatch_eq hsize, hsend]

/-! ### Calls -/

/-- What a call to all units of a line with a write that fits comes to. -/
structure Broadcasts (unit : UnitId) (request : Request) (c : Client) : Prop where
  spoken : Spoken unit request c (call unit request c)
  confirmed : ∀ answer c', call unit request c = .ok answer c' →
    ∃ response, request.echo? = some response ∧ answer = .ok response
  succeeds : c.CanSpeak → ∃ answer c', call unit request c = .ok answer c'

theorem permit_eq (h : ∀ code data, request ≠ .custom code data) :
    c.permit unit request =
      if c.isBroadcast unit && !request.isWrite then .error (.broadcast request.function)
      else .ok () := by
  cases request <;> first | rfl | exact (h _ _ rfl).elim

theorem permit_of_isWrite (h : request.isWrite = true) : c.permit unit request = .ok () := by
  have hstandard : ∀ code data, request ≠ .custom code data := by
    rintro code data rfl
    cases h
  rw [permit_eq hstandard, h, Bool.not_true, Bool.and_false, if_neg Bool.false_ne_true]

theorem isBroadcast_of_rtu (hrtu : c.link.framing = .rtu) (hunit : unit.isBroadcast = true) :
    c.isBroadcast unit = true := by
  rw [isBroadcast, hrtu, hunit]
  rfl

/-- Nothing has been written, and nothing has been read. -/
def Quiet (c c' : Client) : Prop := c.link.Speaks [] c'.link

theorem quiet_ensureConnected : Within Quiet ensureConnected :=
  fun c => Link.Tries.speaks (trying_ensureConnected c)

theorem quiet_recover (e : Error) : Within Quiet (recover e) :=
  fun c => Link.Tries.speaks (trying_recover e c)

theorem broadcasts_call (hrtu : c.link.framing = .rtu) (hunit : unit.isBroadcast = true)
    (hwrite : request.isWrite = true) (hsize : request.size ≤ 253) :
    Broadcasts unit request c := by
  obtain ⟨response, hecho⟩ := Request.exists_echo hwrite hsize
  have hpermit : c.permit unit request = .ok () := permit_of_isWrite hwrite
  have hbroadcast := isBroadcast_of_rtu hrtu hunit
  rcases hconnect : ensureConnected c with ⟨⟨⟩, c₁⟩ | ⟨e, c₁⟩
  · have hquiet : c.link.Speaks [] c₁.link := quiet_ensureConnected.of_ok hconnect
    have hrtu₁ : c₁.link.framing = .rtu :=
      ((keeps_ensureConnected.of_ok hconnect).link.framing).trans hrtu
    have hspoken := spoken_dispatch hsize unit c₁
    have hcall : call unit request c =
        match dispatch request (.rtu unit) c₁ with
        | .ok _ c' => .ok (.ok response) c'
        | .error e c' => .error e (after (recover e) c') := by
      rw [call_of_ensureConnected hpermit hconnect, hbroadcast, recovering_eq,
        exchange_rtu hrtu₁ hecho]
      rcases dispatch request (.rtu unit) c₁ with ⟨p, c'⟩ | ⟨e, c'⟩ <;> rfl
    rcases hdispatch : dispatch request (.rtu unit) c₁ with ⟨p, c₂⟩ | ⟨e, c₂⟩ <;>
      rw [hdispatch] at hcall hspoken
    · refine ⟨?_, ?_, fun _ => ⟨_, _, hcall⟩⟩
      · rw [hcall]
        exact hquiet.trans hspoken
      · intro answer c' h
        cases hcall.symm.trans h
        exact ⟨response, hecho, rfl⟩
    · refine ⟨?_, ?_, fun hcan => ?_⟩
      · rw [hcall]
        refine ⟨hspoken.1, hspoken.2.imp (fun h => ?_) fun h => ?_⟩
        · exact (hquiet.trans h).trans (quiet_recover e c₂)
        · exact (hquiet.trans h).trans (quiet_recover e c₂)
      · intro answer c' h
        cases hcall.symm.trans h
      · obtain ⟨c', hconnect', hfaultless⟩ := hcan.ensureConnected
        cases hconnect'.symm.trans hconnect
        obtain ⟨p, c'', hdispatch'⟩ := dispatch_of_faultless hsize hfaultless (.rtu unit)
        cases hdispatch'.symm.trans hdispatch
  · have hquiet : c.link.Speaks [] c₁.link := quiet_ensureConnected.of_error hconnect
    have hcall := call_of_ensureConnected_error hpermit hconnect
    refine ⟨?_, ?_, fun hcan => ?_⟩
    · rw [hcall]
      exact ⟨failsWithTransport_ensureConnected _ _ _ hconnect,
        .inl (hquiet.trans (quiet_recover e c₁))⟩
    · intro answer c' h
      cases hcall.symm.trans h
    · obtain ⟨c', hconnect', -⟩ := hcan.ensureConnected
      cases hconnect'.symm.trans hconnect

theorem exchange_of_not_size (hsize : ¬ request.size ≤ 253) (unit : UnitId) (broadcast : Bool)
    (c : Client) :
    ∃ transaction, exchange unit request broadcast c =
      .error (.transport .requestSize) { c with transaction } := by
  obtain ⟨header, transaction, hheader⟩ := run_nextHeader unit c
  have hlong : maxPduSize < request.size := Nat.lt_of_not_le hsize
  have hdispatch : dispatch request header { c with transaction } =
      .error (.transport .requestSize) { c with transaction } := by
    rw [dispatch, Message.ofRequest, if_pos hlong]
    rfl
  exact ⟨transaction, by rw [exchange, run_bind hheader, run_bind_of_error hdispatch]⟩

/-- What a call with a write that does not fit comes to: the client connects first if it has to,
and only then refuses the write for its length, as a failure of the transport. -/
structure Outgrows (unit : UnitId) (request : Request) (c : Client) : Prop where
  fails : ∃ e c', call unit request c = .error e c' ∧ e.IsTransport ∧ c.link.Speaks [] c'.link
  connected : ∀ c₁, ensureConnected c = .ok ⟨⟩ c₁ →
    resultOf (call unit request) c = .error (.transport .requestSize)
  unconnected : ∀ e c₁, ensureConnected c = .error e c₁ →
    resultOf (call unit request) c = .error e

/-- A write that does not fit is not sent. -/
theorem outgrows_call (hwrite : request.isWrite = true) (hsize : ¬ request.size ≤ 253) :
    Outgrows unit request c := by
  have hpermit : c.permit unit request = .ok () := permit_of_isWrite hwrite
  rcases hconnect : ensureConnected c with ⟨⟨⟩, c₁⟩ | ⟨e, c₁⟩
  · have hquiet : c.link.Speaks [] c₁.link := quiet_ensureConnected.of_ok hconnect
    obtain ⟨transaction, hexchange⟩ :=
      exchange_of_not_size hsize unit (c.isBroadcast unit) c₁
    have hcall : call unit request c = .error (.transport .requestSize)
        (after (recover (.transport .requestSize)) { c₁ with transaction }) := by
      rw [call_of_ensureConnected hpermit hconnect, recovering_eq, hexchange]
    refine ⟨⟨_, _, hcall, ⟨.requestSize, rfl⟩,
      hquiet.trans (quiet_recover (.transport .requestSize) { c₁ with transaction })⟩,
      fun _ _ => by rw [resultOf, hcall], fun e c' h => ?_⟩
    cases hconnect.symm.trans h
  · have hquiet : c.link.Speaks [] c₁.link := quiet_ensureConnected.of_error hconnect
    have hcall := call_of_ensureConnected_error hpermit hconnect
    refine ⟨⟨e, _, hcall, failsWithTransport_ensureConnected _ _ _ hconnect,
      hquiet.trans (quiet_recover e c₁)⟩, fun c' h => ?_, fun e' c' h => ?_⟩
    · cases hconnect.symm.trans h
    · cases hconnect.symm.trans h
      rw [resultOf, hcall]

/-- A write of more coils than fit is refused only after the client has connected. -/
theorem call_of_not_size_coils :
    let c := Client.ofTransport ⟨.hooked .rtu false 0, .quiet "client"⟩ .standard true
    let r : Request := .writeMultipleCoils 0 (List.replicate 1977 false)
    (r.isWrite = true ∧ ¬ r.size ≤ 253 ∧ c.isConnected = false) ∧
      ∃ c', call ⟨0⟩ r c = .error (.transport .requestSize) c' ∧ c'.isConnected = true := by
  intro c r
  have hsize : ¬ r.size ≤ 253 := by
    simp only [r, Request.size, List.length_replicate, packedSize]
    decide
  have hpermit : c.permit ⟨0⟩ r = .ok () := permit_of_isWrite rfl
  obtain ⟨c₁, hconnect, hconnected, hsettings⟩ : ∃ c₁, ensureConnected c = .ok ⟨⟩ c₁ ∧
      c₁.isConnected = true ∧ c₁.settings = .standard := ⟨_, rfl, rfl, rfl⟩
  obtain ⟨transaction, hexchange⟩ := exchange_of_not_size hsize ⟨0⟩ (c.isBroadcast ⟨0⟩) c₁
  refine ⟨⟨rfl, hsize, rfl⟩, { c₁ with transaction }, ?_, hconnected⟩
  have hkept : after (recover (.transport .requestSize)) { c₁ with transaction } =
      { c₁ with transaction } := by
    rw [after_recover, hsettings]
    rfl
  rw [call_of_ensureConnected hpermit hconnect, recovering_eq, hexchange]
  dsimp only
  rw [hkept]

/-- A request other than a write is refused, and nothing is done about it. -/
theorem call_of_not_isWrite (hrtu : c.link.framing = .rtu) (hunit : unit.isBroadcast = true)
    (hwrite : request.isWrite = false) : ∃ e, call unit request c = .error (.config e) c := by
  have hbroadcast := isBroadcast_of_rtu hrtu hunit
  have hrefused : ∃ e, c.permit unit request = .error e := by
    by_cases hcustom : ∃ code data, request = .custom code data
    · obtain ⟨code, data, rfl⟩ := hcustom
      exact ⟨_, rfl⟩
    · rw [permit_eq fun code data h => hcustom ⟨code, data, h⟩, hbroadcast, hwrite]
      exact ⟨_, rfl⟩
  obtain ⟨e, he⟩ := hrefused
  exact ⟨e, call_of_permit_error he⟩

end Client

end Modbus

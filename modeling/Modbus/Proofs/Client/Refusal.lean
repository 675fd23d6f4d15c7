import Modbus.Proofs.Client.Broadcast

/-! Requests that a client does not send. Nothing of them is written, and as long as it is not their
length alone that they are refused for, the stream is kept: the next request goes out on it at once.
A request that is too long fails like the link does, and a client that recovers its link gives up
a stream that nothing is wrong with. -/

namespace Modbus.Client

variable {c : Client} {unit : UnitId} {request : Request}

/-- A client with a stream does not send requests of other functions, broadcasts on a serial line
that ask for more than a write, and requests that do not fit. -/
inductive IsRefused (c : Client) (unit : UnitId) : Request → Prop where
  | custom (code : UInt8) (data : List UInt8) : IsRefused c unit (.custom code data)
  | broadcast {request : Request} (hrtu : c.link.framing = .rtu) (hunit : unit.isBroadcast = true)
      (hwrite : request.isWrite = false) : IsRefused c unit request
  | size {request : Request} (h : 253 < request.size) : IsRefused c unit request

/-- The call sends its request on the stream that is connected, before it does anything else. -/
def SendsAtOnce (unit : UnitId) (request : Request) (c : Client) : Prop :=
  ∃ header transaction, header.unit = unit ∧ header.framing = c.link.framing ∧
    call unit request c = recovering (do
        onLink (Link.send (header.frame .request request.pdu))
        if c.isBroadcast unit then unanswered request else collect ⟨header, request⟩)
      { c with transaction, link := after Link.clearBuffer c.link }

theorem permit_of_not_isRefused (h : ¬ c.IsRefused unit request) :
    c.permit unit request = .ok () := by
  have hstandard : ∀ code data, request ≠ .custom code data := by
    rintro code data rfl
    exact h (.custom code data)
  rw [permit_eq hstandard]
  refine if_neg fun hrefused => ?_
  rw [Bool.and_eq_true, isBroadcast, Bool.and_eq_true, Bool.not_eq_true'] at hrefused
  obtain ⟨⟨hunit, hrtu⟩, hwrite⟩ := hrefused
  exact h (.broadcast (eq_of_beq hrtu) hunit hwrite)

theorem size_of_not_isRefused (h : ¬ c.IsRefused unit request) : request.size ≤ 253 :=
  Nat.le_of_not_lt fun hlong => h (.size hlong)

/-- A request that passes the checks before it is sent is refused for its length. -/
theorem IsRefused.size_of_permit (h : c.IsRefused unit request)
    (hpermit : c.permit unit request = .ok ()) : 253 < request.size := by
  cases h with
  | custom code data => cases hpermit
  | broadcast hrtu hunit hwrite =>
    have hbroadcast := isBroadcast_of_rtu hrtu hunit
    rw [isWrite_of_permit hpermit hbroadcast] at hwrite
    cases hwrite
  | size h => exact h

/-- A client with a stream sends what it does not refuse at once. -/
theorem sendsAtOnce (hc : c.isConnected = true) (h : ¬ c.IsRefused unit request) :
    c.SendsAtOnce unit request := by
  obtain ⟨header, transaction, hheader⟩ := run_nextHeader unit c
  obtain ⟨header', c', hheader', hframing, hunit, -⟩ := nextHeader_spec unit c
  cases hheader.symm.trans hheader'
  have hmessage : Message.ofRequest header request = .ok (header.frame .request request.pdu) :=
    if_neg (Nat.not_lt.mpr (size_of_not_isRefused h))
  have hclear : onLink Link.clearBuffer { c with transaction } =
      .ok ⟨⟩ { c with transaction, link := after Link.clearBuffer c.link } := rfl
  refine ⟨header, transaction, hunit, hframing, ?_⟩
  rw [call_of_ensureConnected (permit_of_not_isRefused h) (ensureConnected_of_isConnected hc),
    recovering_eq, recovering_eq, exchange, run_bind hheader, dispatch, hmessage]
  simp only [bind_assoc, pure_bind]
  rw [run_bind hclear]

/-- A request that is too long fails like the link. -/
theorem call_of_size (hc : c.isConnected = true) (hpermit : c.permit unit request = .ok ())
    (hsize : 253 < request.size) :
    ∃ transaction, call unit request c =
      .error (.transport .requestSize)
        (after (recover (.transport .requestSize)) { c with transaction }) := by
  obtain ⟨transaction, hexchange⟩ :=
    exchange_of_not_size (Nat.not_le.mpr hsize) unit (c.isBroadcast unit) c
  refine ⟨transaction, ?_⟩
  rw [call_of_ensureConnected hpermit (ensureConnected_of_isConnected hc), recovering_eq, hexchange]

/-- Nothing is written of a request that is refused. The stream stays, and the next request is sent
on it at once, unless the request was refused for its length alone and the client recovers its
link: then the stream is given up. -/
theorem call_of_isRefused (hc : c.isConnected = true) (h : c.IsRefused unit request) :
    ∃ e c', call unit request c = .error e c' ∧ c.link.Speaks [] c'.link ∧
      (c.settings.recovery = true ∧ c.permit unit request = .ok () →
        c'.HasGivenUp c'.link.journal.now) ∧
      (¬ (c.settings.recovery = true ∧ c.permit unit request = .ok ()) →
        c'.link = c.link ∧ c'.isConnected = true ∧
          ∀ unit' request', ¬ c'.IsRefused unit' request' → c'.SendsAtOnce unit' request') := by
  rcases hpermit : c.permit unit request with e | _
  · refine ⟨.config e, c, call_of_permit_error hpermit, ⟨Link.silent_of_same rfl rfl, rfl⟩, ?_,
      fun _ => ⟨rfl, hc, fun _ _ => sendsAtOnce hc⟩⟩
    rintro ⟨-, hok⟩
    cases hok
  · obtain ⟨transaction, hcall⟩ := call_of_size hc hpermit (h.size_of_permit hpermit)
    refine ⟨_, _, hcall, quiet_recover (.transport .requestSize) { c with transaction },
      fun hrecovers => hasGivenUp_after_recover hrecovers.1 rfl, fun hkeeps => ?_⟩
    have hkept : after (recover (.transport .requestSize)) { c with transaction } =
        { c with transaction } := by
      rw [after_recover, if_neg]
      rw [Bool.and_eq_true]
      exact fun hrecovers => hkeeps ⟨hrecovers.1, rfl⟩
    rw [hkept]
    exact ⟨rfl, hc, fun _ _ => sendsAtOnce hc⟩

/-- A client that does not recover its link refuses to write more registers than fit. -/
theorem call_of_isRefused_registers :
    let channel := ⟨.client .tcp, [], .inProcess, false⟩
    let c := Client.ofTransport ⟨.hooked .tcp false 0, .quiet "client"⟩ .standard true
    let c := { c with link := { c.link with channel := some channel } }
    let r : Request := .writeMultipleRegisters 0 (List.replicate 124 0)
    (c.isConnected = true ∧ c.IsRefused ⟨7⟩ r) ∧
      ∃ e c', call ⟨7⟩ r c = .error e c' ∧ c'.link = c.link ∧
        c'.SendsAtOnce ⟨7⟩ (.readHoldingRegisters 0 1) := by
  intro channel c' c r
  have hsize : 253 < r.size := by
    simp only [r, Request.size, List.length_replicate]
    decide
  have hrefused : c.IsRefused ⟨7⟩ r := .size hsize
  obtain ⟨e, c'', hcall, -, -, hkeeps⟩ := call_of_isRefused rfl hrefused
  obtain ⟨hlink, -, hnext⟩ := hkeeps fun h => Bool.false_ne_true h.1
  refine ⟨⟨rfl, hrefused⟩, e, c'', hcall, hlink, hnext _ _ fun h => ?_⟩
  cases h with
  | broadcast hrtu hunit hwrite => cases hunit
  | size h => exact absurd h (by decide)

/-- A client that recovers its link gives up its stream over a request of which it has sent
nothing. -/
theorem not_isConnected_call_registers :
    let channel := ⟨.client .tcp, [], .inProcess, false⟩
    let c := Client.ofTransport ⟨.hooked .tcp false 0, .quiet "client"⟩
      { LinkSettings.standard with recovery := true } true
    let c := { c with link := { c.link with channel := some channel } }
    let r : Request := .writeMultipleRegisters 0 (List.replicate 124 0)
    (c.isConnected = true ∧ c.IsRefused ⟨7⟩ r) ∧
      (after (call ⟨7⟩ r) c).isConnected = false ∧
      (after (call ⟨7⟩ r) c).reconnectAt = some 500 := by
  intro channel c' c r
  have hsize : 253 < r.size := by
    simp only [r, Request.size, List.length_replicate]
    decide
  refine ⟨⟨rfl, .size hsize⟩, ?_, ?_⟩
  · decide +kernel
  · decide +kernel

end Modbus.Client

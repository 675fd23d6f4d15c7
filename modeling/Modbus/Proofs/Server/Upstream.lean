import Modbus.Proofs.DataModel.Relay
import Modbus.Proofs.Server.Serve

/-! Gateways of a server. Whatever the client of a gateway makes of the request that is forwarded,
the reply and the cells after it are those of the data model: a failure does not leave a part of
what was asked for. A request that is not forwarded is no matter of the client, and leaves the
cells alone. -/

namespace Modbus

/-! ### Clients by their place -/

theorem SharedClient.work_linked {α : Type} (work : ClientM α) (scripted : ScriptedClient.Work α)
    (j : Journal) (c : Client) :
    SharedClient.work work scripted j (.linked c) =
      (resultOf work { c with link := { c.link with journal := j } },
        .linked (after work { c with link := { c.link with journal := j } }),
        (after work { c with link := { c.link with journal := j } }).link.journal) := by
  rw [SharedClient.work, resultOf, after]
  rcases work { c with link := { c.link with journal := j } } with ⟨a, c'⟩ | ⟨e, c'⟩ <;> rfl

namespace Clients

variable {cs : Clients} {id id' : ClientId} {client client' : SharedClient}

theorem lt_length_of_get? (h : cs.get? id = some client) : id < cs.length := by
  have hentry : cs[id]? = some (some client) := Option.join_eq_some_iff.mp h
  exact (List.getElem?_eq_some_iff.mp hentry).1

theorem get?_put (h : cs.get? id = some client) : (cs.put id client').get? id = some client' := by
  rw [get?, put, List.getElem?_set_self (lt_length_of_get? h), Option.join_some]

theorem get?_put_of_ne (h : id' ≠ id) : (cs.put id client).get? id' = cs.get? id' := by
  rw [get?, put, List.getElem?_set_ne (Ne.symm h), get?]

end Clients

namespace Device

variable {g : Device} {r : Request} {peer : Peer} {message : Message}

/-- The request that a gateway forwards when it gets a protocol data unit, if it forwards one. -/
def forwarded? (g : Device) (pdu : List UInt8) : Option Request :=
  (Request.spelled? pdu).filter fun r => decide (g.Forwards r)

/-- What a gateway leaves of a message is what its data model makes of `heard`, the outcome of the
request `r` that it forwarded. -/
structure Relays (g : Device) (message : Message) (r : Request)
    (heard : Except Error (Answer Response)) (served : Served) : Prop where
  reply : served.reply = some
    (message.answered (message.toReply (g.map.model.relay g.pduAddressing r heard).1))
  model : served.map.model = (g.map.model.relay g.pduAddressing r heard).2
  shape : served.map.shape = g.map.shape
  notes : served.notes = []

section

variable (hg : g.IsPlain) (peer) (hunit : message.unit.isBroadcast = false)
include hg hunit

theorem process_of_forwarded? (h : g.forwarded? message.pdu = some r) :
    ∃ resume, g.process peer .forward message = .ask [] r resume ∧
      ∀ heard, g.Relays message r heard (resume (heardFrom heard)) := by
  obtain ⟨hspelled, hforwards⟩ := Option.filter_eq_some_iff.mp h
  obtain ⟨resume, hexecute, hrelay⟩ := execute_of_forwards (of_decide_eq_true hforwards)
  have hread := Request.toOption_ofPdu message.pdu
  rcases hrequest : Request.ofPdu message.pdu with fault | r'
  · rw [hrequest, hspelled] at hread
    cases hread
  · rw [hrequest, hspelled] at hread
    cases hread
    have hmessage : g.executeMessage g.map .forward message = .ask [] r resume := by
      simp only [executeMessage, Message.request, hrequest, hunit, Bool.false_eq_true, if_false,
        hexecute]
    refine ⟨_, by rw [process_of_isPlain hg, hmessage, Plan.map], fun heard => ?_⟩
    obtain ⟨answer, map', hresume, hmodel, hshape, hfitted⟩ := hrelay heard
    simp only [Function.comp_apply, hresume, hfitted]
    exact ⟨by rw [← hmodel], by rw [← hmodel], hshape, rfl⟩

theorem process_of_not_forwarded? {route : Route} (hroute : route ≠ .own)
    (h : route = .forward → g.forwarded? message.pdu = none) :
    ∃ answer, g.process peer route message =
        .done ⟨some (message.answered (message.toReply answer)), g.map, []⟩ ∧
      ∀ response, answer = .ok response →
        Request.spelled? message.pdu = some .reportId ∧ response = .reportId g.report := by
  have hread := Request.toOption_ofPdu message.pdu
  rcases hrequest : Request.ofPdu message.pdu with fault | r
  · refine ⟨.error .illegalDataValue, ?_, nofun⟩
    have hmessage : g.executeMessage g.map route message =
        .done (.error .illegalDataValue, g.map) := by
      simp only [executeMessage, Message.request, hrequest]
    rw [process_of_isPlain hg, hmessage, Plan.map]
    rfl
  · rw [hrequest] at hread
    have hnot : route = .forward → ¬ g.Forwards r := by
      intro hforward hforwards
      have hsome : g.forwarded? message.pdu = some r :=
        Option.filter_eq_some_iff.mpr ⟨hread.symm, decide_eq_true hforwards⟩
      rw [h hforward] at hsome
      cases hsome
    obtain ⟨answer, hexecute, hreport⟩ := execute_of_not_forwards hroute hnot
    have hmessage : g.executeMessage g.map route message = .done (answer, g.map) := by
      simp only [executeMessage, Message.request, hrequest, hunit, Bool.false_eq_true, if_false,
        hexecute]
    refine ⟨Answer.fitted answer, by rw [process_of_isPlain hg, hmessage, Plan.map], ?_⟩
    intro response hresponse
    rcases answer with e | given
    · cases hresponse
    · obtain ⟨rfl, rfl⟩ := hreport given rfl
      rw [Answer.fitted] at hresponse
      split at hresponse
      · cases hresponse
        exact ⟨hread.symm, rfl⟩
      · cases hresponse

end

end Device

namespace Server

variable {s : Server} {g : Device} {id : ClientId} {client : SharedClient} {r : Request}

theorem route_of_get? (hid : g.forwardsTo = some id) :
    s.route g = if (s.clients.get? id).isSome then .forward else .broken := by
  rw [route, hid]

/-- What a client makes of a request, with the failures that a gateway takes for its own. -/
theorem forward_of_get? (hclient : s.clients.get? id = some client) (unit : UnitId) :
    forward id unit r s =
      let (heard, client', journal) := client.call unit r s.journal
      (Device.heardFrom heard,
        { s with clients := s.clients.put id client' }.withJournal journal) := by
  simp only [forward, hclient]
  rcases (client.call unit r s.journal).1 with e | answer <;> rfl

/-- A server asks the client of a gateway once about a request that is to be forwarded, and does
not ask it about another one. Whatever comes of it, the reply and the map are those of the data
model of the gateway; without it, the map stays and only a report is not refused. -/
theorem serve_of_isPlain (hg : g.IsPlain) (hid : g.forwardsTo = some id) (peer : Peer)
    {message : Message} (hunit : message.unit.isBroadcast = false) :
    match g.forwarded? message.pdu, s.clients.get? id with
    | some r, some client =>
      let (heard, client', journal) := client.call g.id r s.journal
      ∃ resume, g.process peer .forward message = .ask [] r resume ∧
        (∀ heard, g.Relays message r heard (resume (Device.heardFrom heard))) ∧
        s.serve peer g message =
          ((resume (Device.heardFrom heard)).reply,
            ({ s with clients := s.clients.put id client' }.withJournal journal).putDevice
              { g with map := (resume (Device.heardFrom heard)).map })
    | _, _ =>
      ∃ answer, s.serve peer g message =
          (some (message.answered (message.toReply answer)), s.putDevice g) ∧
        ∀ response, answer = .ok response →
          Request.spelled? message.pdu = some .reportId ∧ response = .reportId g.report := by
  have hroute := route_of_get? (s := s) hid
  rcases hforwarded : g.forwarded? message.pdu with _ | r
  · have hleaves : s.route g ≠ .own := by
      rw [hroute]
      split <;> nofun
    obtain ⟨answer, hprocess, hreport⟩ :=
      Device.process_of_not_forwarded? peer hg hunit hleaves fun _ => hforwarded
    exact ⟨answer, serve_of_process hprocess, hreport⟩
  · rcases hclient : s.clients.get? id with _ | client
    · have hbroken : s.route g = .broken := by
        rw [hroute, hclient]
        rfl
      have hleaves : Route.broken ≠ .own := nofun
      obtain ⟨answer, hprocess, hreport⟩ :=
        Device.process_of_not_forwarded? peer hg hunit hleaves nofun
      exact ⟨answer, serve_of_process (by rw [hbroken, hprocess]), hreport⟩
    · have hforward : s.route g = .forward := by
        rw [hroute, hclient]
        rfl
      obtain ⟨resume, hprocess, hrelays⟩ := Device.process_of_forwarded? peer hg hunit hforwarded
      have hasked := forward_of_get? (r := r) hclient g.id
      have hsame : s.withJournal s.journal = s := rfl
      dsimp only
      rcases hcall : client.call g.id r s.journal with ⟨heard, client', journal⟩
      rw [hcall] at hasked
      refine ⟨resume, hprocess, hrelays, ?_⟩
      simp only [serve, hforward, hprocess, Plan.run, hid, Journal.addNotes_nil, hsame, hasked,
        (hrelays heard).notes]
      rfl

/-- The device behind a gateway answers with three registers when it is asked to write one and to
read two: the gateway has written the one and refuses the rest. -/
theorem serve_of_isPlain_registers :
    let g := { (Device.ofId ⟨7⟩).declare .holdingRegister 3 1 with forwardsTo := some 0 }
    let client : ScriptedClient :=
      ⟨"device", true, [.response (.readWriteRegisters [1, 2, 3])], [], [], true, .start⟩
    let s : Server := { Server.ofTransport ⟨.attached .rtu true, .quiet "server"⟩ .standard with
      devices := [g], clients := [some (.scripted client)], isOpen := true }
    let message : Message := ⟨.tcp 9 ⟨7⟩, .request, [0x17, 0, 0, 0, 2, 0, 1, 0, 1, 2, 0, 9]⟩
    let served := s.serve .inProcess g message
    (g.IsPlain ∧ g.forwardsTo = some 0 ∧ message.unit.isBroadcast = false) ∧
      served.1.map (·.pdu) = some [0x97, 4] ∧
      (served.2.device? ⟨7⟩).map (·.map.model.holdingRegisters.cells 1 3) = some [0, 9, 0] := by
  intro g client s message served
  have hg : g.IsPlain := ⟨rfl, rfl⟩
  have hforwarded : g.forwarded? message.pdu = some (.readWriteRegisters 0 2 1 [9]) := by decide
  have hid : g.forwardsTo = some 0 := rfl
  have hunit : message.unit.isBroadcast = false := rfl
  have hserve := serve_of_isPlain (s := s) hg hid .inProcess hunit
  rw [hforwarded] at hserve
  obtain ⟨resume, -, hrelays, hserve⟩ := hserve
  have hrelay := hrelays (.ok (.ok (.readWriteRegisters [1, 2, 3])))
  have hserved : served = _ := hserve
  refine ⟨⟨hg, hid, hunit⟩, ?_, ?_⟩
  · rw [hserved]
    refine (congrArg (Option.map Message.pdu) hrelay.reply).trans ?_
    decide
  · rw [hserved, device?_putDevice_self (d := g) rfl, Option.map_some, hrelay.model]
    decide

end Server

end Modbus

import Modbus.Proofs.DataModel.Naming
import Modbus.Proofs.Server.Upstream

/-! Writes that a gateway confirms. What a gateway answers to a write does not depend on the
response that comes back to it: any response confirms the write. So the confirmation can be relied
on as long as the client behind the gateway responds to a write with nothing but the confirmation
of it, and from no other response on. -/

namespace Modbus

/-- What comes back to a write is a response other than the one that confirms it. -/
def Request.IsMisanswered (r : Request) (heard : Option (Except Error (Answer Response))) : Prop :=
  ∃ response, heard = some (.ok (.ok response)) ∧ r.echo? ≠ some response

/-- A reply to a write confirms it only if the write was confirmed, and tells of a failure of the
device if something else came back. -/
structure Request.IsConfirmed (r : Request) (heard : Option (Except Error (Answer Response)))
    (reply : Option Message) : Prop where
  of_success : ∀ m, reply = some m → m.isException = false →
    ∃ response, heard = some (.ok (.ok response)) ∧ r.echo? = some response
  of_misanswered : r.IsMisanswered heard → ∀ m, reply = some m →
    m.isException = true ∧ m.byte? 1 = some ExceptionCode.serverDeviceFailure.code

theorem Request.confirm?_of_isWrite {r : Request} (h : r.isWrite = true) (response : Response) :
    r.confirm? response = r.echo? := by
  cases r <;> first | rfl | cases h

namespace Device

variable {d : Device} {r : Request} {route : Route} {peer : Peer} {asked : Message}

/-- A write is refused at once, or it is forwarded and confirmed by any response to it. -/
theorem execute_of_isWrite (hwrite : r.isWrite = true) (hsize : r.size ≤ 253)
    (hroute : route ≠ .own) (d : Device) (map : DataMap) :
    (∃ e, d.execute map route r = .done (.error e, map)) ∨
    route = .forward ∧ ∃ response resume, r.echo? = some response ∧
      d.execute map route r = .ask [] r resume ∧
      ∀ answer : Answer Response, (resume answer).1 = answer.map fun _ => response := by
  have hsame : d.execute map route r = ({ d with map } : Device).execute map route r := rfl
  by_cases hforwards : route = .forward ∧ ({ d with map } : Device).Forwards r
  · obtain ⟨rfl, hforwards⟩ := hforwards
    obtain ⟨response, hecho⟩ := Request.exists_echo hwrite hsize
    obtain ⟨resume, hexecute, hrelay⟩ := execute_of_forwards hforwards
    refine .inr ⟨rfl, response, resume, hecho, hsame.trans hexecute, fun answer => ?_⟩
    obtain ⟨answer', map', hresume, hmodel, -⟩ := hrelay (.ok answer)
    have hanswer : answer' = (({ d with map } : Device).map.model.relay d.pduAddressing r
        (.ok answer)).1 := congrArg Prod.fst hmodel
    rw [show resume answer = _ from hresume, hanswer]
    rcases answer with e | response'
    · rfl
    · rw [DataModel.relay_of_confirm? ((Request.confirm?_of_isWrite hwrite _).trans hecho)]
      rfl
  · obtain ⟨answer, hexecute, hreport⟩ := execute_of_not_forwards (g := { d with map }) (r := r)
      hroute fun hforward h => hforwards ⟨hforward, h⟩
    rcases answer with e | response
    · exact .inl ⟨e, hsame.trans hexecute⟩
    · rw [(hreport response rfl).1] at hwrite
      cases hwrite

/-- Whatever the second callback does, a request that failed is not answered with success. -/
theorem isException_of_respond_error {e : ExceptionCode} {map : DataMap} {m : Message}
    (h : (d.respond peer asked (.error e) map).reply = some m) : m.isException = true := by
  have hreply : ∀ (asked : Message) (e : ExceptionResponse),
      asked.reply (.error e) = .ok (asked.answered (.error e)) :=
    fun asked _ => asked.reply_of_size (show 2 ≤ 253 by decide)
  simp only [respond, Except.mapError, hreply] at h
  split at h
  · cases h
    exact asked.isException_answered_error _
  · cases h
  · rw [refusal, hreply] at h
    cases h
    exact Message.isException_answered_error _ _

/-- A write that the first callback lets pass is refused at once or forwarded, and what is answered
then does not depend on which response comes back. -/
theorem process_of_isWrite {message : Message} {map : DataMap} {notes : List String}
    (hbefore : d.consult d.before peer message d.map = ⟨.proceed, asked, map, notes⟩)
    (hunit : asked.unit.isBroadcast = false) (hread : asked.request = .ok r)
    (hwrite : r.isWrite = true) (hroute : route ≠ .own) :
    (∃ e served, d.process peer route message = .done served ∧
      served.reply = (d.respond peer asked (.error e) map).reply) ∨
    route = .forward ∧ ∃ response notes' resume, r.echo? = some response ∧
      d.process peer route message = .ask notes' r resume ∧
      ∀ answer : Answer Response, ∃ map',
        resume answer = d.respond peer asked (answer.map fun _ => response) map' := by
  have hmessage : d.executeMessage map route asked = d.execute map route r := by
    rw [executeMessage, hread, hunit]
    rfl
  rcases execute_of_isWrite hwrite (Request.size_of_ofPdu hread) hroute d map with
    ⟨e, hexecute⟩ | ⟨rfl, response, resume, hecho, hexecute, hresume⟩
  · refine .inl ⟨e, { d.respond peer asked (.error e) map with
      notes := notes ++ (d.respond peer asked (.error e) map).notes }, ?_, rfl⟩
    simp only [process, hbefore, hmessage, hexecute]
  · let finished := fun answer : Answer Response =>
      d.respond peer asked (resume answer).1 (resume answer).2
    have hprocess : d.process peer .forward message = .ask (notes ++ []) r finished := by
      simp only [process, hbefore, hmessage, hexecute]
      rfl
    refine .inr ⟨rfl, response, _, finished, hecho, hprocess, fun answer => ?_⟩
    exact ⟨(resume answer).2, by rw [← hresume answer]⟩

end Device

namespace Server

variable {s : Server} {g : Device} {peer : Peer} {message asked : Message}

/-- What came of the call that is made on behalf of a gateway for a message, if one is made. -/
def heard? (s : Server) (peer : Peer) (g : Device) (message : Message) :
    Option (Except Error (Answer Response)) :=
  match g.process peer (s.route g) message, g.forwardsTo.bind s.clients.get? with
  | .ask notes request _, some client =>
    some (client.call g.id request (s.journal.addNotes notes)).1
  | _, _ => none

theorem reply_of_done {served : Served}
    (hprocess : g.process peer (s.route g) message = .done served) :
    s.heard? peer g message = none ∧ (s.serve peer g message).1 = served.reply := by
  refine ⟨?_, ?_⟩
  · rw [heard?, hprocess]
  · simp only [serve, hprocess, Plan.run]

theorem reply_of_ask {id : ClientId} {notes : List String} {r : Request}
    {resume : Answer Response → Served} (hid : g.forwardsTo = some id)
    (hroute : s.route g = .forward)
    (hprocess : g.process peer .forward message = .ask notes r resume) :
    ∃ heard, s.heard? peer g message = some heard ∧
      (s.serve peer g message).1 = (resume (Device.heardFrom heard)).reply := by
  rw [route_of_get? hid] at hroute
  rcases hclient : s.clients.get? id with _ | client
  · rw [hclient] at hroute
    cases hroute
  · have hprocess' : g.process peer (s.route g) message = .ask notes r resume := by
      rw [route_of_get? hid, hclient]
      exact hprocess
    refine ⟨(client.call g.id r (s.journal.addNotes notes)).1, ?_, ?_⟩
    · simp only [heard?, hprocess', hid, Option.bind_some, hclient]
    · have hasked := forward_of_get? (s := s.withJournal (s.journal.addNotes notes)) (r := r)
        hclient g.id
      simp only [serve, hprocess', Plan.run, hid, hasked]
      rfl

/-- A gateway confirms a write only if the write was confirmed to it, as long as no other response
comes back, whatever its callbacks do. If the second callback does not interfere, every such
response is taken for the confirmation. -/
theorem isConfirmed_serve {id : ClientId} {map : DataMap} {notes : List String} {r : Request}
    (hid : g.forwardsTo = some id)
    (hbefore : g.consult g.before peer message g.map = ⟨.proceed, asked, map, notes⟩)
    (hunit : asked.unit.isBroadcast = false) (hread : asked.request = .ok r)
    (hwrite : r.isWrite = true) :
    let heard := s.heard? peer g message
    let reply := (s.serve peer g message).1
    (¬ r.IsMisanswered heard → r.IsConfirmed heard reply) ∧
      (g.after = none → (r.IsConfirmed heard reply ↔ ¬ r.IsMisanswered heard)) := by
  intro heard reply
  have hleaves : s.route g ≠ .own := by
    rw [route_of_get? hid]
    split <;> nofun
  rcases Device.process_of_isWrite hbefore hunit hread hwrite hleaves with
    ⟨e, served, hprocess, hserved⟩ | ⟨hroute, response, notes', resume, hecho, hprocess, hresume⟩
  · obtain ⟨hheard, hreply⟩ := reply_of_done hprocess
    have hnot : ¬ r.IsMisanswered heard := by
      rintro ⟨response, hresponse, -⟩
      cases hheard.symm.trans hresponse
    have hconfirmed : r.IsConfirmed heard reply := by
      refine ⟨fun m hm hsuccess => ?_, fun h => (hnot h).elim⟩
      have hrefused := Device.isException_of_respond_error
        ((hserved.symm.trans hreply.symm).trans hm)
      rw [hsuccess] at hrefused
      cases hrefused
    exact ⟨fun _ => hconfirmed, fun _ => ⟨fun _ => hnot, fun _ => hconfirmed⟩⟩
  · rw [hroute] at hprocess
    obtain ⟨h, hheard, hreply⟩ := reply_of_ask hid hroute hprocess
    obtain ⟨map', hserved⟩ := hresume (Device.heardFrom h)
    have hreplied : reply = _ := hreply.trans (congrArg Served.reply hserved)
    have hconfirmed : ¬ r.IsMisanswered heard → r.IsConfirmed heard reply := by
      refine fun hnot => ⟨fun m hm hsuccess => ?_, fun h => (hnot h).elim⟩
      have hrefused : ∀ e, Device.heardFrom h = .error e → False := by
        intro e he
        rw [he] at hreplied
        have hexception := Device.isException_of_respond_error (hreplied.symm.trans hm)
        rw [hsuccess] at hexception
        cases hexception
      rcases h with e | e | response'
      · exact (hrefused _ rfl).elim
      · exact (hrefused _ rfl).elim
      · refine ⟨response', hheard, ?_⟩
        by_contra hother
        exact hnot ⟨response', hheard, hother⟩
    refine ⟨hconfirmed, fun hafter => ⟨fun h' hmis => ?_, hconfirmed⟩⟩
    -- The response that came back is not looked at: the reply is the confirmation.
    obtain ⟨response', hresponse, hother⟩ := hmis
    obtain rfl : h = .ok (.ok response') := Option.some.inj (hheard.symm.trans hresponse)
    have hfitted : Answer.fitted (.ok response) = .ok response :=
      if_pos (Request.size_of_echo? hecho)
    have hsuccess : reply = some (asked.answered (.ok response)) := by
      rw [hreplied, Device.heardFrom, Except.map, Device.respond_of_after_eq_none hafter, hfitted]
      rfl
    have hrefused := (h'.of_misanswered ⟨response', hresponse, hother⟩ _ hsuccess).1
    rw [Message.isException_answered_ok] at hrefused
    cases hrefused

/-- The device behind a gateway confirms the write of a register. -/
theorem isConfirmed_serve_register :
    let g := { (Device.ofId ⟨33⟩).declare .holdingRegister 1 0 with
      pduAddressing := true, forwardsTo := some 0 }
    let client : ScriptedClient :=
      ⟨"device", true, [.response (.writeSingleRegister 0 0x1234)], [], [], true, .start⟩
    let s : Server := { Server.ofTransport ⟨.attached .tcp true, .quiet "server"⟩ .standard with
      devices := [g], clients := [some (.scripted client)], isOpen := true }
    let message : Message := ⟨.tcp 1 ⟨33⟩, .request, [0x06, 0, 0, 0x12, 0x34]⟩
    let r : Request := .writeSingleRegister 0 0x1234
    (g.forwardsTo = some 0 ∧
      g.consult g.before .inProcess message g.map = ⟨.proceed, message, g.map, []⟩ ∧
      message.unit.isBroadcast = false ∧ message.request = .ok r ∧ r.isWrite = true) ∧
      r.IsConfirmed (s.heard? .inProcess g message) (s.serve .inProcess g message).1 := by
  intro g client s message r
  have hread : message.request = .ok r := by decide
  have hheard : s.heard? .inProcess g message = some (.ok (.ok (.writeSingleRegister 0 0x1234))) :=
    rfl
  refine ⟨⟨rfl, rfl, rfl, hread, rfl⟩, ?_⟩
  refine (isConfirmed_serve (g := g) (s := s) (r := r) rfl rfl rfl hread rfl).1 ?_
  rintro ⟨response, hresponse, hother⟩
  rw [hheard] at hresponse
  cases hresponse
  exact hother rfl

/-- The device behind a gateway answers the write of a register with another word, and the gateway
confirms the write. -/
theorem not_isConfirmed_serve_register :
    let g := { (Device.ofId ⟨33⟩).declare .holdingRegister 1 0 with
      pduAddressing := true, forwardsTo := some 0 }
    let client : ScriptedClient :=
      ⟨"device", true, [.response (.writeSingleRegister 0 0x1111)], [], [], true, .start⟩
    let s : Server := { Server.ofTransport ⟨.attached .tcp true, .quiet "server"⟩ .standard with
      devices := [g], clients := [some (.scripted client)], isOpen := true }
    let message : Message := ⟨.tcp 1 ⟨33⟩, .request, [0x06, 0, 0, 0x12, 0x34]⟩
    let r : Request := .writeSingleRegister 0 0x1234
    message.request = .ok r ∧
      s.heard? .inProcess g message = some (.ok (.ok (.writeSingleRegister 0 0x1111))) ∧
      ((s.serve .inProcess g message).1.map (·.pdu)) = some [0x06, 0, 0, 0x12, 0x34] ∧
      ¬ r.IsConfirmed (s.heard? .inProcess g message) (s.serve .inProcess g message).1 := by
  intro g client s message r
  have hheard : s.heard? .inProcess g message = some (.ok (.ok (.writeSingleRegister 0 0x1111))) :=
    rfl
  have hreply : (s.serve .inProcess g message).1 =
      some ⟨.tcp 1 ⟨33⟩, .response, [0x06, 0, 0, 0x12, 0x34]⟩ := by decide
  refine ⟨by decide, hheard, by rw [hreply]; rfl, fun h => ?_⟩
  have hmisanswered : r.IsMisanswered (s.heard? .inProcess g message) :=
    ⟨.writeSingleRegister 0 0x1111, hheard, by decide⟩
  exact absurd (h.of_misanswered hmisanswered _ hreply).1 (by decide)

end Server

end Modbus

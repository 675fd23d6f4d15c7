import Modbus.Proofs.DataModel.Relay
import Modbus.Proofs.Pair.Operations

/-! Gateways before a local device. A gateway executes a request on its own map, forwards it, and
puts what comes back into its map before it answers from there. When the links work and its map
has the cells that are asked for, it answers what the device answers, and the device has the map
that it would have if it had been asked directly. -/

namespace Modbus

/-! ### Responses that come back -/

/-- The response is one to the request: it has as many values as are asked for, or it confirms the
write. -/
inductive Response.Fits : Request → Response → Prop where
  | readCoils {a n : UInt16} {bits : List Bool} (h : bits.length = n.toNat) :
    Fits (.readCoils a n) (.readCoils bits)
  | readDiscreteInputs {a n : UInt16} {bits : List Bool} (h : bits.length = n.toNat) :
    Fits (.readDiscreteInputs a n) (.readDiscreteInputs bits)
  | readInputRegisters {a n : UInt16} {words : List UInt16} (h : words.length = n.toNat) :
    Fits (.readInputRegisters a n) (.readInputRegisters words)
  | readHoldingRegisters {a n : UInt16} {words : List UInt16} (h : words.length = n.toNat) :
    Fits (.readHoldingRegisters a n) (.readHoldingRegisters words)
  | readWriteRegisters {a n w : UInt16} {written words : List UInt16}
    (h : words.length = n.toNat) :
    Fits (.readWriteRegisters a n w written) (.readWriteRegisters words)
  | write {r : Request} {response : Response} (h : r.echo? = some response) : Fits r response

namespace Device

variable {d g : Device} {map : DataMap} {r : Request} {response : Response}

/-- What a device answers to a request fits it. -/
theorem fits_of_execute (hid : r ≠ .reportId)
    (h : (d.map.model.execute d.pduAddressing d.report r).1 = .ok response) :
    response.Fits r := by
  unfold DataModel.execute at h
  split at h
  · cases h
  · rename_i hlimits
    split at h
    · cases h
    · rename_i hreach
      rw [not_not] at hlimits hreach
      obtain ⟨map', -, hmodel, hshape⟩ := prepare_of_reaches hlimits hreach
      rw [← hmodel] at h
      have hreach' := (DataMap.reaches_congr hshape _ r).mpr hreach
      cases r with
      | readCoils a n | readDiscreteInputs a n =>
        cases h
        have hholds := (hreach' _ (List.mem_singleton.mpr rfl)).2
        have hlength := Bank.length_cells ((DataModel.holds_bits rfl).mp hholds)
        constructor
        exact hlength
      | readInputRegisters a n | readHoldingRegisters a n =>
        cases h
        have hholds := (hreach' _ (List.mem_singleton.mpr rfl)).2
        have hlength := Bank.length_cells ((DataModel.holds_registers rfl).mp hholds)
        constructor
        exact hlength
      | readWriteRegisters a n w words =>
        cases h
        have hholds := (hreach' (.holdingRegister, a, n.toNat) (by simp [Request.ranges])).2
        have hlength := Bank.length_cells ((DataModel.holds_registers rfl).mp hholds)
        exact .readWriteRegisters hlength
      | writeSingleCoil | writeSingleRegister | maskWriteRegister =>
        cases h
        exact .write rfl
      | writeMultipleCoils a bits =>
        cases h
        have hmax := hlimits.2
        refine .write ?_
        rw [Request.echo?, quantity?_of_lt (show bits.length < 65536 by omega), Option.map_some]
      | writeMultipleRegisters a words =>
        cases h
        have hmax := hlimits.2
        refine .write ?_
        rw [Request.echo?, quantity?_of_lt (show words.length < 65536 by omega), Option.map_some]
      | reportId => exact (hid rfl).elim
      | custom code data => cases h

/-- A response that fits is what a gateway gives when it comes back. -/
theorem confirm?_padded (hfits : response.Fits r) : r.confirm? response.padded = some response := by
  cases hfits with
  | readCoils hlength | readDiscreteInputs hlength =>
    rename_i bits
    have hfits : bits.length ≤ (padCoils bits).length := by
      rw [padCoils, List.length_append]
      omega
    simp only [Response.padded, Request.confirm?, Response.bitList?, ← hlength]
    rw [Option.filter_some, if_pos (decide_eq_true hfits), Option.map_some, take_padCoils]
  | readInputRegisters hlength | readHoldingRegisters hlength | readWriteRegisters hlength =>
    simp only [Response.padded, Request.confirm?, Response.wordList?, hlength, decide_true,
      Option.filter_some, if_true, Option.map_some]
  | write hecho =>
    cases r with
    | readCoils | readDiscreteInputs | readInputRegisters | readHoldingRegisters
    | readWriteRegisters | reportId | custom => cases hecho
    | _ => exact hecho

/-- A gateway answers with the response that came back, and its map keeps its blocks. -/
theorem finish_some (hl : r.WithinLimits) (h : map.model.Reaches g.pduAddressing r)
    (hfits : response.Fits r) :
    ∃ map', g.finish map r (some response.padded) = .ok (response, map') ∧
      map'.shape = map.shape := by
  obtain ⟨map', hfinish, -, hshape⟩ := finish_of_confirm? hl h (confirm?_padded hfits)
  exact ⟨map', hfinish, hshape⟩

end Device

/-! ### Forwarding -/

namespace Pair

/-- Asks a unit of the server on behalf of a gateway; a failure of the client is one of the
device. -/
def forward (interval : Nat) (unit : UnitId) (request : Request) (p : Pair) :
    Answer Response × Pair :=
  match call interval unit request p with
  | .ok answer p => (answer, p)
  | .error _ p => (.error .serverDeviceFailure, p)

variable {interval : Nat} {p : Pair} {d : Device} {r : Request}

theorem forward_of_ready (h : p.Ready interval) {unit : UnitId}
    (hd : p.server.device? unit = some d) (hlocal : d.IsLocal)
    (hunit : unit.isRegistrable = true) (hs : r.IsSupported) (hl : r.WithinLimits) :
    let result := d.map.model.execute d.pduAddressing d.report r
    ∃ map p', forward interval unit r p = (result.1.padded, p') ∧ map.model = result.2 ∧
      map.shape = d.map.shape ∧ p'.Ready interval ∧
      p'.server.device? unit = some { d with map } := by
  intro result
  obtain ⟨map, p', hcall, hmodel, hshape, hready, hserves⟩ := call_of_ready h hd hlocal
    (UnitId.isBroadcast_of_isRegistrable hunit) hs (Request.size_of_withinLimits hs hl)
  refine ⟨map, p', by rw [forward, hcall], hmodel, hshape, hready, ?_⟩
  have hfound := Server.device?_putDevice_self hd map
  rw [Server.device?] at hfound ⊢
  rw [hserves.devices, hfound]

end Pair

namespace Device

open Pair (forward)

variable {interval : Nat} {p : Pair} {d g : Device}

/-- The map of the gateway has the cells that a request within limits asks for. -/
def Covers (g : Device) (r : Request) : Prop :=
  r ≠ .reportId ∧ (r.WithinLimits → g.map.model.Reaches g.pduAddressing r)

instance (g : Device) (r : Request) : Decidable (g.Covers r) :=
  inferInstanceAs (Decidable (r ≠ .reportId ∧ (_ → _)))

theorem covers_congr {map : DataMap} {r : Request} (h : map.shape = g.map.shape) :
    ({ g with map } : Device).Covers r ↔ g.Covers r := by
  simp only [Covers, DataMap.reaches_congr h]

/-- What a gateway makes of a request is what the device behind it makes of it. -/
theorem execute_forward (h : p.Ready interval) (hd : p.server.device? g.id = some d)
    (hlocal : d.IsLocal) (hunit : g.id.isRegistrable = true) {r : Request} (hcovers : g.Covers r) :
    ∃ result gmap dmap p',
      (g.execute g.map .forward r).run (fun _ p => p) (forward interval g.id) p =
        ((result, gmap), p') ∧
      (Answer.fitted result, dmap.model) = d.map.model.execute d.pduAddressing d.report r ∧
      dmap.shape = d.map.shape ∧ gmap.shape = g.map.shape ∧ p'.Ready interval ∧
      p'.server.device? g.id = some { d with map := dmap } := by
  obtain ⟨hid, hreaches⟩ := hcovers
  by_cases hl : r.WithinLimits
  · by_cases hs : r.IsSupported
    · have hcheck := Request.check_of_withinLimits hs hl
      obtain ⟨map₁, hprepare, -, hshape₁⟩ := prepare_of_reaches hl (hreaches hl)
      obtain ⟨dmap, p', hforward, hmodel, hshape, hready, hd'⟩ :=
        Pair.forward_of_ready h hd hlocal hunit hs hl
      rcases hresult : (d.map.model.execute d.pduAddressing d.report r).1 with e | response
      · have hrefused : forward interval g.id r p = (.error e, p') := by
          rw [hforward, hresult]
          rfl
        refine ⟨.error e, map₁, dmap, p', ?_, ?_, hshape, hshape₁, hready, hd'⟩
        · simp only [execute, hcheck, if_neg hid, hprepare, reduceCtorEq, if_false, if_true,
            Plan.run, hrefused]
        · rw [hmodel, Answer.fitted, ← hresult]
      · have hanswered : forward interval g.id r p = (.ok response.padded, p') := by
          rw [hforward, hresult]
          rfl
        have hreach₁ := (DataMap.reaches_congr hshape₁ _ r).mpr (hreaches hl)
        obtain ⟨gmap, hfinish, hgshape⟩ := finish_some hl hreach₁ (fits_of_execute hid hresult)
        refine ⟨.ok response, gmap, dmap, p', ?_, ?_, hshape, hgshape.trans hshape₁, hready, hd'⟩
        · simp only [execute, hcheck, if_neg hid, hprepare, reduceCtorEq, if_false, if_true,
            Plan.run, hanswered, conclude, hfinish]
        · rw [hmodel, Answer.fitted, if_pos (size_of_execute hresult), ← hresult]
    · cases r with
      | custom code data =>
        refine ⟨.error .illegalFunction, g.map, d.map, p, rfl, ?_, rfl, rfl, h, hd⟩
        have hreach : d.map.model.Reaches d.pduAddressing (.custom code data) := by
          simp [DataModel.Reaches, Request.ranges]
        simp only [DataModel.execute, hl, hreach, not_true_eq_false, if_false]
        rfl
      | _ => exact (hs trivial).elim
  · refine ⟨.error .illegalDataValue, g.map, d.map, p, ?_, ?_, rfl, rfl, h, hd⟩
    · simp only [execute, Request.check_of_not_withinLimits hl]
      rfl
    · simp only [DataModel.execute, hl, not_false_eq_true, if_true, Answer.fitted]

/-- The gateway has the cells that are asked for, if a request within limits asks for any. -/
def Admits (g : Device) (pdu : List UInt8) : Prop :=
  ∀ r, Request.spelled? pdu = some r → g.Covers r

instance (g : Device) (pdu : List UInt8) : Decidable (g.Admits pdu) :=
  inferInstanceAs (Decidable (∀ r ∈ Request.spelled? pdu, g.Covers r))

theorem admits_congr {map : DataMap} {pdu : List UInt8} (h : map.shape = g.map.shape) :
    ({ g with map } : Device).Admits pdu ↔ g.Admits pdu := by
  simp only [Admits, covers_congr h]

theorem executeMessage_forward (h : p.Ready interval) (hd : p.server.device? g.id = some d)
    (hlocal : d.IsLocal) (hunit : g.id.isRegistrable = true) {message : Message}
    (hbroadcast : message.unit.isBroadcast = false) (hadmits : g.Admits message.pdu) :
    ∃ result gmap dmap p',
      (g.executeMessage g.map .forward message).run (fun _ p => p) (forward interval g.id) p =
        ((result, gmap), p') ∧
      (message.toReply (Answer.fitted result), dmap.model) =
        d.map.model.answer d.pduAddressing d.report message.pdu ∧
      dmap.shape = d.map.shape ∧ gmap.shape = g.map.shape ∧ p'.Ready interval ∧
      p'.server.device? g.id = some { d with map := dmap } := by
  have hspelled := Request.toOption_ofPdu message.pdu
  rcases hrequest : Request.ofPdu message.pdu with fault | r
  · rw [hrequest] at hspelled
    refine ⟨.error .illegalDataValue, g.map, d.map, p, ?_, ?_, rfl, rfl, h, hd⟩
    · simp only [executeMessage, Message.request, hrequest]
      rfl
    · simp only [DataModel.answer, ← hspelled, Except.toOption]
      rfl
  · rw [hrequest] at hspelled
    obtain ⟨result, gmap, dmap, p', hexecute, hmodel, hshapes⟩ :=
      execute_forward h hd hlocal hunit (hadmits r hspelled.symm)
    refine ⟨result, gmap, dmap, p', ?_, ?_, hshapes⟩
    · simp only [executeMessage, Message.request, hrequest, hbroadcast, Bool.false_eq_true,
        if_false, hexecute]
    · simp only [DataModel.answer, ← hspelled, Except.toOption, ← hmodel]
      rfl

/-- A gateway replies to a message what the device behind it replies to the protocol data unit of
the message, and that device is left as if it had been asked. -/
theorem process_forward (h : p.Ready interval) (hg : g.IsPlain)
    (hd : p.server.device? g.id = some d) (hlocal : d.IsLocal)
    (hunit : g.id.isRegistrable = true) (peer : Peer) {message : Message}
    (hbroadcast : message.unit.isBroadcast = false) (hadmits : g.Admits message.pdu) :
    ∃ reply gmap dmap p',
      (g.process peer .forward message).run (fun _ p => p) (forward interval g.id) p =
        (⟨some (message.answered reply), gmap, []⟩, p') ∧
      (∀ peer' direct, direct.pdu = message.pdu →
        d.process peer' .own direct = .done ⟨some (direct.answered reply), dmap, []⟩) ∧
      gmap.shape = g.map.shape ∧ p'.Ready interval ∧
      p'.server.device? g.id = some { d with map := dmap } := by
  obtain ⟨result, gmap, dmap, p', hexecute, hanswer, hshape, hgshape, hready, hd'⟩ :=
    executeMessage_forward h hd hlocal hunit hbroadcast hadmits
  refine ⟨message.toReply (Answer.fitted result), gmap, dmap, p', ?_, ?_, hgshape, hready, hd'⟩
  · rw [process_of_isPlain hg, Plan.run_map, hexecute]
  · intro peer' direct hpdu
    obtain ⟨map, hprocess, hmodel, hshape'⟩ := process_of_isLocal hlocal peer' direct
    rw [hpdu, ← hanswer] at hprocess hmodel
    have hmap : map = dmap := DataMap.eq_of_model_of_shape hmodel (hshape'.trans hshape.symm)
    rw [hprocess, hmap]

/-- Behind working links, a gateway replies to messages what the device behind it replies when it is
asked directly, and leaves that device as it would be then. -/
theorem processAll_forward {σ : Type} (h : p.Ready interval) (hg : g.IsPlain)
    (hd : p.server.device? g.id = some d) (hlocal : d.IsLocal)
    (hunit : g.id.isRegistrable = true) (messages direct : List (Peer × Message))
    (hmessages : ∀ m ∈ messages, m.2.unit.isBroadcast = false ∧ g.Admits m.2.pdu)
    (hpdus : messages.map (·.2.pdu) = direct.map (·.2.pdu))
    (call : Request → σ → Answer Response × σ) (s : σ) :
    let behind := g.processAll .forward (forward interval g.id) messages p
    let asked := d.processAll .own call direct s
    behind.1.map (·.map (·.pdu)) = asked.1.map (·.map (·.pdu)) ∧
      behind.2.2.Ready interval ∧ behind.2.2.server.device? g.id = some asked.2.1 := by
  induction messages generalizing p g d direct with
  | nil =>
    obtain rfl : direct = [] := List.map_eq_nil_iff.mp hpdus.symm
    exact ⟨rfl, h, hd⟩
  | cons first rest ih =>
    obtain ⟨peer, message⟩ := first
    obtain ⟨⟨peer', message'⟩, rest', rfl, hpdu, hrest⟩ := List.map_eq_cons_iff.mp hpdus.symm
    obtain ⟨hbroadcast, hadmits⟩ := hmessages _ List.mem_cons_self
    obtain ⟨reply, gmap, dmap, p', hforward, hdirect, hshape, hready, hd'⟩ :=
      process_forward h hg hd hlocal hunit peer hbroadcast hadmits
    have hlocal' : ({ d with map := dmap } : Device).IsLocal :=
      ⟨hlocal.forwardsTo, hlocal.before, hlocal.after⟩
    have hg' : ({ g with map := gmap } : Device).IsPlain := ⟨hg.before, hg.after⟩
    have hmessages' : ∀ m ∈ rest, m.2.unit.isBroadcast = false ∧
        ({ g with map := gmap } : Device).Admits m.2.pdu := by
      intro m hmem
      obtain ⟨hb, ha⟩ := hmessages m (List.mem_cons_of_mem _ hmem)
      exact ⟨hb, (admits_congr hshape).mpr ha⟩
    obtain ⟨hreplies, hfinal⟩ := ih hready hg' hd' hlocal' hunit rest' hmessages' hrest.symm
    simp only [processAll, hforward, hdirect peer' message' hpdu]
    exact ⟨congrArg (some reply.pdu :: ·) hreplies, hfinal⟩

/-- A gateway that counts addresses from zero, before a device on a serial line that counts them
from one and has fewer registers: a register is written, all of them are read, one more is asked
for than the device has, and the last message is malformed. -/
theorem processAll_forward_registers :
    let g := { (ofId ⟨7⟩).declare .holdingRegister 4 0 with pduAddressing := true }
    let d := (ofId ⟨7⟩).declare .holdingRegister 3 1
    let client := Client.ofTransport ⟨.attached .rtu true, .quiet "client"⟩ .standard false
    let server := Server.ofTransport ⟨.attached .rtu true, .quiet "server"⟩ .standard
    let p : Pair := ⟨client, { server with devices := [d], isOpen := true }, .direct, .direct⟩
    let message := fun pdu => (Peer.inProcess, (⟨.tcp 9 ⟨7⟩, .request, pdu⟩ : Message))
    let messages := [message [0x06, 0, 1, 0, 5], message [0x03, 0, 0, 0, 3],
      message [0x03, 0, 1, 0, 3], message [0x03, 0, 0]]
    let behind := g.processAll .forward (forward 20 g.id) messages p
    (p.Ready 20 ∧ g.IsPlain ∧ d.IsLocal) ∧
      behind.1.map (·.map (·.pdu)) = [some [0x06, 0, 1, 0, 5],
        some [0x03, 6, 0, 0, 0, 5, 0, 0], some [0x83, 2], some [0x83, 3]] ∧
      (behind.2.2.server.device? g.id).map (·.map.model.holdingRegisters.cells 1 3) =
        some [0, 5, 0] := by
  intro g d client server p message messages behind
  have hready : p.Ready 20 :=
    ⟨⟨⟨fun _ => rfl, .inr ⟨rfl, rfl⟩⟩, rfl⟩, ⟨⟨fun _ => rfl, .inr ⟨rfl, rfl⟩⟩, rfl⟩, rfl, rfl,
      Pipe.inTime_direct _ _, Pipe.inTime_direct _ _⟩
  have hmessages : ∀ m ∈ messages, m.2.unit.isBroadcast = false ∧ g.Admits m.2.pdu := by
    intro m hmem
    simp only [messages, List.mem_cons, List.not_mem_nil, or_false] at hmem
    rcases hmem with rfl | rfl | rfl | rfl <;> exact ⟨by decide, by decide⟩
  have hplain : g.IsPlain := ⟨rfl, rfl⟩
  have hlocal : d.IsLocal := ⟨rfl, rfl, rfl⟩
  have hd : p.server.device? g.id = some d := rfl
  obtain ⟨hreplies, -, hfound⟩ := processAll_forward hready hplain hd hlocal (by decide)
    messages messages hmessages rfl (fun _ s => (.error .illegalFunction, s)) ()
  refine ⟨⟨hready, hplain, hlocal⟩, ?_, ?_⟩
  · refine hreplies.trans ?_
    decide
  · simp only [behind]
    rw [hfound]
    decide

end Device

end Modbus

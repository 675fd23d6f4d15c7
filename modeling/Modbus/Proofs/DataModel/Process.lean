import Modbus.Proofs.DataModel.Execute

/-! Devices that answer from their map alone. The replies of such a device to any messages, and its
map after them, are those of the data model of its map, and a map is known from its data model
and the place of its blocks. -/

namespace Modbus

/-! ### Maps from their data models -/

theorem Block.eq_of_bank_of_shape {α : Type} {b b' : Option (Block α)} (hb : bank b = bank b')
    (hs : b.map shape = b'.map shape) : b = b' := by
  rcases b with _ | ⟨base, cells⟩ <;> rcases b' with _ | ⟨base', cells'⟩ <;>
    simp only [Option.map_none, Option.map_some, reduceCtorEq, Option.some.injEq, shape,
      Prod.mk.injEq] at hs
  · rfl
  · obtain ⟨rfl, -⟩ := hs
    have hcells : cells = cells' := by
      refine List.ext_getElem? fun i => ?_
      have hi := congrFun hb (base.toNat + i)
      simpa [bank_mk] using hi
    rw [hcells]

/-- A map is determined by its model and by where its blocks begin and how many cells they have. -/
theorem DataMap.eq_of_model_of_shape {m m' : DataMap} (hm : m.model = m'.model)
    (hs : m.shape = m'.shape) : m = m' := by
  simp only [model, DataModel.mk.injEq] at hm
  obtain ⟨hc, hd, hi, hh⟩ := hm
  have hcoils := Block.eq_of_bank_of_shape hc (congrFun hs .coil)
  have hdiscrete := Block.eq_of_bank_of_shape hd (congrFun hs .discreteInput)
  have hinput := Block.eq_of_bank_of_shape hi (congrFun hs .inputRegister)
  have hholding := Block.eq_of_bank_of_shape hh (congrFun hs .holdingRegister)
  cases m
  cases m'
  simp only at hcoils hdiscrete hinput hholding
  rw [hcoils, hdiscrete, hinput, hholding]

/-! ### Replies -/

/-- The frame that answers a message with a reply. -/
def Message.answered (m : Message) (reply : Reply) : Message :=
  ⟨m.header.envelope reply.pdu, .response, reply.pdu⟩

/-- An answer about the function of a message. -/
def Message.toReply (m : Message) (answer : Answer Response) : Reply :=
  answer.mapError fun e => ⟨.ofCode m.functionCode, e⟩

theorem Message.reply_of_size {m : Message} {reply : Reply} (h : reply.size ≤ 253) :
    m.reply reply = .ok (m.answered reply) :=
  if_neg (by unfold maxPduSize; omega)

theorem Message.reply_of_not_size {m : Message} {reply : Reply} (h : ¬ reply.size ≤ 253) :
    m.reply reply = .error .responseSize :=
  if_pos (by unfold maxPduSize; omega)

namespace Device

/-- A device that asks nobody before it answers. -/
structure IsLocal (d : Device) : Prop where
  forwardsTo : d.forwardsTo = none
  before : d.before = none
  after : d.after = none

instance (d : Device) : Decidable d.IsLocal :=
  decidable_of_iff (d.forwardsTo.isNone ∧ d.before.isNone ∧ d.after.isNone) <| by
    simp only [Option.isNone_iff_eq_none]
    exact ⟨fun ⟨hf, hb, ha⟩ => ⟨hf, hb, ha⟩, fun h => ⟨h.forwardsTo, h.before, h.after⟩⟩

variable {d : Device}

theorem consult_none (d : Device) (peer : Peer) (message : Message) (map : DataMap) :
    d.consult none peer message map = ⟨.proceed, message, map, []⟩ := rfl

theorem respond_of_after_eq_none (h : d.after = none) (peer : Peer) (message : Message)
    (result : Answer Response) (map : DataMap) :
    d.respond peer message result map =
      ⟨some (message.answered (message.toReply (Answer.fitted result))), map, []⟩ := by
  have hrefuse : ∀ e : ExceptionResponse, Reply.size (.error e) ≤ 253 := fun _ =>
    (show 2 ≤ 253 by decide)
  rcases result with e | response
  · have hreply := message.reply_of_size (hrefuse ⟨.ofCode message.functionCode, e⟩)
    simp only [respond, Except.mapError, hreply, h, consult_none]
    rfl
  · by_cases hsize : response.size ≤ 253
    · have hreply : message.reply (.ok response) = _ := message.reply_of_size hsize
      simp only [respond, Except.mapError, hreply, h, consult_none, Answer.fitted, if_pos hsize]
      rfl
    · have hreply : message.reply (.ok response) = _ := message.reply_of_not_size hsize
      have hrefusal := message.reply_of_size
        (hrefuse ⟨.ofCode message.functionCode, .serverDeviceFailure⟩)
      simp only [respond, Except.mapError, hreply, Answer.fitted, if_neg hsize, refusal, hrefusal]
      rfl

/-- The gateway asks nobody but the device behind it. -/
structure IsPlain (g : Device) : Prop where
  before : g.before = none
  after : g.after = none

theorem process_of_isPlain (h : d.IsPlain) (peer : Peer) (route : Route) (message : Message) :
    d.process peer route message =
      (d.executeMessage d.map route message).map fun executed =>
        ⟨some (message.answered (message.toReply (Answer.fitted executed.1))), executed.2, []⟩ := by
  simp only [process, h.before, consult_none]
  rcases d.executeMessage d.map route message with ⟨result, map⟩ | ⟨notes, request, resume⟩
  · simp only [respond_of_after_eq_none h.after]
    rfl
  · simp only [respond_of_after_eq_none h.after]
    rfl

theorem executeMessage_own (d : Device) (map : DataMap) (message : Message) :
    ∃ result map', d.executeMessage map .own message = .done (result, map') ∧
      (message.toReply (Answer.fitted result), map'.model) =
        map.model.answer d.pduAddressing d.report message.pdu ∧
      map'.shape = map.shape := by
  have hspelled := Request.toOption_ofPdu message.pdu
  rcases hrequest : Request.ofPdu message.pdu with fault | r
  · rw [hrequest] at hspelled
    refine ⟨.error .illegalDataValue, map, ?_, ?_, rfl⟩
    · simp only [executeMessage, Message.request, hrequest]
    · simp only [DataModel.answer, ← hspelled, Except.toOption]
      rfl
  · rw [hrequest] at hspelled
    obtain ⟨result, map', hexecute, hmodel, hshape⟩ := execute_own d map r
    refine ⟨result, map', ?_, ?_, hshape⟩
    · simp only [executeMessage, Message.request, hrequest, ite_self, hexecute]
    · simp only [DataModel.answer, ← hspelled, Except.toOption, ← hmodel]
      rfl

/-- A local device answers a message as the model of its map does. -/
theorem process_of_isLocal (h : d.IsLocal) (peer : Peer) (message : Message) :
    ∃ map', d.process peer .own message =
        .done ⟨some (message.answered
          (d.map.model.answer d.pduAddressing d.report message.pdu).1), map', []⟩ ∧
      map'.model = (d.map.model.answer d.pduAddressing d.report message.pdu).2 ∧
      map'.shape = d.map.shape := by
  obtain ⟨result, map', hexecute, hmodel, hshape⟩ := executeMessage_own d d.map message
  refine ⟨map', ?_, ?_, hshape⟩
  · simp only [process, h.before, consult_none, hexecute, respond_of_after_eq_none h.after,
      ← hmodel]
    rfl
  · rw [← hmodel]

/-! ### Runs -/

/-- Lets a device process messages one after the other, where `call` forwards requests: the replies
and the device after them. -/
def processAll {σ : Type} (route : Route) (call : Request → σ → Answer Response × σ) :
    List (Peer × Message) → Device → σ → List (Option Message) × Device × σ
  | [], d, s => ([], d, s)
  | (peer, message) :: rest, d, s =>
    let (served, s) := (d.process peer route message).run (fun _ s => s) call s
    let (replies, d, s) := processAll route call rest { d with map := served.map } s
    (served.reply :: replies, d, s)

/-- The replies of a local device to any messages and the cells of its map after them are those of
the data model. Nothing else of the device changes, and nobody is asked. -/
theorem processAll_of_isLocal {σ : Type} (h : d.IsLocal)
    (call : Request → σ → Answer Response × σ) (messages : List (Peer × Message)) (s : σ) :
    let answers := d.map.model.answers d.pduAddressing d.report (messages.map (·.2.pdu))
    ∃ map', processAll .own call messages d s =
        (List.zipWith (fun m reply => some (m.2.answered reply)) messages answers.1,
          { d with map := map' }, s) ∧
      map'.model = answers.2 ∧ map'.shape = d.map.shape := by
  induction messages generalizing d with
  | nil => exact ⟨d.map, rfl, rfl, rfl⟩
  | cons first rest ih =>
    obtain ⟨peer, message⟩ := first
    obtain ⟨map₁, hprocess, hmodel₁, hshape₁⟩ := process_of_isLocal h peer message
    have hlocal : ({ d with map := map₁ } : Device).IsLocal := ⟨h.forwardsTo, h.before, h.after⟩
    obtain ⟨map₂, hrest, hmodel₂, hshape₂⟩ := ih hlocal
    refine ⟨map₂, ?_, ?_, hshape₂.trans hshape₁⟩
    · simp only [processAll, hprocess, Plan.run, hrest, List.map_cons, DataModel.answers, hmodel₁,
        List.zipWith_cons_cons]
    · simp only [hmodel₂, hmodel₁, List.map_cons, DataModel.answers]

/-- Of two registers from address 10 on, the second is written and read, and then one more than
there are is asked for. -/
theorem processAll_of_isLocal_registers :
    let d := (ofId ⟨1⟩).declare .holdingRegister 2 10
    let message := fun pdu => (Peer.inProcess, (⟨.tcp 7 ⟨1⟩, .request, pdu⟩ : Message))
    let run := processAll .own (fun _ s => (.error .illegalFunction, s))
      [message [0x06, 0, 10, 0, 5], message [0x03, 0, 9, 0, 2], message [0x03, 0, 9, 0, 3]] d ()
    d.IsLocal ∧ run.1.map (·.map (·.pdu)) =
      [some [0x06, 0, 10, 0, 5], some [0x03, 4, 0, 0, 0, 5], some [0x83, 2]] := by
  refine ⟨by decide, ?_⟩
  obtain ⟨map', hrun, -, -⟩ := processAll_of_isLocal
    (d := (ofId ⟨1⟩).declare .holdingRegister 2 10) (by decide)
    (fun _ s => (.error .illegalFunction, s))
    ([[0x06, 0, 10, 0, 5], [0x03, 0, 9, 0, 2], [0x03, 0, 9, 0, 3]].map fun pdu =>
      (Peer.inProcess, (⟨.tcp 7 ⟨1⟩, .request, pdu⟩ : Message))) ()
  refine (congrArg (fun run => run.1.map (·.map (·.pdu))) hrun).trans ?_
  dsimp only
  decide

end Device

end Modbus

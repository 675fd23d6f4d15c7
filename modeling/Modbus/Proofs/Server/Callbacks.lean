import Modbus.Proofs.DataModel.Process
import Modbus.Proofs.Frame.Replies
import Modbus.Server.Basic

/-! Callbacks around the execution of a request. The first one sees the message as it was received
and may change it, and decides whether it is executed; the second one sees what has been executed.
Each may keep the reply back or refuse the request, and none can change what is answered. -/

namespace Modbus

namespace Device

/-- A world in which messages are processed. Notes are put on record in it, and it answers the
requests that are forwarded. -/
structure World (σ : Type) where
  note : List String → σ → σ
  call : Request → σ → Answer Response × σ
  note_nil : ∀ s, note [] s = s
  note_append : ∀ notes more s, note (notes ++ more) s = note more (note notes s)

/-- The world of a device of a server: its notes go into the journal, and its requests to the client
that it forwards to. -/
def World.ofServer (d : Device) : World Server where
  note notes s := s.withJournal (s.journal.addNotes notes)
  call request s :=
    match d.forwardsTo with
    | none => (.error .gatewayPathUnavailable, s)
    | some id => Server.forward id d.id request s
  note_nil s := by
    show s.withJournal (s.journal.addNotes []) = s
    simp only [Server.withJournal, Server.journal, Journal.addNotes, List.map_nil, List.append_nil]
  note_append notes more s := by
    simp only [Server.withJournal, Server.journal, Journal.addNotes, List.map_append,
      List.append_assoc]

/-- A run of a callback on a message and a map. -/
structure CallbackRun where
  callback : Callback
  message : Message
  map : DataMap

/-- What the callback leaves. -/
def CallbackRun.left (d : Device) (peer : Peer) (t : CallbackRun) : CallbackResult :=
  t.callback peer d.id t.message t.map

/-- An execution of the request of a message on a map, in a world. -/
structure Execution (σ : Type) where
  message : Message
  map : DataMap
  world : σ

namespace Execution

variable {σ : Type} (w : World σ) (d : Device) (route : Route) (x : Execution σ)

/-- The result of the execution and the map after it, and the world after it. -/
def outcome : (Answer Response × DataMap) × σ :=
  (d.executeMessage x.map route x.message).run w.note w.call x.world

/-- The reply that says what came of the execution. -/
def reply : Reply := x.message.toReply (x.outcome w d route).1.1

end Execution

/-- The course that the processing of a message takes: a run of the first callback, an execution and
a run of the second callback, in this order, as far as it comes to them. -/
structure Course (σ : Type) where
  before : Option CallbackRun
  execution : Option (Execution σ)
  after : Option CallbackRun

namespace Course

variable {σ : Type} (w : World σ) (d : Device) (peer : Peer) (route : Route) (c : Course σ)

def runs : List CallbackRun := c.before.toList ++ c.after.toList

/-- The execution of a message that is processed in the world `s`, on what the first callback leaves
of it. -/
def started (message : Message) (s : σ) : Execution σ :=
  match c.before with
  | none => ⟨message, d.map, s⟩
  | some t => ⟨(t.left d peer).message, (t.left d peer).map, w.note (t.left d peer).notes s⟩

/-- The map that a course leaves: each part of it has changed that of the part before. -/
def map : DataMap :=
  match c.before, c.execution, c.after with
  | _, _, some t => (t.left d peer).map
  | _, some x, none => (x.outcome w d route).1.2
  | some t, none, none => (t.left d peer).map
  | none, none, none => d.map

/-- The world that a course leaves, with the notes of each callback that has run. -/
def world (s : σ) : σ :=
  let opened := c.before.elim s fun t => w.note (t.left d peer).notes s
  let executed := c.execution.elim opened fun x => (x.outcome w d route).2
  c.after.elim executed fun t => w.note (t.left d peer).notes executed

variable {c} {t : CallbackRun}

theorem mem_or_mem_of_getLast? (h : t ∈ c.runs.getLast?) : t ∈ c.after ∨ t ∈ c.before := by
  rcases c with ⟨_ | first, x, _ | second⟩
  · cases h
  · exact .inl h
  · exact .inr h
  · exact .inl h

theorem mem_getLast?_of_mem (c : Course σ) (h : t ∈ c.after) : t ∈ c.runs.getLast? := by
  rcases c with ⟨_ | first, x, _ | second⟩
  · cases h
  · exact h
  · cases h
  · exact h

end Course

variable {σ : Type}

/-- Processes a message in a world, and puts on record what is noted. -/
def handle (w : World σ) (d : Device) (peer : Peer) (route : Route) (message : Message) (s : σ) :
    Served × σ :=
  let (served, s) := (d.process peer route message).run w.note w.call s
  (served, w.note served.notes s)

/-- The course `c` is the one that the processing of `message` takes in the world `s`, and what it
comes to is `served` in the world `s'`. -/
structure Conducts (w : World σ) (d : Device) (peer : Peer) (route : Route) (message : Message)
    (s : σ) (c : Course σ) (served : Served) (s' : σ) : Prop where
  /-- The first callback runs once, before anything else, on the message that was received. -/
  before : c.before = d.before.map fun f => ⟨f, message, d.map⟩
  execution : c.execution.isSome ↔ ∀ t ∈ c.before, (t.left d peer).verdict = .proceed
  /-- It is executed what the first callback has left. -/
  executed : ∀ x ∈ c.execution, x = c.started w d peer message s
  malformed : ∀ x ∈ c.execution, ∀ fault, x.message.request = .error fault →
    x.outcome w d route = ((.error .illegalDataValue, x.map), x.world)
  after : c.after.isSome ↔
    d.after.isSome ∧ ∃ x ∈ c.execution, (x.reply w d route).size ≤ 253
  /-- The second callback runs on the message that was executed and the map after that. -/
  finished : ∀ t ∈ c.after, ∃ f x, d.after = some f ∧ c.execution = some x ∧
    t = ⟨f, x.message, (x.outcome w d route).1.2⟩
  /-- All changes of the map are kept. -/
  map : served.map = c.map w d peer route
  /-- The callbacks of the course have run once each, and nothing else has been noted. -/
  world : s' = c.world w d peer route s
  silent : served.reply = none ↔ ∃ t ∈ c.runs.getLast?, (t.left d peer).verdict = .silence
  failed : ∀ t ∈ c.runs.getLast?, ∀ reason, (t.left d peer).verdict = .failure reason →
    let message := (t.left d peer).message
    ∃ reply, served.reply = some reply ∧ reply.header = message.header ∧
      reply.response = .ok (.error ⟨.ofCode message.functionCode, .serverDeviceFailure⟩)
  /-- What is answered is what came of the execution, if it fits. -/
  replied : (∀ t ∈ c.runs.getLast?, (t.left d peer).verdict = .proceed) →
    ∃ x reply, c.execution = some x ∧ served.reply = some reply ∧
      reply = x.message.answered (x.message.toReply (Answer.fitted (x.outcome w d route).1.1)) ∧
      reply.header = x.message.header

/-- The callbacks leave requests what they are: they do not mark a message as an exception. -/
def KeepsRequests (d : Device) : Prop :=
  ∀ f, d.before = some f ∨ d.after = some f → ∀ peer id message map,
    message.functionCode < 0x80 → (f peer id message map).message.functionCode < 0x80

end Device

/-! ### Replies -/

namespace Message

theorem header_answered (m : Message) (reply : Reply) : (m.answered reply).header = m.header := by
  show (m.header.envelope reply.pdu).header = m.header
  rcases m.header with unit | ⟨transaction, unit⟩ <;> rfl

/-- A request that is refused is answered with the exception of its function. -/
theorem response_answered_error {m : Message} (h : m.functionCode < 0x80) (e : ExceptionCode) :
    (m.answered (.error ⟨.ofCode m.functionCode, e⟩)).response =
      .ok (.error ⟨.ofCode m.functionCode, .ofCode e.code⟩) := by
  have hcode : Reply.function (.error ⟨.ofCode m.functionCode, e⟩) = .ofCode m.functionCode := rfl
  have hread : Reply.ofPdu (Reply.pdu (.error ⟨.ofCode m.functionCode, e⟩)) =
      .ok (Reply.canonical (.error ⟨.ofCode m.functionCode, e⟩)) :=
    Reply.ofPdu_pdu_of_lt (show 2 ≤ 253 by decide)
      (by rw [hcode, FunctionCode.code_ofCode]; exact h)
  show Reply.ofPdu (Reply.pdu (.error ⟨.ofCode m.functionCode, e⟩)) = _
  rw [hread, Reply.canonical, FunctionCode.code_ofCode]

end Message

namespace Device

variable {σ : Type} {w : World σ} {d : Device} {peer : Peer} {route : Route} {message m : Message}
  {map : DataMap}

theorem refusal_eq (m : Message) (e : ExceptionCode) :
    refusal m e = some (m.answered (.error ⟨.ofCode m.functionCode, e⟩)) := by
  have hsize : Reply.size (.error ⟨.ofCode m.functionCode, e⟩) ≤ 253 := show 2 ≤ 253 by decide
  rw [refusal, m.reply_of_size hsize]
  rfl

/-- A reply that does not fit is replaced, and the second callback does not run. -/
theorem respond_of_not_size {answer : Answer Response} (h : ¬ (m.toReply answer).size ≤ 253) :
    d.respond peer m answer map =
      ⟨some (m.answered (m.toReply (Answer.fitted answer))), map, []⟩ := by
  have hreply : m.reply (answer.mapError _) = _ := m.reply_of_not_size h
  rcases answer with e | response
  · exact (h (show 2 ≤ 253 by decide)).elim
  · have hfitted : Answer.fitted (.ok response) = .error .serverDeviceFailure := if_neg h
    simp only [respond, hreply, hfitted, refusal_eq]
    rfl

/-- A reply that fits is sent, unless the second callback decides otherwise. -/
theorem respond_of_size (d : Device) (peer : Peer) (map : DataMap) {answer : Answer Response}
    (h : (m.toReply answer).size ≤ 253) :
    d.respond peer m answer map =
      let after := d.consult d.after peer m map
      match after.verdict with
      | .proceed =>
        ⟨some (m.answered (m.toReply (Answer.fitted answer))), after.map, after.notes⟩
      | .silence => ⟨none, after.map, after.notes⟩
      | .failure _ =>
        ⟨refusal after.message .serverDeviceFailure, after.map, after.notes⟩ := by
  have hfitted : Answer.fitted answer = answer := by
    rcases answer with e | response
    · rfl
    · exact if_pos h
  have hreply : m.reply (answer.mapError _) = _ := m.reply_of_size h
  simp only [respond, hreply, hfitted]
  rfl

/-- A message that the first callback lets pass is executed and then answered. -/
theorem handle_of_proceed (w : World σ) (route : Route) {notes : List String} {s : σ}
    (x : Execution σ)
    (h : d.consult d.before peer message d.map = ⟨.proceed, x.message, x.map, notes⟩)
    (hx : x.world = w.note notes s) :
    let served := d.respond peer x.message (x.outcome w d route).1.1 (x.outcome w d route).1.2
    (d.handle w peer route message s).1.reply = served.reply ∧
      (d.handle w peer route message s).1.map = served.map ∧
      (d.handle w peer route message s).2 = w.note served.notes (x.outcome w d route).2 := by
  simp only [handle, process, h, Execution.outcome, hx]
  rcases d.executeMessage x.map route x.message with ⟨answer, map'⟩ | ⟨asked, request, resume⟩
  · exact ⟨rfl, rfl, w.note_append _ _ _⟩
  · simp only [Plan.run, w.note_append]
    exact ⟨trivial, trivial, trivial⟩

/-- What comes of an answer that is given on the map `map`, where `after` is the run of the second
callback, if it runs. -/
structure Concludes (w : World σ) (d : Device) (peer : Peer) (m : Message)
    (answer : Answer Response) (map : DataMap) (s : σ) (after : Option CallbackRun)
    (served : Served) : Prop where
  isSome : after.isSome ↔ d.after.isSome ∧ (m.toReply answer).size ≤ 253
  run : ∀ t ∈ after, ∃ f, d.after = some f ∧ t = ⟨f, m, map⟩
  map : served.map = after.elim map fun t => (t.left d peer).map
  world : w.note served.notes s = after.elim s fun t => w.note (t.left d peer).notes s
  silent : served.reply = none ↔ ∃ t ∈ after, (t.left d peer).verdict = .silence
  failed : ∀ t ∈ after, ∀ reason, (t.left d peer).verdict = .failure reason →
    served.reply = refusal (t.left d peer).message .serverDeviceFailure
  replied : (∀ t ∈ after, (t.left d peer).verdict = .proceed) →
    served.reply = some (m.answered (m.toReply (Answer.fitted answer)))

theorem exists_concludes (w : World σ) (d : Device) (peer : Peer) (m : Message)
    (answer : Answer Response) (map : DataMap) (s : σ) :
    ∃ after, Concludes w d peer m answer map s after (d.respond peer m answer map) := by
  by_cases hsize : (m.toReply answer).size ≤ 253
  · have hrespond := respond_of_size d peer map hsize
    rcases hafter : d.after with _ | f
    · refine ⟨none, ?_⟩
      rw [hrespond, hafter]
      exact ⟨by simp [hafter], nofun, rfl, w.note_nil s, by simp [consult], nofun, fun _ => rfl⟩
    · refine ⟨some ⟨f, m, map⟩, ?_⟩
      have hleft : d.consult (some f) peer m map = CallbackRun.left d peer ⟨f, m, map⟩ := rfl
      rw [hrespond, hafter, hleft]
      rcases hverdict : (CallbackRun.left d peer ⟨f, m, map⟩).verdict with _ | _ | reason
      all_goals
        simp only [hverdict]
        refine ⟨by simp [hafter, hsize], ?_, rfl, rfl, ?_, ?_, ?_⟩
        · rintro t ht
          obtain rfl := Option.some.inj ht
          exact ⟨f, hafter, rfl⟩
        all_goals simp [hverdict, refusal_eq]
  · rw [respond_of_not_size hsize]
    exact ⟨none, by simp [hsize], nofun, rfl, w.note_nil s, by simp, nofun, fun _ => rfl⟩

/-! ### The course of a message -/

theorem outcome_of_malformed {x : Execution σ} {fault : PduFault}
    (h : x.message.request = .error fault) :
    x.outcome w d route = ((.error .illegalDataValue, x.map), x.world) := by
  simp only [Execution.outcome, executeMessage, h, Plan.run]

/-- What is left for the execution of a message. -/
theorem started_eq (w : World σ) (d : Device) (peer : Peer) (c : Course σ) (s : σ)
    (h : c.before = d.before.map fun f => ⟨f, message, d.map⟩) :
    let opened := d.consult d.before peer message d.map
    (∀ t ∈ c.before, t.left d peer = opened) ∧
      c.started w d peer message s = ⟨opened.message, opened.map, w.note opened.notes s⟩ ∧
      (c.before.elim s fun t => w.note (t.left d peer).notes s) = w.note opened.notes s := by
  rcases hbefore : d.before with _ | f <;> rw [hbefore] at h
  · refine ⟨by simp [h], ?_, ?_⟩
    · simp only [Course.started, h, Option.map_none, consult, w.note_nil]
    · simp only [h, Option.map_none, consult, w.note_nil, Option.elim_none]
  · refine ⟨by simp [h, CallbackRun.left, consult], ?_, ?_⟩
    · simp only [Course.started, h, Option.map_some, consult, CallbackRun.left]
    · simp only [h, Option.map_some, consult, CallbackRun.left, Option.elim_some]

theorem refusal_spec (h : m.functionCode < 0x80) :
    ∃ reply, refusal m .serverDeviceFailure = some reply ∧ reply.header = m.header ∧
      reply.response = .ok (.error ⟨.ofCode m.functionCode, .serverDeviceFailure⟩) :=
  ⟨_, refusal_eq m _, m.header_answered _, Message.response_answered_error h _⟩

/-- A message that the first callback does not let pass is not executed. -/
theorem conducts_of_not_proceed {f : Callback} (hbefore : d.before = some f)
    (hd : d.KeepsRequests) (hm : message.functionCode < 0x80) (s : σ)
    (h : (CallbackRun.left d peer ⟨f, message, d.map⟩).verdict ≠ .proceed) :
    Conducts w d peer route message s ⟨some ⟨f, message, d.map⟩, none, none⟩
      (d.handle w peer route message s).1 (d.handle w peer route message s).2 := by
  have hconsult : d.consult d.before peer message d.map =
      CallbackRun.left d peer ⟨f, message, d.map⟩ := by
    rw [hbefore]
    rfl
  have hcode : (CallbackRun.left d peer ⟨f, message, d.map⟩).message.functionCode < 0x80 :=
    hd f (.inl hbefore) peer d.id message d.map hm
  have hfirst : (⟨some ⟨f, message, d.map⟩, none, none⟩ : Course σ).before =
      d.before.map fun f => ⟨f, message, d.map⟩ := by
    rw [hbefore]
    rfl
  cases hverdict : (CallbackRun.left d peer ⟨f, message, d.map⟩).verdict with
  | proceed => exact (h hverdict).elim
  | silence =>
    simp only [handle, process, hconsult, hverdict, Plan.run]
    refine ⟨hfirst, by simp [hverdict], by simp, by simp, by simp, by simp, rfl, rfl, ?_, ?_, ?_⟩
    all_goals simp [Course.runs, hverdict]
  | failure reason =>
    simp only [handle, process, hconsult, hverdict, Plan.run]
    refine ⟨hfirst, by simp [hverdict], by simp, by simp, by simp, by simp, rfl, rfl, ?_, ?_, ?_⟩
    · simp [Course.runs, hverdict, refusal_eq]
    · simpa [Course.runs, hverdict] using refusal_spec hcode
    · simp [Course.runs, hverdict]

/-- The message that the first callback leaves still asks for something. -/
theorem functionCode_consult (peer : Peer) (hd : d.KeepsRequests)
    (hm : message.functionCode < 0x80) :
    (d.consult d.before peer message d.map).message.functionCode < 0x80 := by
  rcases hbefore : d.before with _ | f
  · exact hm
  · exact hd f (.inl hbefore) peer d.id message d.map hm

/-- A message that the first callback lets pass is executed, and what follows is decided by the
second callback. -/
theorem exists_conducts_of_proceed (hd : d.KeepsRequests) (hm : message.functionCode < 0x80)
    (s : σ) (h : (d.consult d.before peer message d.map).verdict = .proceed) :
    ∃ c, Conducts w d peer route message s c (d.handle w peer route message s).1
      (d.handle w peer route message s).2 := by
  have hcode := functionCode_consult peer hd hm
  generalize hopened : d.consult d.before peer message d.map = opened at h hcode
  let x : Execution σ := ⟨opened.message, opened.map, w.note opened.notes s⟩
  have hconsult : d.consult d.before peer message d.map =
      ⟨.proceed, opened.message, opened.map, opened.notes⟩ := by
    rw [← h, hopened]
  obtain ⟨hreply, hmap, hworld⟩ := handle_of_proceed w route x hconsult rfl
  obtain ⟨after, hafter⟩ := exists_concludes w d peer x.message (x.outcome w d route).1.1
    (x.outcome w d route).1.2 (x.outcome w d route).2
  let c : Course σ := ⟨d.before.map fun f => ⟨f, message, d.map⟩, some x, after⟩
  obtain ⟨hleft, hstarted, hnoted⟩ := started_eq w d peer c s rfl
  rw [hopened] at hleft hstarted hnoted
  have hpassed : ∀ t ∈ c.before, (t.left d peer).verdict = .proceed := by
    intro t ht
    rw [hleft t ht, h]
  have hlast : ∀ t ∈ c.runs.getLast?, t ∈ after ∨ (t.left d peer).verdict = .proceed := by
    intro t ht
    exact (Course.mem_or_mem_of_getLast? ht).imp_right (hpassed t)
  have hfinal : ∀ t ∈ after, t ∈ c.runs.getLast? := fun t ht => c.mem_getLast?_of_mem ht
  refine ⟨c, rfl, by simpa [c] using hpassed, ?_, ?_, ?_, ?_, ?_, ?_, ?_, ?_, ?_⟩
  · rintro y hy
    rw [hstarted, ← Option.some.inj hy]
  · exact fun y _ fault hfault => outcome_of_malformed hfault
  · rw [hafter.isSome]
    simp [c, Execution.reply]
  · intro t ht
    obtain ⟨f, hf, hrun⟩ := hafter.run t ht
    exact ⟨f, x, hf, rfl, hrun⟩
  · rw [hmap, hafter.map]
    rcases after with _ | t <;> rfl
  · rw [hworld, hafter.world, Course.world, hnoted]
    rfl
  · rw [hreply, hafter.silent]
    constructor
    · rintro ⟨t, ht, hverdict⟩
      exact ⟨t, hfinal t ht, hverdict⟩
    · rintro ⟨t, ht, hverdict⟩
      rcases hlast t ht with ht' | hproceed
      · exact ⟨t, ht', hverdict⟩
      · cases hproceed.symm.trans hverdict
  · intro t ht reason hverdict
    rcases hlast t ht with ht' | hproceed
    · obtain ⟨f, hf, hrun⟩ := hafter.run t ht'
      rw [hreply, hafter.failed t ht' reason hverdict, hrun]
      exact refusal_spec (hd f (.inr hf) peer d.id x.message _ hcode)
    · cases hproceed.symm.trans hverdict
  · intro hall
    refine ⟨x, _, rfl, ?_, rfl, x.message.header_answered _⟩
    rw [hreply]
    exact hafter.replied fun t ht => hall t (hfinal t ht)

/-- The processing of a message runs the first callback on it, executes what that leaves if it lets
it pass, and runs the second callback if there is an answer that fits; each at most once. The reply
is what came of the execution, unless the last callback that ran keeps it back or refuses the
request. -/
theorem exists_conducts (hd : d.KeepsRequests) (hm : message.functionCode < 0x80) (w : World σ)
    (peer : Peer) (route : Route) (s : σ) :
    ∃ c, Conducts w d peer route message s c (d.handle w peer route message s).1
      (d.handle w peer route message s).2 := by
  by_cases hproceed : (d.consult d.before peer message d.map).verdict = .proceed
  · exact exists_conducts_of_proceed hd hm s hproceed
  · rcases hbefore : d.before with _ | f
    · rw [hbefore] at hproceed
      exact (hproceed rfl).elim
    · rw [hbefore] at hproceed
      exact ⟨_, conducts_of_not_proceed hbefore hd hm s hproceed⟩

/-- The first callback writes a register and turns to another unit, and the second one refuses what
has been read. The refusal goes to the unit of the last message, and the register stays written. -/
theorem exists_conducts_register :
    let before : Callback := fun _ _ m map => ⟨.proceed, m.setUnit ⟨9⟩,
      (map.writeRegisters .holdingRegister 1 [7]).toOption.getD map, ["before"]⟩
    let after : Callback := fun _ _ m map => ⟨.failure "late", m.setUnit ⟨5⟩, map, ["after"]⟩
    let d := { (Device.ofId ⟨33⟩).declare .holdingRegister 1 1 with
      before := some before, after := some after }
    let s := Server.ofTransport ⟨.attached .tcp true, .quiet "server"⟩ .standard
    let message : Message := ⟨.tcp 3 ⟨33⟩, .request, [3, 0, 0, 0, 1]⟩
    let (served, s') := d.handle (.ofServer d) .inProcess .own message s
    (d.KeepsRequests ∧ message.functionCode < 0x80) ∧
      (∃ c, Conducts (.ofServer d) d .inProcess .own message s c served s' ∧
        c.runs.map (·.message.unit.value) = [33, 9]) ∧
      served.reply.map (·.adu) = some [0, 3, 0, 0, 0, 3, 5, 0x83, 4] ∧
      served.map.registers .holdingRegister = some ⟨1, [7]⟩ ∧
      s'.journal.entries = [.note "before", .note "after"] := by
  intro before after d s message
  have hd : d.KeepsRequests := by
    rintro f (hf | hf) peer id m map hm <;> cases hf <;> exact hm
  have hm : message.functionCode < 0x80 := by decide
  obtain ⟨c, hc⟩ := exists_conducts hd hm (.ofServer d) .inProcess .own s
  refine ⟨⟨hd, hm⟩, ⟨c, hc, ?_⟩, by decide, by decide, rfl⟩
  have hbefore : c.before = some ⟨before, message, d.map⟩ := hc.before
  have hpassed : ∀ t ∈ c.before, (t.left d .inProcess).verdict = .proceed := by
    rw [hbefore]
    rintro t ht
    cases ht
    rfl
  obtain ⟨x, hexecution⟩ := Option.isSome_iff_exists.mp (hc.execution.mpr hpassed)
  have hx : x = ⟨message.setUnit ⟨9⟩, { d.map with holdingRegisters := some ⟨1, [7]⟩ },
      (World.ofServer d).note ["before"] s⟩ := by
    rw [hc.executed x hexecution, Course.started, hbefore]
    rfl
  have hfits : (x.reply (.ofServer d) d .own).size ≤ 253 := by
    rw [hx]
    decide
  obtain ⟨t, ht⟩ := Option.isSome_iff_exists.mp (hc.after.mpr ⟨rfl, x, hexecution, hfits⟩)
  obtain ⟨f, x', -, hexecution', hrun⟩ := hc.finished t ht
  obtain rfl : x = x' := Option.some.inj (hexecution.symm.trans hexecution')
  rw [Course.runs, hbefore, ht, hrun, hx]
  rfl

end Device

/-- A server processes messages as a device does in the world of the server, and keeps the map. -/
theorem Server.serve_eq_handle (s : Server) (peer : Peer) (d : Device) (message : Message) :
    s.serve peer d message =
      let (served, s') := d.handle (.ofServer d) peer (s.route d) message s
      (served.reply, s'.putDevice { d with map := served.map }) := by
  rfl

end Modbus

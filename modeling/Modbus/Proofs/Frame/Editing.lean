import Modbus.Proofs.Frame.Accounting
import Modbus.Proofs.Frame.Buffer
import Modbus.Proofs.Frame.Detection

/-! Frames that are changed in place. Whatever is changed, a buffer holds a header, a protocol data
unit and a checksum, and only the bytes change that are meant. The checksum is brought up to date
before the frame is sent. Then a TCP frame is read as it is kept, and so is the frame of a serial
line, as long as its bytes say the same length as when it came. -/

namespace Modbus

/-- What stands behind the protocol data unit when a frame begins with `bytes`. -/
def Framing.closing (bytes : List UInt8) : Framing → List UInt8
  | rtu => wordBytes (checksum bytes)
  | tcp => []

/-! ### Changes of a frame -/

/-- A change of a frame that its owner asks for. -/
inductive Edit where
  | unit (u : UnitId)
  | byte (offset : Nat) (value : UInt8)
  | word (offset : Nat) (value : UInt16)

namespace Edit

/-- A protocol data unit of `length` bytes has those that are to be changed. -/
def Fits (length : Nat) : Edit → Prop
  | unit _ => True
  | byte offset _ => offset < length
  | word offset _ => offset + 2 ≤ length

def applied? : Edit → FrameBuffer → Option FrameBuffer
  | unit u, b => some (b.setUnit u)
  | byte offset value, b => b.setByte? offset value
  | word offset value, b => b.setWord? offset value

/-- The same change of the message that is kept in a buffer. -/
def onMessage? : Edit → Message → Option Message
  | unit u, m => some (m.setUnit u)
  | byte offset value, m => m.setByte? offset value
  | word offset value, m => m.setWord? offset value

/-- The place in a frame from which on its bytes are changed. -/
def place (framing : Framing) : Edit → Nat
  | unit _ => framing.headerSize - 1
  | byte offset _ | word offset _ => framing.headerSize + offset

/-- The bytes that are put in. -/
def bytes : Edit → List UInt8
  | unit u => [u.value]
  | byte _ value => [value]
  | word _ value => wordBytes value

theorem applied?_buffer (e : Edit) (m : Message) :
    e.applied? m.buffer = (e.onMessage? m).map Message.buffer := by
  cases e with
  | unit u => exact congrArg some (FrameBuffer.setUnit_buffer m u)
  | byte offset value => exact FrameBuffer.setByte?_buffer m offset value
  | word offset value => exact FrameBuffer.setWord?_buffer m offset value

end Edit

namespace FrameBuffer

/-- What is done with a frame before it is sent on. -/
inductive Step where
  | edit (e : Edit)
  | prepare

namespace Step

/-- An edit that is refused leaves the frame as it is. -/
def run : Step → FrameBuffer → FrameBuffer
  | edit e, b => (e.applied? b).getD b
  | prepare, b => b.prepared

def onMessage : Step → Message → Message
  | edit e, m => (e.onMessage? m).getD m
  | prepare, m => m.prepared

theorem run_buffer (step : Step) (m : Message) :
    step.run m.buffer = (step.onMessage m).buffer := by
  cases step with
  | edit e =>
    rw [run, e.applied?_buffer, onMessage]
    cases e.onMessage? m <;> rfl
  | prepare => exact prepared_buffer m

end Step

def edited (b : FrameBuffer) (steps : List Step) : FrameBuffer :=
  steps.foldl (fun b step => step.run b) b

/-! ### Where frames come from -/

/-- The frame has been found among bytes that have come. -/
inductive Received : FrameBuffer → Prop
  | parsed {framing : Framing} {role : Role} {frame : List UInt8} {b : FrameBuffer}
    (h : parse framing role frame = .ok b) : Received b
  | decoded {codec : FrameCodec} {buffer rest : List UInt8} {b : FrameBuffer}
    (h : decode codec buffer = (.ok (some b), rest)) : Received b

/-- The frame has been built or has been received. No function has a code with the bit that marks an
exception. -/
inductive Obtained : FrameBuffer → Prop
  | request {header : Header} {r : Request} {b : FrameBuffer} (h : ofRequest header r = .ok b) :
    Obtained b
  | response {header : Header} {reply : Reply} {b : FrameBuffer}
    (hfunction : ∀ e, reply = .error e → e.function.code < 0x80)
    (h : ofReply header reply = .ok b) : Obtained b
  | reply {asked : FrameBuffer} {reply : Reply} {b : FrameBuffer}
    (hfunction : ∀ e, reply = .error e → e.function.code < 0x80)
    (h : asked.reply reply = .ok b) : Obtained b
  | received {b : FrameBuffer} (h : b.Received) : Obtained b

variable {b b' b'' : FrameBuffer} {m m' : Message}

theorem exists_of_decode {codec : FrameCodec} {buffer rest : List UInt8}
    (h : decode codec buffer = (.ok (some b), rest)) :
    ∃ m : Message, codec.split buffer = .frame m rest ∧ m.buffer = b := by
  rw [decode_eq] at h
  rcases hsplit : codec.split buffer with _ | ⟨m, left⟩ | _ | _ <;> rw [hsplit] at h <;> cases h
  exact ⟨m, rfl, rfl⟩

theorem exists_of_parse {framing : Framing} {role : Role} {frame : List UInt8}
    (h : parse framing role frame = .ok b) :
    ∃ m : Message, FrameCodec.split ⟨framing, role⟩ frame = .frame m [] ∧ m.buffer = b := by
  rw [parse_eq] at h
  rcases hparse : Message.parse framing role frame with e | m <;> rw [hparse] at h <;> cases h
  exact ⟨m, Message.split_of_parse hparse, rfl⟩

theorem Received.exists_split (h : b.Received) :
    ∃ codec buffer rest, ∃ m : Message, FrameCodec.split codec buffer = .frame m rest ∧
      m.buffer = b := by
  cases h with
  | parsed h => exact ⟨_, _, _, exists_of_parse h⟩
  | decoded h => exact ⟨_, _, _, exists_of_decode h⟩

/-- A frame that is found is that of its message, as it is when the message is prepared. -/
theorem prepared_of_split {codec : FrameCodec} {buffer rest : List UInt8}
    (h : codec.split buffer = .frame m rest) : m.prepared = m := by
  rcases codec with ⟨_ | _, role⟩
  · obtain ⟨unit, hi, lo, pdu, -, -, hsum, rfl⟩ := Rtu.exists_of_split h
    rw [← hsum]
    rfl
  · obtain ⟨transaction, unit, pdu, rfl, -⟩ := Mbap.exists_of_split h
    rfl

/-- The buffer holds a message whose protocol data unit has an admissible size and that is
prepared. -/
def Holds (b : FrameBuffer) (m : Message) : Prop :=
  m.buffer = b ∧ (1 ≤ m.pdu.length ∧ m.pdu.length ≤ 253) ∧ m.prepared = m

theorem holds_frame (header : Header) (role : Role) {pdu : List UInt8}
    (h : 1 ≤ pdu.length ∧ pdu.length ≤ 253) :
    (header.frame role pdu).buffer.Holds (header.frame role pdu) := by
  refine ⟨rfl, h, ?_⟩
  rw [Message.prepared_eq_frame, Header.header_frame]
  rfl

theorem exists_holds_of_ofReply {header : Header} {reply : Reply} (h : ofReply header reply = .ok b) :
    ∃ m, b.Holds m := by
  rw [ofReply_eq] at h
  rcases hreply : Message.ofReply header reply with e | m <;> rw [hreply] at h <;> cases h
  obtain ⟨hsize, rfl⟩ := Message.of_ofReply hreply
  refine ⟨_, holds_frame header .response ⟨?_, reply.length_pdu ▸ hsize⟩⟩
  rcases reply with e | response <;> exact Nat.succ_pos _

theorem Obtained.exists_holds (h : b.Obtained) : ∃ m, b.Holds m := by
  cases h with
  | @request header r _ h =>
    rw [ofRequest_eq] at h
    rcases hrequest : Message.ofRequest header r with e | m <;> rw [hrequest] at h <;> cases h
    obtain ⟨hsize, rfl⟩ := Message.of_ofRequest hrequest
    exact ⟨_, holds_frame header .request ⟨Nat.succ_pos _, r.length_pdu ▸ hsize⟩⟩
  | response _ h => exact exists_holds_of_ofReply h
  | reply _ h => exact exists_holds_of_ofReply h
  | received h =>
    obtain ⟨codec, buffer, rest, m, hsplit, hm⟩ := h.exists_split
    exact ⟨m, hm, (FrameCodec.admits_of_split hsplit).1.size, prepared_of_split hsplit⟩

/-! ### The form of a frame -/

/-- The bytes of a frame are its header, its protocol data unit and its checksum, and nothing
else. -/
structure IsFramed (b : FrameBuffer) : Prop where
  size : 1 ≤ b.pduLength ∧ b.pduLength ≤ 253
  pdu : b.pdu.length = b.pduLength
  adu : ∃ checksum, checksum.length = b.framing.checksumSize ∧
    b.adu = b.header.front b.pduLength ++ b.pdu ++ checksum
  length : b.adu.length = b.framing.headerSize + b.pduLength + b.framing.checksumSize

theorem isFramed_buffer (h : 1 ≤ m.pdu.length ∧ m.pdu.length ≤ 253) : m.buffer.IsFramed := by
  refine ⟨h, ?_, ⟨m.envelope.back, ?_, ?_⟩, m.length_adu⟩
  · rw [pdu_buffer]
    rfl
  · rcases m with ⟨_ | _, role, pdu⟩ <;> rfl
  · rw [header_buffer, pdu_buffer]
    exact m.adu_eq

/-- What is the same of two frames, whatever has been changed in place. -/
structure SameForm (b b' : FrameBuffer) : Prop where
  framing : b'.framing = b.framing
  role : b'.role = b.role
  size : b'.pduLength = b.pduLength
  transaction : b'.transaction? = b.transaction?

theorem SameForm.refl (b : FrameBuffer) : SameForm b b := ⟨rfl, rfl, rfl, rfl⟩

theorem SameForm.trans (h : SameForm b b') (h' : SameForm b' b'') : SameForm b b'' :=
  ⟨h'.framing.trans h.framing, h'.role.trans h.role, h'.size.trans h.size,
    h'.transaction.trans h.transaction⟩

theorem sameForm_setUnit (m : Message) (unit : UnitId) :
    SameForm m.buffer (m.setUnit unit).buffer := by
  rcases m with ⟨_ | _, role, pdu⟩ <;> exact ⟨rfl, rfl, rfl, rfl⟩

theorem sameForm_prepared (m : Message) : SameForm m.buffer m.prepared.buffer := by
  rcases m with ⟨_ | _, role, pdu⟩ <;> exact ⟨rfl, rfl, rfl, rfl⟩

theorem sameForm_pdu {pdu : List UInt8} (h : pdu.length = m.pdu.length) :
    SameForm m.buffer (Message.buffer { m with pdu := pdu }) := by
  refine ⟨rfl, rfl, h, ?_⟩
  rw [transaction?_buffer, transaction?_buffer]
  rfl

/-! ### What an edit changes -/

/-- The edit changes the bytes that it is about, if the frame has them, and no others. Otherwise it
is refused, and nothing changes. -/
def Changes (b : FrameBuffer) (e : Edit) : Prop :=
  (e.Fits b.pduLength ∧ e.place b.framing + e.bytes.length ≤ b.adu.length ∧
    ∃ b', e.applied? b = some b' ∧ (Step.edit e).run b = b' ∧ b.SameForm b' ∧
      b' = { b with adu := overwrite e.bytes (e.place b.framing) b.adu }) ∨
  (¬ e.Fits b.pduLength ∧ e.applied? b = none ∧ (Step.edit e).run b = b)

theorem changes_of_pdu {e : Edit} {offset : Nat} (hfits : e.Fits m.pdu.length)
    (hplace : e.place m.framing = m.framing.headerSize + offset)
    (hlength : offset + e.bytes.length ≤ m.pdu.length)
    (happlied : e.onMessage? m = some { m with pdu := overwrite e.bytes offset m.pdu }) :
    m.buffer.Changes e := by
  have hbuffer := e.applied?_buffer m
  rw [happlied, Option.map_some] at hbuffer
  refine .inl ⟨hfits, ?_, _, hbuffer, ?_, sameForm_pdu (length_overwrite hlength), ?_⟩
  · show e.place m.framing + _ ≤ m.adu.length
    rw [hplace, m.length_adu]
    omega
  · rw [Step.run, hbuffer]
    rfl
  · rw [Message.buffer_overwrite hlength, ← hplace]
    rfl

theorem changes_of_refused {e : Edit} (hfits : ¬ e.Fits b.pduLength) (happlied : e.applied? b = none) :
    b.Changes e := by
  refine .inr ⟨hfits, happlied, ?_⟩
  rw [Step.run, happlied]
  rfl

theorem changes_buffer (m : Message) (e : Edit) : m.buffer.Changes e := by
  cases e with
  | unit u =>
    refine .inl ⟨trivial, ?_, _, rfl, rfl, ?_, ?_⟩
    · rcases m with ⟨_ | _, role, pdu⟩ <;> exact Nat.le_add_left _ _
    · rw [setUnit_buffer]
      exact sameForm_setUnit m u
    · rcases m with ⟨_ | _, role, pdu⟩ <;> rfl
  | byte offset value =>
    by_cases hfits : offset < m.pdu.length
    · refine changes_of_pdu hfits rfl hfits ?_
      rw [Edit.onMessage?, Message.setByte?, if_pos hfits, set_eq_overwrite value hfits]
      rfl
    · exact changes_of_refused hfits (if_pos (Nat.le_of_not_lt hfits))
  | word offset value =>
    by_cases hfits : offset + 2 ≤ m.pdu.length
    · exact changes_of_pdu hfits rfl hfits (if_pos hfits)
    · exact changes_of_refused hfits (if_pos (Nat.lt_of_not_le hfits))

theorem Changes.sameForm {e : Edit} (h : b.Changes e) : b.SameForm ((Step.edit e).run b) := by
  rcases h with ⟨-, -, b', -, hrun, hform, -⟩ | ⟨-, -, hrun⟩
  · exact hrun ▸ hform
  · rw [hrun]
    exact .refl b

theorem sameForm_run (m : Message) (step : Step) : m.buffer.SameForm (step.run m.buffer) := by
  cases step with
  | edit e => exact (changes_buffer m e).sameForm
  | prepare =>
    rw [Step.run, prepared_buffer]
    exact sameForm_prepared m

/-- What is done with the buffer of a message is done with the message, and its frame keeps its
form. -/
theorem exists_edited (m : Message) (steps : List Step) :
    ∃ m' : Message, m.buffer.edited steps = m'.buffer ∧ m.buffer.SameForm m'.buffer := by
  induction steps generalizing m with
  | nil => exact ⟨m, rfl, .refl _⟩
  | cons step steps ih =>
    obtain ⟨m', hedited, hform⟩ := ih (step.onMessage m)
    have hstep := sameForm_run m step
    rw [step.run_buffer] at hstep
    refine ⟨m', ?_, hstep.trans hform⟩
    rw [edited, List.foldl_cons, step.run_buffer]
    exact hedited

/-- Edits that are refused leave a frame as it is, and so does preparing it if it is prepared. -/
theorem edited_of_refused (h : m.buffer.prepared = m.buffer) {steps : List Step}
    (hrefused : ∀ e, .edit e ∈ steps → ¬ e.Fits m.pdu.length) :
    m.buffer.edited steps = m.buffer := by
  induction steps with
  | nil => rfl
  | cons step steps ih =>
    have hrun : step.run m.buffer = m.buffer := by
      cases step with
      | prepare => exact h
      | edit e =>
        rcases changes_buffer m e with ⟨hfits, -⟩ | ⟨-, -, hrun⟩
        · exact (hrefused e List.mem_cons_self hfits).elim
        · exact hrun
    rw [edited, List.foldl_cons, hrun]
    exact ih fun e he => hrefused e (List.mem_cons_of_mem step he)

/-! ### Frames that are prepared -/

/-- Preparing a frame brings what stands behind its protocol data unit up to date, and changes
nothing else. -/
structure Prepares (b b' : FrameBuffer) : Prop where
  again : b'.prepared = b'
  unit : b'.unit = b.unit
  pdu : b'.pdu = b.pdu
  form : b.SameForm b'
  adu : b'.adu = b.adu.take (b.framing.headerSize + b.pduLength) ++
    b.framing.closing (b.adu.take (b.framing.headerSize + b.pduLength))

theorem prepares_buffer (m : Message) : m.buffer.Prepares m.buffer.prepared := by
  rw [prepared_buffer]
  have htake : m.adu.take (m.framing.headerSize + m.pdu.length) =
      m.header.front m.pdu.length ++ m.pdu := by
    show m.adu.take (m.header.framing.headerSize + m.pdu.length) = _
    rw [m.adu_eq, ← m.header.length_front m.pdu.length, ← List.length_append]
    exact List.take_left
  refine ⟨?_, ?_, ?_, sameForm_prepared m, ?_⟩
  · rw [prepared_buffer]
    rcases m with ⟨_ | _, role, pdu⟩ <;> rfl
  · rw [unit_buffer, unit_buffer]
    rcases m with ⟨_ | _, role, pdu⟩ <;> rfl
  · rw [pdu_buffer, pdu_buffer]
    rfl
  · show m.prepared.adu = m.adu.take (m.framing.headerSize + m.pdu.length) ++
      m.framing.closing (m.adu.take (m.framing.headerSize + m.pdu.length))
    rw [htake, Message.adu_eq]
    rcases m with ⟨_ | _, role, pdu⟩ <;> rfl

end FrameBuffer

/-! ### Frames of a serial line that are read again -/

namespace Rtu

variable {role : Role} {code : UInt8} {fields buffer rest : List UInt8} {m : Message}

theorem sized_of_payloadLength (h : payloadLength role code fields = .known fields.length) :
    Sized role code fields := by
  constructor
  · intro more
    rw [← h]
    exact payloadLength_congr fun place hplace =>
      List.getElem?_append_left (place_lt_of_known h hplace)
  · rintro front ⟨more, hfields⟩
    by_cases hall : ∀ place ∈ countPlaces role code, place < front.length
    · refine .inr (h ▸ payloadLength_congr fun place hplace => ?_)
      rw [← hfields, List.getElem?_append_left (hall place hplace)]
    · simp only [not_forall, Nat.not_lt] at hall
      obtain ⟨place, hplace, hmissing⟩ := hall
      exact .inl (pending_of_place hplace hmissing)

/-- The fields of a frame that is found say its length, or nothing does. -/
theorem length_of_split (h : split role buffer = .frame m rest) :
    ∃ code fields, m.pdu = code :: fields ∧ fields.length ≤ 252 ∧
      (payloadLength role code fields = .known fields.length ∨
        payloadLength role code fields = .unknown) := by
  obtain ⟨unit, hi, lo, pdu, rfl, ⟨hmin, hmax⟩, -, rfl⟩ := exists_of_split h
  rcases pdu with _ | ⟨code, fields⟩
  · cases hmin
  refine ⟨code, fields, rfl, Nat.le_of_succ_le_succ hmax, ?_⟩
  simp only [split, List.cons_append] at h
  split at h
  · cases h
  · rename_i n hknown
    split at h
    · cases h
    · obtain ⟨_, _, _, pdu, -, hlength, -, hm⟩ := exists_of_cut (Nat.le_add_left 4 n) h
      injection hm with _ _ hpdu
      subst hpdu
      have hn : n = fields.length := by
        rw [List.length_cons] at hlength
        omega
      rw [hn] at hknown
      refine .inl (hknown ▸ payloadLength_congr fun place hplace => ?_)
      exact (List.getElem?_append_left (place_lt_of_known hknown hplace)).symm
  · rename_i hunknown
    refine .inr (hunknown ▸ payloadLength_congr fun place hplace => ?_)
    rw [countPlaces_of_unknown hunknown] at hplace
    cases hplace

/-- The frame of a function whose length is not known is all that has come. -/
theorem split_of_payloadLength_unknown {unit : UnitId} (hlength : fields.length ≤ 252)
    (h : ∀ fields, payloadLength role code fields = .unknown) :
    split role ((Header.rtu unit).frame role (code :: fields)).adu =
      .frame ((Header.rtu unit).frame role (code :: fields)) [] := by
  rw [adu_frame]
  have hsize : (unit.value :: (code :: fields ++
      wordBytes (checksum (unit.value :: code :: fields)))).length = fields.length + 4 := by
    simp only [List.length_cons, List.length_append, length_wordBytes]
  have hfits : ¬ Framing.rtu.maxFrameSize < fields.length + 4 := by
    rw [Framing.maxFrameSize]
    omega
  have hlong : ¬ fields.length + 4 < 4 := by omega
  have hplace : fields.length + 4 - 3 = fields.length + 1 := rfl
  simp only [split, List.cons_append, h]
  rw [← List.cons_append, hsize, if_neg hfits, if_neg hlong, cut, hplace, wordBytes,
    List.cons_append, List.drop_succ_cons, List.take_succ_cons, List.drop_left, List.take_left]
  dsimp only
  rw [wordOfBytes_wordBytes, if_pos rfl]
  rfl

/-- A protocol data unit that says the same length as that of a frame that has come is read from
its own frame. -/
theorem split_frame_of_split {unit : UnitId} {pdu : List UInt8}
    (h : split role buffer = .frame m rest) (hlength : pdu.length = m.pdu.length)
    (hcode : pdu[0]? = m.pdu[0]?)
    (hcount : ∀ place ∈ countPlaces role m.functionCode, pdu[place + 1]? = m.pdu[place + 1]?) :
    split role ((Header.rtu unit).frame role pdu).adu =
      .frame ((Header.rtu unit).frame role pdu) [] := by
  obtain ⟨code, fields, hm, hmax, hsays⟩ := length_of_split h
  rw [Message.functionCode, hm] at hcount
  rw [hm] at hlength hcode
  obtain ⟨fields', rfl⟩ : ∃ fields', pdu = code :: fields' := by
    rcases pdu with _ | ⟨code', fields'⟩
    · cases hcode
    · exact ⟨fields', by rw [Option.some.inj hcode]⟩
  have hsize : fields'.length = fields.length := Nat.succ.inj hlength
  have hsame : payloadLength role code fields' = payloadLength role code fields :=
    payloadLength_congr hcount
  rcases hsays with hknown | hunknown
  · have hsized : Sized role code fields' := by
      apply sized_of_payloadLength
      rw [hsame, hknown, hsize]
    have hdelimits : FrameCodec.Delimits ⟨.rtu, role⟩
        ((Header.rtu unit).frame role (code :: fields')).adu
        ((Header.rtu unit).frame role (code :: fields')) := delimits hsized (hsize ▸ hmax)
    have hwhole := hdelimits.whole []
    rw [List.append_nil] at hwhole
    exact hwhole
  · refine split_of_payloadLength_unknown (hsize ▸ hmax) fun more => ?_
    rw [← hunknown]
    refine payloadLength_congr fun place hplace => ?_
    rw [countPlaces_of_unknown hunknown] at hplace
    cases hplace

end Rtu

namespace Message

variable {m : Message}

theorem parse_of_split {framing : Framing} {role : Role} {frame : List UInt8}
    (h : FrameCodec.split ⟨framing, role⟩ frame = .frame m []) :
    parse framing role frame = .ok m := by
  rw [parse, h]

/-- A TCP frame is read as its message, whatever is in it. -/
theorem parse_prepared_tcp (h : 1 ≤ m.pdu.length ∧ m.pdu.length ≤ 253) (htcp : m.framing = .tcp) :
    parse .tcp m.role m.prepared.adu = .ok m.prepared := by
  obtain ⟨transaction, hheader⟩ : ∃ transaction, m.header = .tcp transaction m.unit := by
    rcases m with ⟨_ | ⟨transaction, unit⟩, role, pdu⟩
    · cases htcp
    · exact ⟨transaction, rfl⟩
  refine parse_of_split ?_
  rw [prepared_eq_frame, hheader]
  have hdelimits : FrameCodec.Delimits ⟨.tcp, m.role⟩
      ((Header.tcp transaction m.unit).frame m.role m.pdu).adu
      ((Header.tcp transaction m.unit).frame m.role m.pdu) := Mbap.delimits h.1 h.2
  have hwhole := hdelimits.whole []
  rw [List.append_nil] at hwhole
  exact hwhole

end Message

namespace FrameBuffer

variable {b b' : FrameBuffer} {m m' : Message}

/-- A prepared frame is read as it is kept if its message is read. -/
theorem parse_prepared_buffer {framing : Framing} {role : Role}
    (h : Message.parse framing role m.prepared.adu = .ok m.prepared) :
    parse framing role m.buffer.prepared.adu = .ok m.buffer.prepared := by
  rw [prepared_buffer, parse_eq]
  show (Message.parse framing role m.prepared.adu).map _ = _
  rw [h]
  rfl

/-- The frame of a serial line is read as it is kept if it has the form of one that has come, and
the same function code and count. -/
theorem Received.parse_prepared_rtu (h : b.Received) (hform : b.SameForm m.buffer)
    (hrtu : b.framing = .rtu) (hcode : m.pdu[0]? = b.pdu[0]?)
    (hcount : ∀ place ∈ Rtu.countPlaces b.role b.functionCode,
      m.pdu[place + 1]? = b.pdu[place + 1]?) :
    parse .rtu b.role m.buffer.prepared.adu = .ok m.buffer.prepared := by
  obtain ⟨codec, buffer, rest, m₀, hsplit, rfl⟩ := h.exists_split
  rw [pdu_buffer] at hcode hcount
  rw [functionCode_buffer] at hcount
  have hadmits := (FrameCodec.admits_of_split hsplit).1
  rcases codec with ⟨framing, role⟩
  obtain rfl : .rtu = framing := hrtu.symm.trans hadmits.framing
  obtain rfl : m₀.role = role := hadmits.role
  have hheader : m.header = .rtu m.unit := by
    have hframing : m.framing = .rtu := hform.framing.trans hrtu
    rcases m with ⟨_ | _, role, pdu⟩
    · rfl
    · cases hframing
  refine parse_prepared_buffer (Message.parse_of_split ?_)
  rw [Message.prepared_eq_frame, hheader, show m.role = m₀.role from hform.role]
  exact Rtu.split_frame_of_split hsplit hform.size hcode hcount

/-- A frame that has been built or has come is edited in place, and prepared again. It is a header, a
protocol data unit of 1 to 253 bytes and a checksum, and keeps its form; each edit changes the bytes
that it is about, or none; preparing changes what stands behind the protocol data unit only, and
nothing of a frame that is not edited, so the bytes of a frame that is read and sent on are the same.
When it is prepared, the edited frame is read as it is kept: on a TCP stream always, on a serial line
if it came from there and its function code and its count are the same. -/
theorem framed_of_obtained (h : b.Obtained) (steps : List Step) :
    let b' := b.edited steps
    b'.IsFramed ∧ b.SameForm b' ∧ (∀ e, b'.Changes e) ∧ b'.Prepares b'.prepared ∧
    ((∀ e, .edit e ∈ steps → ¬ e.Fits b.pduLength) → b' = b ∧ b'.prepared = b) ∧
    (∀ framing role frame, parse framing role frame = .ok b → b.prepared.adu = frame) ∧
    (∀ codec buffer rest, decode codec buffer = (.ok (some b), rest) →
      b.prepared.adu ++ rest = buffer) ∧
    (b.framing = .tcp → parse .tcp b.role b'.prepared.adu = .ok b'.prepared) ∧
    (b.framing = .rtu → b.Received → b'.pdu[0]? = b.pdu[0]? →
      (∀ place ∈ Rtu.countPlaces b.role b.functionCode,
        b'.pdu[place + 1]? = b.pdu[place + 1]?) →
      parse .rtu b.role b'.prepared.adu = .ok b'.prepared) := by
  intro b'
  obtain ⟨m, rfl, hsize, hprepared⟩ := h.exists_holds
  have hsame : m.buffer.prepared = m.buffer := by rw [prepared_buffer, hprepared]
  obtain ⟨m', hedited, hform⟩ := exists_edited m steps
  have hb' : b' = m'.buffer := hedited
  have hsize' : 1 ≤ m'.pdu.length ∧ m'.pdu.length ≤ 253 := by
    rw [show m'.pdu.length = m.pdu.length from hform.size]
    exact hsize
  rw [hb']
  refine ⟨isFramed_buffer hsize', hform, changes_buffer m', prepares_buffer m', fun hrefused => ?_,
    fun framing role frame hparse => ?_, fun codec buffer rest hdecode => ?_, fun htcp => ?_,
    fun hrtu hreceived hcode hcount => ?_⟩
  · have hnone : m'.buffer = m.buffer := hedited.symm.trans (edited_of_refused hsame hrefused)
    rw [hnone]
    exact ⟨rfl, hsame⟩
  · obtain ⟨m₀, hsplit, hm₀⟩ := exists_of_parse hparse
    rw [hsame, ← hm₀, (FrameCodec.admits_of_split hsplit).2, List.append_nil]
    rfl
  · obtain ⟨m₀, hsplit, hm₀⟩ := exists_of_decode hdecode
    rw [hsame, ← hm₀, (FrameCodec.admits_of_split hsplit).2]
    rfl
  · rw [← hform.role]
    exact parse_prepared_buffer (Message.parse_prepared_tcp hsize' (hform.framing.trans htcp))
  · rw [pdu_buffer] at hcode hcount
    exact hreceived.parse_prepared_rtu hform hrtu hcode hcount

/-- The request to write two registers is sent on to another unit, for other registers and with
another value. An edit behind its end is refused, and edits of the byte count are not among them. -/
theorem framed_of_obtained_registers :
    let frame := ((Header.rtu ⟨7⟩).frame .request (Request.writeMultipleRegisters 3 [5, 256]).pdu).adu
    let b : FrameBuffer := ⟨.rtu, .request, frame, 10⟩
    let steps := [.edit (.unit ⟨9⟩), .edit (.word 1 0x1234), .prepare, .edit (.byte 10 1),
      .edit (.word 8 7)]
    let b' := b.edited steps
    (decode ⟨.rtu, .request⟩ (frame ++ [0xFF]) = (.ok (some b), [0xFF]) ∧ b.Obtained) ∧
      b'.IsFramed ∧ (b.edited [.prepare, .edit (.byte 10 1)]).prepared = b ∧
      b.prepared.adu ++ [0xFF] = frame ++ [0xFF] ∧
      parse .rtu .request b'.prepared.adu = .ok b'.prepared := by
  intro frame b steps b'
  have hdecode : decode ⟨.rtu, .request⟩ (frame ++ [0xFF]) = (.ok (some b), [0xFF]) := by
    rw [decode_eq]
    have hsplit : FrameCodec.split ⟨.rtu, .request⟩ (frame ++ [0xFF]) = .frame
        ((Header.rtu ⟨7⟩).frame .request (Request.writeMultipleRegisters 3 [5, 256]).pdu)
        [0xFF] := by decide +kernel
    rw [hsplit]
    rfl
  have hreceived : b.Received := .decoded hdecode
  have hobtained : b.Obtained := .received hreceived
  obtain ⟨hframed, -, -, -, -, -, hsame, -, hparse⟩ := framed_of_obtained hobtained steps
  obtain ⟨-, -, -, -, hrefused, -⟩ := framed_of_obtained hobtained [.prepare, .edit (.byte 10 1)]
  have hfits : ∀ e, Step.edit e ∈ [.prepare, .edit (.byte 10 1)] → ¬ e.Fits b.pduLength := by
    intro e he
    simp only [List.mem_cons, List.not_mem_nil, reduceCtorEq, Step.edit.injEq, false_or,
      or_false] at he
    rw [he]
    show ¬ 10 < 10
    decide
  exact ⟨⟨hdecode, hobtained⟩, hframed, (hrefused hfits).2, hsame _ _ _ hdecode,
    hparse rfl hreceived (by decide +kernel) (by decide +kernel)⟩

end FrameBuffer

end Modbus

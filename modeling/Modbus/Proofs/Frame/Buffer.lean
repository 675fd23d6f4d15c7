import Modbus.Frame.Buffer
import Modbus.Proofs.Frame.Stream

/-! Messages and the buffers that they are kept in. Whatever is asked of a message gives the same as
when it is asked of its buffer: a buffer is built as the message is, shows the same fields, is
changed in the same places, and is found in the same bytes. -/

namespace Modbus

/-- The buffer that a message is kept in. -/
def Message.buffer (m : Message) : FrameBuffer := ⟨m.framing, m.role, m.adu, m.pdu.length⟩

/-! ### Bytes in their places -/

/-- The bytes with others in their place from `place` on. -/
def overwrite (bytes : List UInt8) (place : Nat) (old : List UInt8) : List UInt8 :=
  old.take place ++ bytes ++ old.drop (place + bytes.length)

theorem overwrite_append {bytes middle : List UInt8} {place : Nat} (front back : List UInt8)
    (h : place + bytes.length ≤ middle.length) :
    overwrite bytes (front.length + place) (front ++ middle ++ back) =
      front ++ overwrite bytes place middle ++ back := by
  have hplace : place ≤ middle.length := by omega
  simp only [overwrite, List.append_assoc, Nat.add_assoc, List.take_length_add_append,
    List.drop_length_add_append, List.take_append_of_le_length hplace,
    List.drop_append_of_le_length h]

theorem set_eq_overwrite {bytes : List UInt8} {place : Nat} (value : UInt8)
    (h : place < bytes.length) : bytes.set place value = overwrite [value] place bytes := by
  rw [List.set_eq_take_append_cons_drop, if_pos h, overwrite, List.append_assoc]
  rfl

theorem putWord_eq_overwrite {bytes : List UInt8} {place : Nat} (w : UInt16)
    (h : place + 2 ≤ bytes.length) : putWord w place bytes = overwrite (wordBytes w) place bytes := by
  induction place generalizing bytes with
  | zero =>
    rcases bytes with _ | ⟨hi, _ | ⟨lo, rest⟩⟩
    · cases h
    · simp only [List.length_singleton] at h
      omega
    · rfl
  | succ place ih =>
    rcases bytes with _ | ⟨b, rest⟩
    · cases h
    · have hrest : place + 2 ≤ rest.length := by
        rw [List.length_cons] at h
        omega
      show b :: putWord w place rest = _
      rw [ih hrest, overwrite, overwrite, Nat.add_right_comm]
      rfl

theorem length_overwrite {bytes old : List UInt8} {place : Nat}
    (h : place + bytes.length ≤ old.length) : (overwrite bytes place old).length = old.length := by
  simp only [overwrite, List.length_append, List.length_take, List.length_drop]
  omega

theorem Header.length_front (header : Header) (n : Nat) :
    (header.front n).length = header.framing.headerSize := by
  cases header <;> rfl

namespace Message

variable {m : Message}

theorem adu_eq (m : Message) : m.adu = m.header.front m.pdu.length ++ m.pdu ++ m.envelope.back := by
  rcases m with ⟨_ | _, role, pdu⟩ <;> rfl

theorem length_adu (m : Message) :
    m.adu.length = m.framing.headerSize + m.pdu.length + m.framing.checksumSize := by
  have hback : m.envelope.back.length = m.framing.checksumSize := by
    rcases m with ⟨_ | _, role, pdu⟩ <;> rfl
  rw [m.adu_eq, List.length_append, List.length_append, Header.length_front, hback]
  rfl

/-- Bytes of the protocol data unit that are overwritten are overwritten in the frame. -/
theorem buffer_overwrite {bytes : List UInt8} {offset : Nat}
    (h : offset + bytes.length ≤ m.pdu.length) :
    buffer { m with pdu := overwrite bytes offset m.pdu } =
      { m.buffer with adu := overwrite bytes (m.framing.headerSize + offset) m.adu } := by
  have hadu : adu { m with pdu := overwrite bytes offset m.pdu } =
      overwrite bytes (m.header.framing.headerSize + offset) m.adu := by
    rw [adu_eq, adu_eq]
    show m.header.front (overwrite bytes offset m.pdu).length ++ _ ++ _ = _
    rw [length_overwrite h, ← m.header.length_front m.pdu.length]
    exact (overwrite_append _ m.envelope.back h).symm
  rw [buffer, hadu, length_overwrite h]
  rfl

/-- A message that is prepared is the one that carries its protocol data unit under its header. -/
theorem prepared_eq_frame (m : Message) : m.prepared = m.header.frame m.role m.pdu := by
  rcases m with ⟨_ | _, role, pdu⟩ <;> rfl

end Message

/-! ### Building -/

namespace FrameBuffer

/-- Whatever stands behind a protocol data unit, preparing its buffer gives the frame of it. -/
theorem prepared_front (header : Header) (role : Role) (pdu rest : List UInt8) :
    prepared ⟨header.framing, role, header.front pdu.length ++ pdu ++ rest, pdu.length⟩ =
      (header.frame role pdu).buffer := by
  have htake : (header.front pdu.length ++ pdu ++ rest).take
      (header.framing.headerSize + pdu.length) = header.front pdu.length ++ pdu := by
    rw [← header.length_front pdu.length, ← List.length_append]
    exact List.take_left
  rw [prepared]
  dsimp only
  rw [htake]
  cases header with
  | rtu unit => rfl
  | tcp transaction unit =>
    rw [Message.buffer, Message.adu_eq]
    exact congrArg (FrameBuffer.mk .tcp role · pdu.length) (List.append_nil _).symm

theorem prepared_buffer (m : Message) : m.buffer.prepared = m.prepared.buffer := by
  rw [m.prepared_eq_frame, ← prepared_front _ _ _ m.envelope.back, Message.buffer, m.adu_eq]
  rfl

theorem ofRequest_eq (header : Header) (request : Request) :
    ofRequest header request = (Message.ofRequest header request).map Message.buffer := by
  have hframe := prepared_front header .request request.pdu []
  rw [List.append_nil, request.length_pdu] at hframe
  rw [ofRequest, Message.ofRequest, hframe]
  split <;> rfl

theorem ofReply_eq (header : Header) (reply : Reply) :
    ofReply header reply = (Message.ofReply header reply).map Message.buffer := by
  have hframe := prepared_front header .response reply.pdu []
  rw [List.append_nil, reply.length_pdu] at hframe
  rw [ofReply, Message.ofReply, hframe]
  split <;> rfl

/-! ### Reading -/

variable (m : Message)

theorem pdu_buffer : m.buffer.pdu = m.pdu := by
  show (m.adu.drop m.header.framing.headerSize).take m.pdu.length = m.pdu
  rw [m.adu_eq, ← m.header.length_front m.pdu.length, List.append_assoc, List.drop_left]
  exact List.take_left

theorem unit_buffer : m.buffer.unit = m.unit := by
  rcases m with ⟨_ | _, role, pdu⟩ <;> rfl

theorem transaction?_buffer : m.buffer.transaction? = m.transaction? := by
  rcases m with ⟨_ | ⟨transaction, unit⟩, role, pdu⟩
  · rfl
  · exact congrArg some (wordOfBytes_wordBytes transaction)

theorem header_buffer : m.buffer.header = m.header := by
  rw [header, transaction?_buffer, unit_buffer]
  rcases m with ⟨_ | _, role, pdu⟩ <;> rfl

theorem functionCode_buffer : m.buffer.functionCode = m.functionCode := by
  rw [functionCode, pdu_buffer, Message.functionCode]

theorem byte?_buffer (offset : Nat) : m.buffer.byte? offset = m.byte? offset := by
  rw [byte?, pdu_buffer, Message.byte?]

theorem word?_buffer (offset : Nat) : m.buffer.word? offset = m.word? offset := by
  rw [word?, pdu_buffer, Message.word?, wordAt]
  have hgetD : ∀ k, m.pdu.getD (offset + k) 0 = (m.pdu.drop offset).getD k 0 := by
    intro k
    rw [List.getD_eq_getElem?_getD, List.getD_eq_getElem?_getD, List.getElem?_drop]
  have hlength : (m.pdu.drop offset).length = m.pdu.length - offset := List.length_drop
  have hfirst := hgetD 0
  rw [Nat.add_zero] at hfirst
  rw [hfirst, hgetD 1]
  rcases hrest : m.pdu.drop offset with _ | ⟨hi, _ | ⟨lo, rest⟩⟩
  all_goals
    rw [hrest] at hlength
    simp only [List.length_nil, List.length_cons] at hlength
  · exact if_neg (by omega)
  · exact if_neg (by omega)
  · exact if_pos (by omega)

theorem reply_buffer (reply : Reply) :
    m.buffer.reply reply = (m.reply reply).map Message.buffer := by
  rw [FrameBuffer.reply, header_buffer, ofReply_eq, Message.reply]

/-! ### Changes in place -/

theorem setUnit_buffer (unit : UnitId) : m.buffer.setUnit unit = (m.setUnit unit).buffer := by
  rcases m with ⟨_ | _, role, pdu⟩ <;> rfl

theorem setByte?_buffer (offset : Nat) (value : UInt8) :
    m.buffer.setByte? offset value = (m.setByte? offset value).map Message.buffer := by
  rw [Message.setByte?]
  by_cases h : offset < m.pdu.length
  · have hplace : m.framing.headerSize + offset < m.adu.length := by
      rw [m.length_adu]
      omega
    rw [if_pos h, set_eq_overwrite value h, Option.map_some, Message.buffer_overwrite h,
      ← set_eq_overwrite value hplace]
    exact if_neg (Nat.not_le.mpr h)
  · rw [if_neg h]
    exact if_pos (Nat.le_of_not_lt h)

theorem setWord?_buffer (offset : Nat) (value : UInt16) :
    m.buffer.setWord? offset value = (m.setWord? offset value).map Message.buffer := by
  rw [Message.setWord?]
  by_cases h : offset + 2 ≤ m.pdu.length
  · have hplace : m.framing.headerSize + offset + 2 ≤ m.adu.length := by
      rw [m.length_adu]
      omega
    have hpdu : m.pdu.take offset ++ wordBytes value ++ m.pdu.drop (offset + 2) =
        overwrite (wordBytes value) offset m.pdu := rfl
    have hbytes : offset + (wordBytes value).length ≤ m.pdu.length := h
    rw [if_pos h, hpdu, Option.map_some, Message.buffer_overwrite hbytes,
      ← putWord_eq_overwrite value hplace]
    exact if_neg (Nat.not_lt.mpr h)
  · rw [if_neg h]
    exact if_pos (Nat.lt_of_not_le h)

end FrameBuffer

/-! ### Frames that arrive -/

/-- What has been found in a buffer, for one who keeps what he finds in buffers. -/
def Split.found (buffer : List UInt8) : Split → FrameBuffer.Found
  | .incomplete => (.ok none, buffer)
  | .frame m rest => (.ok (some m.buffer), rest)
  | .damaged expected actual rest => (.error (.ofChecksum expected actual), rest)
  | .invalid fault => (.error (.ofFault fault), [])

namespace FrameBuffer

variable {role : Role}

theorem check_append (bytes : List UInt8) (hi lo : UInt8) :
    check (bytes ++ [hi, lo]) =
      if checksum bytes = wordOfBytes hi lo then .ok ()
      else .error (.ofChecksum (checksum bytes) (wordOfBytes hi lo)) := by
  have hlength : (bytes ++ [hi, lo]).length - 2 = bytes.length := by
    rw [List.length_append]
    rfl
  have hlast : wordAt (bytes ++ [hi, lo]) bytes.length = wordOfBytes hi lo := by
    simp [wordAt]
  rw [check, hlength, List.take_left, hlast]

/-- Bytes that are enough for a frame of a serial line, and what the frame is made of. -/
theorem exists_parts {length : Nat} {buffer : List UInt8} (h : 3 ≤ length)
    (hlength : length ≤ buffer.length) :
    ∃ unit hi lo pdu rest, buffer = unit :: pdu ++ [hi, lo] ++ rest ∧ length = pdu.length + 3 := by
  rcases buffer with _ | ⟨unit, body⟩
  · rw [List.length_nil] at hlength
    omega
  rw [List.length_cons] at hlength
  have hrest : (body.drop (length - 3)).length = body.length - (length - 3) := List.length_drop
  rcases hdrop : body.drop (length - 3) with _ | ⟨hi, _ | ⟨lo, rest⟩⟩
  · rw [hdrop, List.length_nil] at hrest
    omega
  · rw [hdrop, List.length_singleton] at hrest
    omega
  · refine ⟨unit, hi, lo, body.take (length - 3), rest, ?_, ?_⟩
    · have hbody : body = body.take (length - 3) ++ hi :: lo :: rest := by
        rw [← hdrop, List.take_append_drop]
      simpa using hbody
    · rw [List.length_take_of_le (by omega)]
      omega

section

variable (role) (unit hi lo : UInt8) (pdu rest : List UInt8)

/-- A frame of a serial line is found if its last bytes are its checksum. -/
theorem cut_append : Rtu.cut role (pdu.length + 3) (unit :: pdu ++ [hi, lo] ++ rest) =
    if checksum (unit :: pdu) = wordOfBytes hi lo then
      .frame ⟨.rtu ⟨unit⟩ (wordOfBytes hi lo), role, pdu⟩ rest
    else .damaged (checksum (unit :: pdu)) (wordOfBytes hi lo) rest := by
  have hbytes : unit :: pdu ++ [hi, lo] ++ rest = unit :: (pdu ++ hi :: lo :: rest) := by simp
  rw [hbytes, Rtu.cut, Nat.add_sub_cancel, List.drop_left, List.take_left]

theorem cutRtu_append : cutRtu role (pdu.length + 3) (unit :: pdu ++ [hi, lo] ++ rest) =
    if checksum (unit :: pdu) = wordOfBytes hi lo then
      (.ok (some (Message.buffer ⟨.rtu ⟨unit⟩ (wordOfBytes hi lo), role, pdu⟩)), rest)
    else (.error (.ofChecksum (checksum (unit :: pdu)) (wordOfBytes hi lo)), rest) := by
  have hlength : pdu.length + 3 = (unit :: pdu ++ [hi, lo]).length := by simp
  have hkept : Message.buffer ⟨.rtu ⟨unit⟩ (wordOfBytes hi lo), role, pdu⟩ =
      ⟨.rtu, role, unit :: pdu ++ [hi, lo], pdu.length⟩ := by
    rw [Message.buffer, Message.adu, Envelope.back, wordBytes_wordOfBytes]
    rfl
  rw [cutRtu, hkept, hlength, List.take_left, List.drop_left, check_append, ← hlength,
    Nat.add_sub_cancel]
  by_cases hsum : checksum (unit :: pdu) = wordOfBytes hi lo
  · rw [if_pos hsum, if_pos hsum]
  · rw [if_neg hsum, if_neg hsum]

end

theorem cutRtu_eq {length : Nat} {buffer : List UInt8} (h : 3 ≤ length)
    (hlength : length ≤ buffer.length) :
    cutRtu role length buffer = (Rtu.cut role length buffer).found buffer := by
  obtain ⟨unit, hi, lo, pdu, rest, rfl, rfl⟩ := exists_parts h hlength
  rw [cutRtu_append, cut_append]
  split <;> rfl

/-- All the bytes that have come are taken for a frame if their last ones are a checksum. -/
theorem cutRtu_whole {buffer : List UInt8} (h : 3 ≤ buffer.length) :
    (match check buffer with
      | .ok () => cutRtu role buffer.length buffer
      | .error _ => (.ok none, buffer)) =
    Split.found buffer (match Rtu.cut role buffer.length buffer with
      | .frame message rest => .frame message rest
      | _ => .incomplete) := by
  obtain ⟨unit, hi, lo, pdu, rest, hbuffer, hlength⟩ := exists_parts h (Nat.le_refl _)
  obtain rfl : rest = [] := by
    rw [hbuffer] at hlength
    simpa using hlength
  have hwhole : check (unit :: pdu ++ [hi, lo] ++ []) =
      if checksum (unit :: pdu) = wordOfBytes hi lo then .ok ()
      else .error (.ofChecksum (checksum (unit :: pdu)) (wordOfBytes hi lo)) := by
    rw [List.append_nil]
    exact check_append _ hi lo
  rw [hlength, hbuffer, hwhole, cutRtu_append, cut_append]
  by_cases hsum : checksum (unit :: pdu) = wordOfBytes hi lo
  · rw [if_pos hsum, if_pos hsum, if_pos hsum]
    rfl
  · rw [if_neg hsum, if_neg hsum, if_neg hsum]
    rfl

/-- Bytes of which there are too few for a frame are not cut. -/
theorem found_cut_of_short {length : Nat} {buffer : List UInt8} (h : 3 ≤ length)
    (hlength : buffer.length < length) :
    (Rtu.cut role length buffer).found buffer = (.ok none, buffer) := by
  rcases buffer with _ | ⟨unit, body⟩
  · rfl
  rw [List.length_cons] at hlength
  have hrest : (body.drop (length - 3)).length = body.length - (length - 3) := List.length_drop
  rw [Rtu.cut]
  rcases hdrop : body.drop (length - 3) with _ | ⟨hi, _ | ⟨lo, rest⟩⟩
  · rfl
  · rfl
  · rw [hdrop] at hrest
    simp only [List.length_cons] at hrest
    omega

theorem decodeRtu_eq (buffer : List UInt8) :
    decodeRtu role buffer = (Rtu.split role buffer).found buffer := by
  rcases buffer with _ | ⟨unit, _ | ⟨code, fields⟩⟩
  · rfl
  · rfl
  rw [decodeRtu, Rtu.split]
  cases Rtu.payloadLength role code fields with
  | pending => rfl
  | known n =>
    dsimp only
    by_cases hfits : Framing.rtu.maxFrameSize < n + 4
    · rw [if_pos hfits, if_pos hfits]
      rfl
    · rw [if_neg hfits, if_neg hfits]
      by_cases hshort : (unit :: code :: fields).length < n + 4
      · rw [if_pos hshort, found_cut_of_short (by omega) hshort]
      · rw [if_neg hshort, cutRtu_eq (by omega) (Nat.le_of_not_lt hshort)]
  | unknown =>
    dsimp only
    by_cases hlong : Framing.rtu.maxFrameSize < (unit :: code :: fields).length
    · rw [if_pos hlong, if_pos hlong]
      rfl
    · rw [if_neg hlong, if_neg hlong]
      by_cases hshort : (unit :: code :: fields).length < 4
      · rw [if_pos hshort, if_pos hshort]
        rfl
      · rw [if_neg hshort, if_neg hshort]
        exact cutRtu_whole (by omega)

theorem decodeTcp_eq (buffer : List UInt8) :
    decodeTcp role buffer = (Mbap.split role buffer).found buffer := by
  rcases buffer with _ | ⟨t₁, _ | ⟨t₀, _ | ⟨p₁, _ | ⟨p₀, _ | ⟨l₁, _ | ⟨l₀, _ | ⟨unit, body⟩⟩⟩⟩⟩⟩⟩
  iterate 7 rfl
  have hheader : ¬ (t₁ :: t₀ :: p₁ :: p₀ :: l₁ :: l₀ :: unit :: body).length <
      Framing.tcp.headerSize := by
    simp [Framing.headerSize]
  have hprotocol : wordAt (t₁ :: t₀ :: p₁ :: p₀ :: l₁ :: l₀ :: unit :: body) 2 =
      wordOfBytes p₁ p₀ := rfl
  have hlength : wordAt (t₁ :: t₀ :: p₁ :: p₀ :: l₁ :: l₀ :: unit :: body) 4 =
      wordOfBytes l₁ l₀ := rfl
  rw [decodeTcp, if_neg hheader, hprotocol, hlength, Mbap.split]
  dsimp only
  by_cases hzero : wordOfBytes p₁ p₀ = 0
  · rw [if_neg (not_not.mpr hzero), if_neg (not_not.mpr hzero)]
    by_cases hsize : (wordOfBytes l₁ l₀).toNat < 2 ∨
        Framing.tcp.maxFrameSize - 6 < (wordOfBytes l₁ l₀).toNat
    · rw [if_pos hsize, if_pos hsize]
      rfl
    · rw [if_neg hsize, if_neg hsize]
      by_cases hshort : body.length < (wordOfBytes l₁ l₀).toNat - 1
      · rw [if_pos hshort, if_pos (by simp only [List.length_cons]; omega)]
        rfl
      · have hpdu : (body.take ((wordOfBytes l₁ l₀).toNat - 1)).length =
            (wordOfBytes l₁ l₀).toNat - 1 := List.length_take_of_le (Nat.le_of_not_lt hshort)
        have hcounted : (body.take ((wordOfBytes l₁ l₀).toNat - 1)).length + 1 =
            (wordOfBytes l₁ l₀).toNat := by omega
        have hplace : 6 + (wordOfBytes l₁ l₀).toNat = (wordOfBytes l₁ l₀).toNat - 1 + 7 := by omega
        rw [if_neg hshort, if_neg (by simp only [List.length_cons]; omega), hplace, Split.found,
          Message.buffer, Mbap.adu_of_header hzero hcounted, hpdu]
        rfl
  · rw [if_pos hzero, if_pos hzero]
    rfl

/-- What is found in bytes are the buffers of the messages that are found in them. -/
theorem decode_eq (codec : FrameCodec) (buffer : List UInt8) :
    decode codec buffer = (codec.split buffer).found buffer := by
  rcases codec with ⟨_ | _, role⟩
  · exact decodeRtu_eq buffer
  · exact decodeTcp_eq buffer

theorem parse_eq (framing : Framing) (role : Role) (frame : List UInt8) :
    parse framing role frame = (Message.parse framing role frame).map Message.buffer := by
  rw [parse, decode_eq, Message.parse]
  rcases FrameCodec.split ⟨framing, role⟩ frame with _ | ⟨m, _ | ⟨b, rest⟩⟩ | _ | fault <;> rfl

end FrameBuffer

end Modbus

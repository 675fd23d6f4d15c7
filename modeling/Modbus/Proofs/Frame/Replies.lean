import Modbus.Proofs.Frame.Chunks

/-! Replies to any request. The frame of a reply that fits is no longer than frames may be, and it
is read as a reply about the same function, even if the function is none of the standard: then the
reply is an exception, which is the shortest frame. -/

namespace Modbus

/-! ### Reading a reply -/

namespace Reply

variable {reply : Reply} {header : Header}

/-- A reply that fits is read as one about the same function. -/
theorem exists_ofPdu (hsize : reply.size ≤ 253) (hcode : reply.function.code < 0x80) :
    ∃ read, Reply.ofPdu reply.pdu = .ok read ∧ read.function.code = reply.function.code := by
  refine ⟨reply.canonical, ofPdu_pdu_of_lt hsize hcode, ?_⟩
  rcases reply with e | response
  · exact FunctionCode.code_ofCode _
  · exact congrArg FunctionCode.code response.function_padded

theorem length_frame (hsize : reply.size ≤ 253) :
    (header.frame .response reply.pdu).adu.length ≤ header.framing.maxFrameSize := by
  have hlength : reply.pdu.length ≤ 253 := by
    rw [length_pdu]
    exact hsize
  cases header with
  | tcp transaction unit =>
    rw [Mbap.adu_frame]
    simp only [List.length_cons, Header.framing, Framing.maxFrameSize]
    omega
  | rtu unit =>
    rw [Rtu.adu_frame]
    simp only [List.length_cons, List.length_append, length_wordBytes, Header.framing,
      Framing.maxFrameSize]
    omega

end Reply

/-- The frame of an exception about a function whose length is not known is all that has come. -/
theorem Rtu.split_of_unknown {unit : UnitId} {e : ExceptionResponse}
    (h : ∀ fields, responseLength (e.function.code ||| 0x80) fields = .unknown) :
    split .response ((Header.rtu unit).frame .response e.pdu).adu =
      .frame ((Header.rtu unit).frame .response e.pdu) [] := by
  have hfits : ¬ Framing.rtu.maxFrameSize < 5 := by decide
  have hlong : ¬ 5 < 4 := by decide
  rw [adu_frame]
  simp only [ExceptionResponse.pdu, List.cons_append, List.nil_append, wordBytes, split,
    payloadLength, h, List.length_cons, List.length_nil, Nat.zero_add, Nat.reduceAdd, if_neg hfits,
    if_neg hlong, cut, Nat.reduceSub, List.take_succ_cons, List.take_zero, List.drop_succ_cons,
    List.drop_zero, wordOfBytes_wordBytes, if_true]
  rfl

/-- The frame of a reply is read as the message that it was made of. -/
theorem Reply.parse_frame {reply : Reply} (header : Header) (hsize : reply.size ≤ 253)
    (hcode : reply.function.code < 0x80) :
    Message.parse header.framing .response (header.frame .response reply.pdu).adu =
      .ok (header.frame .response reply.pdu) := by
  have hparse : ∀ m : Message,
      FrameCodec.split ⟨header.framing, .response⟩ (header.frame .response reply.pdu).adu =
        .frame m [] →
      Message.parse header.framing .response (header.frame .response reply.pdu).adu = .ok m := by
    intro m hsplit
    rw [Message.parse, hsplit]
  refine hparse _ ?_
  by_cases hknown : header.framing = .rtu →
      0x01 ≤ reply.function.code ∧ reply.function.code ≤ 0x2B
  · have hwhole := (delimits header hsize hknown).whole []
    rw [List.append_nil] at hwhole
    exact hwhole
  · obtain ⟨hrtu, hunknown⟩ := Classical.not_imp.mp hknown
    rcases reply with e | response
    · cases header with
      | tcp transaction unit => cases hrtu
      | rtu unit =>
        refine Rtu.split_of_unknown fun fields => ?_
        have hmark : 0x80 ≤ e.function.code ||| 0x80 := (uint8_and_or hcode).2
        have hall : ∀ n : Fin 256, UInt8.ofFin n < 0x80 → 0x81 ≤ UInt8.ofFin n ||| 0x80 →
            UInt8.ofFin n ||| 0x80 ≤ 0xAB → 0x01 ≤ UInt8.ofFin n ∧ UInt8.ofFin n ≤ 0x2B := by
          decide +kernel
        rw [Rtu.responseLength_of_exception hmark, if_neg]
        rintro ⟨hmin, hmax⟩
        exact hunknown (hall e.function.code.toFin hcode hmin hmax)
    · exact (hunknown response.code_function).elim

end Modbus

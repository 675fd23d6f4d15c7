import Modbus.Proofs.DataModel.Execute
import Modbus.Proofs.Frame.Delimits

/-! The frames of requests and replies, in both framings. On a serial line the length of a request
of a function that devices execute follows from its first bytes, and so does that of a reply. -/

namespace Modbus

namespace Request

variable {r : Request}

theorem isCanonical_of_isSupported (h : r.IsSupported) : r.IsCanonical := by
  cases r with
  | custom code data => exact h.elim
  | _ => trivial

theorem code_function_of_isSupported (h : r.IsSupported) :
    0x01 ≤ r.function.code ∧ r.function.code ≤ 0x2B := by
  cases r with
  | custom code data => exact h.elim
  | _ =>
    simp only [function, FunctionCode.code]
    decide

theorem sized (hs : r.IsSupported) (hsize : r.size ≤ 253) :
    Rtu.Sized .request r.function.code r.payload := by
  cases r with
  | readCoils | readDiscreteInputs | readInputRegisters | readHoldingRegisters
  | writeSingleCoil | writeSingleRegister | maskWriteRegister | reportId =>
    exact Rtu.sized_of_known fun _ => rfl
  | writeMultipleCoils a coils =>
    have hbytes : packedSize coils.length < 256 := by
      simp only [size] at hsize
      omega
    refine Rtu.sized_of_counted 4 5 (fun _ => rfl) rfl ?_
    rw [toNat_uint8OfNat hbytes]
    simp [payload, countedCoils, length_packCoils]
    omega
  | writeMultipleRegisters a words =>
    have hbytes : 2 * words.length < 256 := by
      simp only [size] at hsize
      omega
    refine Rtu.sized_of_counted 4 5 (fun _ => rfl) rfl ?_
    rw [toNat_uint8OfNat hbytes]
    simp [payload, countedWords]
    omega
  | readWriteRegisters ra n wa words =>
    have hbytes : 2 * words.length < 256 := by
      simp only [size] at hsize
      omega
    refine Rtu.sized_of_counted 8 9 (fun _ => rfl) rfl ?_
    rw [toNat_uint8OfNat hbytes]
    simp [payload, countedWords]
    omega
  | custom code data => exact hs.elim

/-- The frame of a request says where it ends. -/
theorem delimits (header : Header) (hs : header.framing = .rtu → r.IsSupported)
    (hsize : r.size ≤ 253) :
    FrameCodec.Delimits ⟨header.framing, .request⟩ (header.frame .request r.pdu).adu
      (header.frame .request r.pdu) := by
  have hlength : r.payload.length + 1 = r.size := r.length_pdu
  cases header with
  | tcp transaction unit =>
    exact Mbap.delimits (by rw [length_pdu]; omega) (by rw [length_pdu]; omega)
  | rtu unit => exact Rtu.delimits (sized (hs rfl) hsize) (by omega)

end Request

namespace Response

variable {r : Response}

theorem sized (hsize : r.size ≤ 253) : Rtu.Sized .response r.function.code r.payload := by
  cases r with
  | writeSingleCoil | writeSingleRegister | writeMultipleCoils | writeMultipleRegisters
  | maskWriteRegister => exact Rtu.sized_of_known fun _ => rfl
  | readCoils coils | readDiscreteInputs coils =>
    have hbytes : packedSize coils.length < 256 := by
      simp only [size] at hsize
      omega
    refine Rtu.sized_of_counted 0 1 (fun _ => rfl) rfl ?_
    rw [toNat_uint8OfNat hbytes]
    simp [payload, countedCoils, length_packCoils]
    omega
  | readInputRegisters words | readHoldingRegisters words | readWriteRegisters words =>
    have hbytes : 2 * words.length < 256 := by
      simp only [size] at hsize
      omega
    refine Rtu.sized_of_counted 0 1 (fun _ => rfl) rfl ?_
    rw [toNat_uint8OfNat hbytes]
    simp [payload, countedWords]
    omega
  | reportId report =>
    have hbytes : 2 + report.data.length < 256 := by
      simp only [size] at hsize
      omega
    refine Rtu.sized_of_counted 0 1 (fun _ => rfl) rfl ?_
    rw [toNat_uint8OfNat hbytes]
    simp [payload, Report.bytes]
    omega

end Response

/-- The length of an exception is known for the functions of the standard. -/
theorem Rtu.responseLength_of_exception {code : UInt8} (h : 0x80 ≤ code) (fields : List UInt8) :
    responseLength code fields = if 0x81 ≤ code ∧ code ≤ 0xAB then .known 1 else .unknown := by
  have hmin : 128 ≤ code.toNat := UInt8.le_iff_toNat_le.mp h
  have hne : ∀ c : UInt8, c.toNat < 128 → code ≠ c := by
    rintro c hc rfl
    omega
  have hle : ∀ c : UInt8, c.toNat < 128 → ¬ code ≤ c := by
    intro c hc hle
    have := UInt8.le_iff_toNat_le.mp hle
    omega
  simp only [responseLength, hne _ (by decide : UInt8.toNat 0x0C < 128),
    hne _ (by decide : UInt8.toNat 0x11 < 128), hne _ (by decide : UInt8.toNat 0x17 < 128),
    hne _ (by decide : UInt8.toNat 0x05 < 128), hne _ (by decide : UInt8.toNat 0x06 < 128),
    hne _ (by decide : UInt8.toNat 0x0B < 128), hne _ (by decide : UInt8.toNat 0x0F < 128),
    hne _ (by decide : UInt8.toNat 0x10 < 128), hne _ (by decide : UInt8.toNat 0x07 < 128),
    hne _ (by decide : UInt8.toNat 0x16 < 128), hne _ (by decide : UInt8.toNat 0x18 < 128),
    hle _ (by decide : UInt8.toNat 0x04 < 128), and_false, or_false, if_false]

theorem Rtu.responseLength_of_marked {code : UInt8} (h : 0x81 ≤ code) (h' : code ≤ 0xAB)
    (fields : List UInt8) : responseLength code fields = .known 1 := by
  have hmark : 0x80 ≤ code := UInt8.le_trans (by decide) h
  rw [responseLength_of_exception hmark, if_pos ⟨h, h'⟩]

theorem ExceptionResponse.sized {e : ExceptionResponse} (h : 0x01 ≤ e.function.code)
    (h' : e.function.code ≤ 0x2B) :
    Rtu.Sized .response (e.function.code ||| 0x80) [e.exception.code] := by
  have hall : ∀ n : Fin 256, 0x01 ≤ UInt8.ofFin n → UInt8.ofFin n ≤ 0x2B →
      0x81 ≤ UInt8.ofFin n ||| 0x80 ∧ UInt8.ofFin n ||| 0x80 ≤ 0xAB := by decide +kernel
  obtain ⟨hmin, hmax⟩ := hall e.function.code.toFin h h'
  exact Rtu.sized_of_known fun front => Rtu.responseLength_of_marked hmin hmax front

namespace Reply

/-- The frame of a reply says where it ends. -/
theorem delimits {reply : Reply} (header : Header) (hsize : reply.size ≤ 253)
    (hcode : header.framing = .rtu →
      0x01 ≤ reply.function.code ∧ reply.function.code ≤ 0x2B) :
    FrameCodec.Delimits ⟨header.framing, .response⟩ (header.frame .response reply.pdu).adu
      (header.frame .response reply.pdu) := by
  cases header with
  | tcp transaction unit =>
    refine Mbap.delimits ?_ ?_
    · rcases reply with e | response
      · exact Nat.zero_lt_two
      · exact Nat.succ_pos _
    · rw [length_pdu]
      exact hsize
  | rtu unit =>
    obtain ⟨hmin, hmax⟩ := hcode rfl
    rcases reply with e | response
    · exact Rtu.delimits (ExceptionResponse.sized hmin hmax) (by simp)
    · have hlength : response.payload.length + 1 = response.size := response.length_pdu
      have hfits : response.size ≤ 253 := hsize
      exact Rtu.delimits (Response.sized hfits) (by omega)

end Reply

end Modbus

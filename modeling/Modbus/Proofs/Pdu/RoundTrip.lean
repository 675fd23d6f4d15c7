import Modbus.Pdu.Response
import Modbus.Proofs.Pdu.Grammar

/-! What is sent is what is read. A request that fits into a protocol data unit is read from it
again, and so is a reply, with its coils padded to whole bytes. -/

namespace Modbus

theorem toNat_uint8OfNat {n : Nat} (h : n < 256) : (UInt8.ofNat n).toNat = n :=
  UInt8.toNat_ofNat_of_lt' h

theorem toNat_uint16OfNat {n : Nat} (h : n < 65536) : (UInt16.ofNat n).toNat = n :=
  UInt16.toNat_ofNat_of_lt' h

/-! ### Requests -/

namespace Request

/-- The function of a request that devices need not know is not one of those that they know. -/
def IsCanonical : Request → Prop
  | custom code _ => code < 0x80 ∧ FunctionCode.ofCode code = .custom code
  | _ => True

variable {r : Request}

theorem ofCode_code_function (h : r.IsCanonical) :
    FunctionCode.ofCode r.function.code = r.function := by
  cases r with
  | custom code data => exact h.2
  | _ => rfl

theorem coilsAt_packCoils (coils : List Bool) : coilsAt (packCoils coils) coils.length = coils := by
  have hlength : coils.length ≤ 8 * (packCoils coils).length := by
    rw [length_packCoils, packedSize]
    omega
  rw [coilsAt_eq hlength, take_unpackCoils_packCoils]

theorem wordsAt_wordsBytes (words : List UInt16) :
    wordsAt (wordsBytes words) words.length = words := by
  rw [wordsAt_eq (length_wordsBytes words), wordsOfBytes_wordsBytes]

/-- The fields of a request spell it. -/
theorem spelledBy?_payload (hsize : r.size ≤ 253) (hc : r.IsCanonical) :
    spelledBy? r.function r.payload = some r := by
  cases r with
  | readCoils | readDiscreteInputs | readInputRegisters | readHoldingRegisters
  | writeSingleRegister | maskWriteRegister =>
    refine (rfl : _ = some _).trans ?_
    simp only [wordOfBytes_wordBytes]
  | writeSingleCoil a coil =>
    cases coil <;>
      refine (rfl : _ = some _).trans ?_ <;>
      simp only [wordOfBytes_wordBytes]
  | writeMultipleCoils a coils =>
    have hbytes : packedSize coils.length < 256 := by
      simp only [size] at hsize
      omega
    have hcount : coils.length < 65536 := by
      simp only [packedSize] at hbytes
      omega
    have hcoils := coilsAt_packCoils coils
    have hlength := length_packCoils coils
    simp only [packedSize] at hlength hbytes
    simp only [function, payload, wordsBytes_cons, wordsBytes_nil, countedCoils, packedSize,
      List.cons_append, List.nil_append, spelledBy?_writeMultipleCoils, wordOfBytes_wordBytes,
      toNat_uint16OfNat hcount, toNat_uint8OfNat hbytes, hlength, and_self, if_true, hcoils]
  | writeMultipleRegisters a words =>
    have hbytes : 2 * words.length < 256 := by
      simp only [size] at hsize
      omega
    have hcount : words.length < 65536 := by omega
    simp only [function, payload, wordsBytes_cons, wordsBytes_nil, countedWords, List.cons_append,
      List.nil_append, spelledBy?_writeMultipleRegisters, wordOfBytes_wordBytes,
      toNat_uint16OfNat hcount, toNat_uint8OfNat hbytes, length_wordsBytes, and_self, if_true,
      wordsAt_wordsBytes]
  | readWriteRegisters ra n wa words =>
    have hbytes : 2 * words.length < 256 := by
      simp only [size] at hsize
      omega
    have hcount : words.length < 65536 := by omega
    simp only [function, payload, wordsBytes_cons, wordsBytes_nil, countedWords, List.cons_append,
      List.nil_append, spelledBy?_readWriteRegisters, wordOfBytes_wordBytes,
      toNat_uint16OfNat hcount, toNat_uint8OfNat hbytes, length_wordsBytes, and_self, if_true,
      wordsAt_wordsBytes]
  | reportId => rfl
  | custom code data => exact if_pos hc.1

/-- A request is read from its protocol data unit. -/
theorem ofPdu_pdu (hsize : r.size ≤ 253) (hc : r.IsCanonical) : ofPdu r.pdu = .ok r := by
  have hlength : ¬ 253 < r.payload.length + 1 := by
    have hpdu : r.payload.length + 1 = r.size := r.length_pdu
    omega
  have hspelled : spelled? r.pdu = some r := by
    rw [pdu, spelled?, if_neg hlength, ofCode_code_function hc, spelledBy?_payload hsize hc]
  rw [← toOption_ofPdu] at hspelled
  rcases hread : ofPdu r.pdu with fault | r'
  · rw [hread] at hspelled
    cases hspelled
  · rw [hread] at hspelled
    cases hspelled
    rfl

/-- A write that fits has a response that confirms it. -/
theorem exists_echo (hwrite : r.isWrite = true) (hsize : r.size ≤ 253) :
    ∃ response, r.echo? = some response := by
  cases r <;> try cases hwrite
  case writeSingleCoil | writeSingleRegister | maskWriteRegister => exact ⟨_, rfl⟩
  case writeMultipleCoils address coils =>
    rw [size, packedSize] at hsize
    have hquantity : coils.length < 65536 := by omega
    exact ⟨_, by rw [echo?, quantity?, if_pos hquantity, Option.map_some]⟩
  case writeMultipleRegisters address words =>
    rw [size] at hsize
    have hquantity : words.length < 65536 := by omega
    exact ⟨_, by rw [echo?, quantity?, if_pos hquantity, Option.map_some]⟩

theorem size_of_echo? {response : Response} (h : r.echo? = some response) :
    response.size ≤ 253 := by
  cases r with
  | writeMultipleCoils | writeMultipleRegisters =>
    obtain ⟨n, -, rfl⟩ := Option.map_eq_some_iff.mp h
    exact (show 5 ≤ 253 by decide)
  | writeSingleCoil | writeSingleRegister =>
    cases h
    exact (show 5 ≤ 253 by decide)
  | maskWriteRegister =>
    cases h
    exact (show 7 ≤ 253 by decide)
  | _ => cases h

end Request

/-! ### Responses -/

/-- Coils with coils that are off behind them, up to a whole number of bytes. -/
def padCoils (coils : List Bool) : List Bool :=
  coils ++ List.replicate (8 * packedSize coils.length - coils.length) false

theorem length_padCoils (coils : List Bool) :
    (padCoils coils).length = 8 * packedSize coils.length := by
  simp only [padCoils, List.length_append, List.length_replicate, packedSize]
  omega

theorem take_padCoils (coils : List Bool) : (padCoils coils).take coils.length = coils :=
  List.take_left

/-- A response as it is read: nothing says how many coils were packed. -/
def Response.padded : Response → Response
  | readCoils coils => readCoils (padCoils coils)
  | readDiscreteInputs coils => readDiscreteInputs (padCoils coils)
  | r => r

theorem Response.function_padded (r : Response) : r.padded.function = r.function := by
  cases r <;> rfl

namespace PduReader

variable {α : Type}

theorem decode_of_whole? {reader : PduReader α} {pdu : List UInt8} {a : α}
    (h : reader.whole? pdu = some a) (hsize : pdu.length ≤ 253) : reader.decode pdu = .ok a := by
  have hfits : ¬ maxPduSize < pdu.length := by
    unfold maxPduSize
    omega
  unfold whole? at h
  rw [decode, if_neg hfits]
  rcases hread : reader pdu with fault | ⟨b, _ | ⟨c, rest⟩⟩
  · rw [hread] at h
    cases h
  · rw [hread] at h
    cases h
    rfl
  · rw [hread] at h
    cases h

theorem byte_bind (k : UInt8 → PduReader α) (b : UInt8) (bytes : List UInt8) :
    (byte >>= k).whole? (b :: bytes) = (k b).whole? bytes := rfl

theorem words_none_whole? {words : List UInt16} (h : 2 * words.length < 256) :
    (PduReader.words none).whole? (countedWords words) = some words := by
  have hcount : 2 * words.length % 256 = 2 * words.length := Nat.mod_eq_of_lt h
  have hread : (PduReader.words none).whole? (countedWords words) =
      (do return wordsOfBytes (← bytes (2 * words.length))).whole? (wordsBytes words) := by
    simp [whole?, PduReader.words, countedWords, byte, bind, StateT.bind, Except.bind, hcount]
  rw [hread, map_whole?, bytes_whole?, if_pos (length_wordsBytes words), Option.map_some,
    wordsOfBytes_wordsBytes]

theorem coils_none_whole? {coils : List Bool} (h : packedSize coils.length < 256) :
    (PduReader.coils none).whole? (countedCoils coils) = some (padCoils coils) := by
  have hcount : (UInt8.ofNat (packedSize coils.length)).toNat = packedSize coils.length :=
    toNat_uint8OfNat h
  have hread : (PduReader.coils none).whole? (countedCoils coils) =
      (do return unpackCoils (← bytes (packedSize coils.length))).whole? (packCoils coils) := by
    simp [whole?, PduReader.coils, countedCoils, byte, bind, StateT.bind, Except.bind, hcount]
  rw [hread, map_whole?, bytes_whole?, if_pos (length_packCoils coils), Option.map_some,
    unpackCoils_packCoils]
  rfl

end PduReader

namespace Response

open PduReader

variable {r : Response}

theorem readReport_whole? {report : Report} (h : report.data.length ≤ 249) :
    readReport.whole? (UInt8.ofNat (2 + report.data.length) :: report.bytes) = some report := by
  obtain ⟨id, running, data⟩ := report
  simp only at h
  have hcount : (UInt8.ofNat (2 + data.length)).toNat = 2 + data.length :=
    toNat_uint8OfNat (by omega)
  have hmin : ¬ 2 + data.length < 2 := by omega
  have hrest : 2 + data.length - 2 = data.length := by omega
  have hdata := bytes_whole? data.length data
  rw [if_pos rfl] at hdata
  have hstopped : ¬ (0xFF : UInt8) = 0x00 := by decide
  cases running <;>
    simp only [readReport, Report.bytes, runIndicator, byte_bind, hcount, hmin, if_false, hrest,
      if_true, Bool.false_eq_true, hstopped, map_whole?, hdata]
  · rfl
  · rfl

theorem readFields_payload (hsize : r.size ≤ 253) :
    (readFields r.function).whole? r.payload = some r.padded := by
  cases r with
  | readCoils coils | readDiscreteInputs coils =>
    have hbytes : packedSize coils.length < 256 := by
      simp only [size] at hsize
      omega
    simp only [function, payload, readFields, map_whole?, coils_none_whole? hbytes]
    rfl
  | readInputRegisters words | readHoldingRegisters words | readWriteRegisters words =>
    have hbytes : 2 * words.length < 256 := by
      simp only [size] at hsize
      omega
    simp only [function, payload, readFields, map_whole?, words_none_whole? hbytes]
    rfl
  | writeSingleCoil a coil =>
    cases coil <;>
      simp only [function, payload, readFields, word_bind, coil_bind, pure_whole?, wordsBytes_cons,
        wordsBytes_nil, wordOfBytes_wordBytes] <;>
      rfl
  | writeSingleRegister | writeMultipleCoils | writeMultipleRegisters | maskWriteRegister =>
    simp only [function, payload, readFields, word_bind, pure_whole?, wordsBytes_cons,
      wordsBytes_nil, wordOfBytes_wordBytes, if_true, padded]
  | reportId report =>
    have hdata : report.data.length ≤ 249 := by
      simp only [size] at hsize
      omega
    simp only [function, payload, readFields, map_whole?, readReport_whole? hdata]
    rfl

/-- A response is read from its protocol data unit, with its coils padded. -/
theorem ofPdu_pdu (hsize : r.size ≤ 253) : ofPdu r.pdu = .ok r.padded := by
  have hcode : FunctionCode.ofCode r.function.code = r.function := by
    cases r <;> rfl
  have hwhole : reader.whole? r.pdu = some r.padded := by
    rw [pdu, reader, byte_bind, hcode, readFields_payload hsize]
  exact decode_of_whole? hwhole (by rw [length_pdu]; exact hsize)

theorem code_function_lt (r : Response) : r.function.code < 0x80 := by
  cases r <;> simp only [function, FunctionCode.code] <;> decide

end Response

/-! ### Replies -/

/-- The codes of an exception are read as what they stand for. -/
structure ExceptionResponse.IsCanonical (e : ExceptionResponse) : Prop where
  lt : e.function.code < 0x80
  function : FunctionCode.ofCode e.function.code = e.function
  exception : ExceptionCode.ofCode e.exception.code = e.exception

theorem uint8_and_or {c : UInt8} (h : c < 0x80) :
    (c ||| 0x80) &&& 0x7F = c ∧ 0x80 ≤ c ||| 0x80 := by
  have hall : ∀ n : Fin 256, UInt8.ofFin n < 0x80 →
      (UInt8.ofFin n ||| 0x80) &&& 0x7F = UInt8.ofFin n ∧ 0x80 ≤ UInt8.ofFin n ||| 0x80 := by
    decide +kernel
  exact hall c.toFin h

/-- An exception is read with the codes of it, whatever they stood for. -/
theorem ExceptionResponse.ofPdu_pdu_of_lt {e : ExceptionResponse} (h : e.function.code < 0x80) :
    ofPdu e.pdu = .ok ⟨.ofCode e.function.code, .ofCode e.exception.code⟩ := by
  obtain ⟨hcode, hmark⟩ := uint8_and_or h
  have hwhole : reader.whole? e.pdu =
      some ⟨.ofCode e.function.code, .ofCode e.exception.code⟩ := by
    have hnot : ¬ e.function.code ||| 0x80 < 0x80 := UInt8.not_lt.mpr hmark
    simp only [reader, pdu, PduReader.byte_bind, if_neg hnot, hcode]
    rfl
  exact PduReader.decode_of_whole? hwhole (by simp [pdu])

theorem ExceptionResponse.ofPdu_pdu {e : ExceptionResponse} (h : e.IsCanonical) :
    ofPdu e.pdu = .ok e := by
  rw [ofPdu_pdu_of_lt h.lt, h.function, h.exception]

namespace Reply

/-- A reply as it is read: its coils are padded, and its codes are taken for what they stand for. -/
def canonical : Reply → Reply
  | .ok response => .ok response.padded
  | .error e => .error ⟨.ofCode e.function.code, .ofCode e.exception.code⟩

/-- A reply that fits is read from its protocol data unit, whatever its codes stood for. -/
theorem ofPdu_pdu_of_lt {reply : Reply} (hsize : reply.size ≤ 253)
    (hcode : reply.function.code < 0x80) : ofPdu reply.pdu = .ok reply.canonical := by
  rcases reply with e | response
  · have hmark : 0x80 ≤ e.function.code ||| 0x80 := (uint8_and_or hcode).2
    simp only [pdu, ofPdu, ExceptionResponse.pdu, if_pos hmark]
    rw [← ExceptionResponse.pdu, ExceptionResponse.ofPdu_pdu_of_lt hcode]
    rfl
  · have hunmarked : ¬ 0x80 ≤ response.function.code := UInt8.not_le.mpr hcode
    simp only [pdu, ofPdu, Response.pdu, if_neg hunmarked]
    rw [← Response.pdu, Response.ofPdu_pdu hsize]
    rfl

def padded : Reply → Reply
  | .ok response => .ok response.padded
  | .error e => .error e

/-- A reply that fits and whose codes are read as what they stand for. -/
def IsSendable : Reply → Prop
  | .ok response => response.size ≤ 253
  | .error e => e.IsCanonical

theorem size_le_of_isSendable {reply : Reply} (h : IsSendable reply) : reply.size ≤ 253 := by
  rcases reply with e | response
  · exact (show 2 ≤ 253 by decide)
  · exact h

/-- A reply is read from its protocol data unit, with its coils padded. -/
theorem ofPdu_pdu {reply : Reply} (h : IsSendable reply) :
    ofPdu reply.pdu = .ok (padded reply) := by
  have hsize := size_le_of_isSendable h
  rcases reply with e | response
  · rw [ofPdu_pdu_of_lt hsize h.lt, canonical, h.function, h.exception]
    rfl
  · exact ofPdu_pdu_of_lt hsize response.code_function_lt

end Reply

end Modbus

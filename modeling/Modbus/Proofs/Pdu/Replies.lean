import Modbus.Frame.Message
import Modbus.Proofs.Pdu.Canonical

/-! The bytes of a reply are its own. A reply that fits into a protocol data unit is read from what
it is written as, with its coils padded and its codes taken for what they stand for, and what is
read is written as it was read. A reader of replies takes from the front of the bytes what the value
that it makes of them is written as: this is shown of each field, and of the readers that are made
of them. -/

namespace Modbus

theorem packCoils_unpackCoils (bytes : List UInt8) : packCoils (unpackCoils bytes) = bytes := by
  induction bytes with
  | nil => rw [unpackCoils, List.flatMap_nil, packCoils]
  | cons b rest ih =>
    rw [unpackCoils_cons, packCoils_append (length_unpackByte b), packByte_unpackByte, ih]

/-- Coils that make up whole bytes are not padded. -/
theorem padCoils_of_dvd {coils : List Bool} (h : 8 ∣ coils.length) : padCoils coils = coils := by
  have hsize : 8 * packedSize coils.length - coils.length = 0 := by
    rw [packedSize]
    omega
  rw [padCoils, hsize, List.replicate_zero, List.append_nil]

/-! ### What readers take -/

namespace PduReader

variable {α β : Type} {x : PduReader α} {f : α → PduReader β}

/-- What the reader takes from the front of any bytes spells, as `P` says, the value that it makes
of them. -/
def Takes (P : α → List UInt8 → Prop) (reader : PduReader α) : Prop :=
  ∀ bytes a rest, reader bytes = .ok (a, rest) → ∃ taken, bytes = taken ++ rest ∧ P a taken

theorem Takes.pure {P : α → List UInt8 → Prop} {a : α} (h : P a []) :
    Takes P (Pure.pure a : PduReader α) := by
  intro bytes b rest hread
  cases hread
  exact ⟨[], rfl, h⟩

theorem Takes.throw (P : α → List UInt8 → Prop) (fault : PduFault) :
    Takes P (MonadExcept.throw fault : PduReader α) := by
  intro bytes a rest hread
  cases hread

theorem Takes.bind {P : α → List UInt8 → Prop} {Q : β → List UInt8 → Prop} (hx : Takes P x)
    (hf : ∀ a front, P a front → Takes (fun b taken => Q b (front ++ taken)) (f a)) :
    Takes Q (x >>= f) := by
  intro bytes b rest hread
  have hbind : (x bytes).bind (fun p => f p.1 p.2) = .ok (b, rest) := hread
  rcases hfirst : x bytes with fault | ⟨a, middle⟩
  · rw [hfirst] at hbind
    cases hbind
  · rw [hfirst] at hbind
    obtain ⟨front, rfl, hfront⟩ := hx bytes a middle hfirst
    obtain ⟨taken, rfl, htaken⟩ := hf a front hfront middle b rest hbind
    exact ⟨front ++ taken, (List.append_assoc front taken rest).symm, htaken⟩

theorem Takes.mono {P Q : α → List UInt8 → Prop} (hx : Takes P x)
    (h : ∀ a taken, P a taken → Q a taken) : Takes Q x := by
  intro bytes a rest hread
  obtain ⟨taken, hbytes, htaken⟩ := hx bytes a rest hread
  exact ⟨taken, hbytes, h a taken htaken⟩

/-- A value that is read from a whole unit is spelled by the unit. -/
theorem Takes.of_decode {P : α → List UInt8 → Prop} (hx : Takes P x) {pdu : List UInt8} {a : α}
    (h : x.decode pdu = .ok a) : pdu.length ≤ 253 ∧ P a pdu := by
  rw [decode] at h
  split at h
  · cases h
  · rename_i hfits
    refine ⟨Nat.le_of_not_lt hfits, ?_⟩
    rcases hread : x pdu with fault | ⟨b, _ | ⟨c, rest⟩⟩ <;> rw [hread] at h <;> cases h
    obtain ⟨taken, rfl, htaken⟩ := hx pdu a [] hread
    rw [List.append_nil]
    exact htaken

/-! ### Fields -/

theorem takes_byte : Takes (fun b taken => taken = [b]) byte := by
  intro bytes b rest hread
  rcases bytes with _ | ⟨b', rest'⟩ <;> cases hread
  exact ⟨[b], rfl, rfl⟩

theorem takes_word : Takes (fun w taken => taken = wordBytes w) word := by
  intro bytes w rest hread
  rcases bytes with _ | ⟨hi, _ | ⟨lo, rest'⟩⟩ <;> cases hread
  exact ⟨[hi, lo], rfl, (wordBytes_wordOfBytes hi lo).symm⟩

theorem takes_bytes (n : Nat) :
    Takes (fun bs taken => taken = bs ∧ bs.length = n) (PduReader.bytes n) := by
  intro bytes bs rest hread
  rw [PduReader.bytes] at hread
  split at hread
  · cases hread
  · rename_i hlong
    cases hread
    refine ⟨bytes.take n, (List.take_append_drop n bytes).symm, rfl, ?_⟩
    rw [List.length_take]
    omega

theorem takes_coil : Takes (fun c taken => taken = wordBytes (coilWord c)) coil := by
  refine takes_word.bind fun w front hfront => ?_
  subst hfront
  by_cases hon : w = 0xFF00
  · rw [if_pos hon]
    exact .pure (by rw [hon, List.append_nil, coilWord, if_pos rfl])
  · rw [if_neg hon]
    by_cases hoff : w = 0x0000
    · rw [if_pos hoff]
      exact .pure (by rw [hoff, List.append_nil]; rfl)
    · rw [if_neg hoff]
      exact .throw _ _

theorem takes_words : Takes (fun ws taken => taken = countedWords ws) (PduReader.words none) := by
  refine takes_byte.bind fun count front hfront => ?_
  subst hfront
  by_cases hodd : count.toNat % 2 ≠ 0
  · rw [if_pos (.inl hodd)]
    exact .throw _ _
  · rw [if_neg (by simpa using hodd)]
    refine (takes_bytes count.toNat).bind fun bytes front hfront => .pure ?_
    obtain ⟨rfl, hlength⟩ := hfront
    have hcount : count.toNat = 2 * (count.toNat / 2) := by omega
    have heven : front.length = 2 * (count.toNat / 2) := hlength.trans hcount
    have hcounted := countedWords_wordsAt hcount hlength
    rw [wordsAt_eq heven] at hcounted
    rw [List.append_nil, hcounted]
    rfl

theorem takes_coils :
    Takes (fun cs taken => taken = countedCoils cs ∧ 8 ∣ cs.length) (PduReader.coils none) := by
  refine takes_byte.bind fun count front hfront => ?_
  subst hfront
  refine (takes_bytes count.toNat).bind fun bytes front hfront => .pure ?_
  obtain ⟨rfl, hlength⟩ := hfront
  have hcoils : (unpackCoils front).length = 8 * count.toNat := by
    rw [length_unpackCoils, hlength]
  have hsize : packedSize (8 * count.toNat) = count.toNat := by
    rw [packedSize]
    omega
  refine ⟨?_, ⟨count.toNat, hcoils⟩⟩
  rw [countedCoils, hcoils, hsize, packCoils_unpackCoils, UInt8.ofNat_toNat, List.append_nil]
  rfl

end PduReader

/-! ### Responses -/

namespace Response

open PduReader

variable {r : Response} {pdu : List UInt8}

theorem takes_readReport :
    Takes (fun report taken => taken = UInt8.ofNat (2 + report.data.length) :: report.bytes)
      readReport := by
  refine takes_byte.bind fun count front hcount => ?_
  by_cases hshort : count.toNat < 2
  · rw [if_pos hshort]
    exact .throw _ _
  · rw [if_neg hshort]
    refine takes_byte.bind fun id front' hid => takes_byte.bind fun status front'' hstatus => ?_
    subst hcount hid hstatus
    have hreport : ∀ running, runIndicator running = status →
        Takes (fun (report : Report) taken => [count] ++ ([id] ++ ([status] ++ taken)) =
          UInt8.ofNat (2 + report.data.length) :: report.bytes)
        (do return ⟨id, running, ← bytes (count.toNat - 2)⟩) := by
      intro running hrunning
      refine (takes_bytes (count.toNat - 2)).bind fun data taken hdata => .pure ?_
      obtain ⟨rfl, hlength⟩ := hdata
      have hcount : 2 + taken.length = count.toNat := by omega
      rw [Report.bytes, hcount, hrunning, UInt8.ofNat_toNat, List.append_nil]
      rfl
    by_cases hstopped : status = 0x00
    · rw [if_pos hstopped]
      exact hreport false hstopped.symm
    · rw [if_neg hstopped]
      by_cases hrunning : status = 0xFF
      · rw [if_pos hrunning]
        exact hreport true hrunning.symm
      · rw [if_neg hrunning]
        exact .throw _ _

/-- The bytes are the fields of the response, about the function, and its coils make up bytes. -/
structure Spelled (function : FunctionCode) (r : Response) (taken : List UInt8) : Prop where
  function : r.function = function
  payload : taken = r.payload
  padded : r.padded = r

/-- The reader of the fields of a function takes the fields of the response that it makes of
them. -/
theorem takes_readFields (function : FunctionCode) :
    Takes (Spelled function) (readFields function) := by
  cases function with
  | readCoils | readDiscreteInputs =>
    refine takes_coils.bind fun coils front hcoils => .pure ⟨rfl, ?_, ?_⟩
    · rw [List.append_nil, hcoils.1]
      rfl
    · rw [padded, padCoils_of_dvd hcoils.2]
  | readHoldingRegisters | readInputRegisters | readWriteRegisters =>
    refine takes_words.bind fun words front hwords => .pure ⟨rfl, ?_, rfl⟩
    rw [List.append_nil, hwords]
    rfl
  | writeSingleCoil =>
    refine takes_word.bind fun address front haddress =>
      takes_coil.bind fun coil front' hcoil => .pure ⟨rfl, ?_, rfl⟩
    rw [haddress, hcoil]
    rfl
  | writeSingleRegister | writeMultipleCoils | writeMultipleRegisters =>
    refine takes_word.bind fun address front haddress =>
      takes_word.bind fun word front' hword => .pure ⟨rfl, ?_, rfl⟩
    rw [haddress, hword]
    rfl
  | maskWriteRegister =>
    refine takes_word.bind fun address front haddress => takes_word.bind fun andMask front' hand =>
      takes_word.bind fun orMask front'' hor => .pure ⟨rfl, ?_, rfl⟩
    rw [haddress, hand, hor]
    rfl
  | reportId =>
    refine takes_readReport.bind fun report front hreport => .pure ⟨rfl, ?_, rfl⟩
    rw [List.append_nil, hreport]
    rfl
  | custom code => exact .throw _ _

theorem takes_reader : Takes (fun r taken => taken = r.pdu ∧ r.padded = r) reader := by
  refine takes_byte.bind fun code front hcode => (takes_readFields (.ofCode code)).mono ?_
  rintro r taken ⟨hfunction, rfl, hpadded⟩
  rw [pdu, hfunction, FunctionCode.code_ofCode, hcode]
  exact ⟨rfl, hpadded⟩

end Response

/-! ### Exceptions -/

theorem uint8_and_lt (c : UInt8) : c &&& 0x7F < 0x80 := by
  have hall : ∀ n : Fin 256, UInt8.ofFin n &&& 0x7F < 0x80 := by decide +kernel
  exact hall c.toFin

theorem uint8_or_and {c : UInt8} (h : 0x80 ≤ c) : (c &&& 0x7F) ||| 0x80 = c := by
  have hall : ∀ n : Fin 256, 0x80 ≤ UInt8.ofFin n →
      (UInt8.ofFin n &&& 0x7F) ||| 0x80 = UInt8.ofFin n := by decide +kernel
  exact hall c.toFin h

namespace ExceptionResponse

open PduReader

theorem takes_reader : Takes (fun e taken => taken = e.pdu ∧ e.IsCanonical) reader := by
  refine takes_byte.bind fun code front hcode => ?_
  by_cases hlow : code < 0x80
  · rw [if_pos hlow]
    exact .throw _ _
  · rw [if_neg hlow]
    refine takes_byte.bind fun exception front' hexception => .pure ⟨?_, ?_⟩
    · rw [hcode, hexception, pdu]
      simp only [FunctionCode.code_ofCode, ExceptionCode.code_ofCode,
        uint8_or_and (UInt8.not_lt.mp hlow)]
      rfl
    · constructor
      · simp only [FunctionCode.code_ofCode, uint8_and_lt]
      · simp only [FunctionCode.code_ofCode]
      · simp only [ExceptionCode.code_ofCode]

end ExceptionResponse

/-! ### Replies -/

namespace Reply

variable {reply : Reply} {pdu : List UInt8}

/-- The highest bit of the first byte tells exceptions from responses. -/
theorem headD_pdu (h : reply.function.code < 0x80) :
    0x80 ≤ reply.pdu.headD 0 ↔ ∃ e, reply = .error e := by
  rcases reply with e | response
  · exact ⟨fun _ => ⟨e, rfl⟩, fun _ => (uint8_and_or h).2⟩
  · refine ⟨fun hmark => ?_, fun ⟨e, he⟩ => by cases he⟩
    exact (UInt8.not_le.mpr response.code_function_lt hmark).elim

/-- What is read is a response or an exception. -/
theorem cases_of_ofPdu (h : ofPdu pdu = .ok reply) :
    (∃ r, Response.ofPdu pdu = .ok r ∧ reply = .ok r) ∨
      ∃ e, ExceptionResponse.ofPdu pdu = .ok e ∧ reply = .error e := by
  have hresponse : (Response.ofPdu pdu).map (Except.ok : Response → Reply) = .ok reply →
      ∃ r, Response.ofPdu pdu = .ok r ∧ reply = .ok r := by
    rcases Response.ofPdu pdu with fault | r <;> rintro ⟨⟩
    exact ⟨r, rfl, rfl⟩
  rcases pdu with _ | ⟨code, fields⟩
  · exact .inl (hresponse h)
  · rw [ofPdu] at h
    split at h
    · rcases hread : ExceptionResponse.ofPdu (code :: fields) with fault | e <;>
        rw [hread] at h <;> cases h
      exact .inr ⟨e, rfl, rfl⟩
    · exact .inl (hresponse h)

/-- What is read is a reply that fits, with padded coils and codes of their own, and it is written
as it was read. -/
theorem of_ofPdu (h : ofPdu pdu = .ok reply) :
    reply.pdu = pdu ∧ reply.pdu.length ≤ 253 ∧ reply.function.code < 0x80 ∧
      reply.canonical = reply := by
  rcases cases_of_ofPdu h with ⟨r, hr, rfl⟩ | ⟨e, he, rfl⟩
  · obtain ⟨hfits, rfl, hpadded⟩ := Response.takes_reader.of_decode hr
    exact ⟨rfl, hfits, r.code_function_lt, congrArg _ hpadded⟩
  · obtain ⟨hfits, rfl, hcanonical⟩ := ExceptionResponse.takes_reader.of_decode he
    refine ⟨rfl, hfits, hcanonical.lt, ?_⟩
    rw [canonical, hcanonical.function, hcanonical.exception]

/-- A reply that fits is framed with bytes from which it is read again, and one whose bytes do not
fit is refused; exceptions are told from responses by the first of these bytes. What is read from a
protocol data unit is written as this unit, so that no other unit is read as the same reply. -/
theorem ofReply_and_ofPdu (header : Header) (reply : Reply) (pdu : List UInt8) :
    (reply.function.code < 0x80 →
      (253 < reply.pdu.length → Message.ofReply header reply = .error .responseSize) ∧
      (reply.pdu.length ≤ 253 → ∃ m, Message.ofReply header reply = .ok m ∧ m.pdu = reply.pdu ∧
        m.pdu.length = reply.size ∧ m.response = .ok reply.canonical) ∧
      (0x80 ≤ reply.pdu.headD 0 ↔ ∃ e, reply = .error e)) ∧
    (ofPdu pdu = .ok reply → reply.pdu = pdu ∧ pdu.length ≤ 253 ∧
      (∀ pdu', ofPdu pdu' = .ok reply → pdu' = pdu) ∧
      (0x80 ≤ pdu.headD 0 ↔ ∃ e, reply = .error e)) ∧
    (ofPdu pdu = .ok reply ↔ reply.function.code < 0x80 ∧ reply.canonical = reply ∧
      reply.pdu.length ≤ 253 ∧ reply.pdu = pdu) := by
  have hlength := reply.length_pdu
  refine ⟨fun hcode => ⟨fun hlong => ?_, fun hfits => ?_, headD_pdu hcode⟩, fun hread => ?_,
    fun hread => ?_, ?_⟩
  · exact if_pos (hlength ▸ hlong)
  · have hsize : reply.size ≤ 253 := hlength ▸ hfits
    exact ⟨⟨header.envelope reply.pdu, .response, reply.pdu⟩, if_neg (Nat.not_lt.mpr hsize), rfl,
      hlength, ofPdu_pdu_of_lt hsize hcode⟩
  · obtain ⟨rfl, hfits, hcode, -⟩ := of_ofPdu hread
    exact ⟨rfl, hfits, fun pdu' hread' => (of_ofPdu hread').1.symm, headD_pdu hcode⟩
  · obtain ⟨hpdu, hfits, hcode, hcanonical⟩ := of_ofPdu hread
    exact ⟨hcode, hcanonical, hfits, hpdu⟩
  · rintro ⟨hcode, hcanonical, hfits, rfl⟩
    rw [ofPdu_pdu_of_lt (hlength ▸ hfits) hcode, hcanonical]

/-- A response with three coils is read with eight, which are written as the same byte. -/
theorem ofReply_and_ofPdu_coils :
    let sent : Reply := .ok (.readCoils [true, false, true])
    let read : Reply := .ok (.readCoils [true, false, true, false, false, false, false, false])
    (∃ m, Message.ofReply (.rtu ⟨7⟩) sent = .ok m ∧ m.pdu = [0x01, 1, 0x05] ∧
      m.response = .ok read) ∧
      read.pdu = [0x01, 1, 0x05] ∧ ¬ 0x80 ≤ read.pdu.headD 0 := by
  intro sent read
  have hsent : sent.pdu = [0x01, 1, 0x05] := by cbv
  have hread : read.pdu = [0x01, 1, 0x05] := by cbv
  have hcanonical : sent.canonical = read := rfl
  have hcodec := ofReply_and_ofPdu (.rtu ⟨7⟩) sent [0x01, 1, 0x05]
  have hback := ofReply_and_ofPdu (.rtu ⟨7⟩) read [0x01, 1, 0x05]
  obtain ⟨m, hm, hbytes, -, hresponse⟩ := (hcodec.1 (by decide)).2.1 (by rw [hsent]; decide)
  have hofPdu := hback.2.2.mpr ⟨by decide, rfl, by rw [hread]; decide, hread⟩
  have hunmarked : ¬ 0x80 ≤ read.pdu.headD 0 := by
    rw [hread]
    decide
  exact ⟨⟨m, hm, hbytes.trans hsent, hcanonical ▸ hresponse⟩, (hback.2.1 hofPdu).1, hunmarked⟩

end Reply

end Modbus

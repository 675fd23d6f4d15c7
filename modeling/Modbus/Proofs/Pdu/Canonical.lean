import Modbus.Frame.Message
import Modbus.Proofs.Pdu.RoundTrip

/-! The bytes of a request are its own. A request that fits into a protocol data unit is read from
what it is written as, and what is read is written as it was read. Only the bits of the last byte
of coils that belong to no coil are free: they are read as if they were off. -/

namespace Modbus

/-! ### Bits that no coil uses -/

/-- The bytes of `n` coils, where the bits of the last one that no coil uses are switched off. -/
def clearUnused : Nat → List UInt8 → List UInt8
  | _, [] => []
  | n, [b] => [UInt8.ofNat (b.toNat % 2 ^ n)]
  | n, b :: rest => b :: clearUnused (n - 8) rest

@[simp] theorem length_clearUnused (n : Nat) (bytes : List UInt8) :
    (clearUnused n bytes).length = bytes.length := by
  fun_induction clearUnused n bytes with
  | case1 | case2 => rfl
  | case3 n b rest hne ih => rw [List.length_cons, List.length_cons, ih]

/-- A byte is what its first `n` bits are packed to, where the other bits are off. -/
theorem packByte_take_unpackByte (n : Nat) (b : UInt8) :
    packByte ((unpackByte b).take n) = UInt8.ofNat (b.toNat % 2 ^ n) := by
  apply UInt8.toNat_inj.mp
  have hb : b.toNat < 2 ^ 8 := b.toNat_lt
  have hmod : b.toNat % 2 ^ n < 256 := Nat.lt_of_le_of_lt (Nat.mod_le _ _) hb
  have hlength : ((unpackByte b).take n).length ≤ 8 := by
    rw [List.length_take, length_unpackByte]
    exact Nat.min_le_right _ _
  rw [toNat_uint8OfNat hmod]
  refine Nat.eq_of_testBit_eq fun i => ?_
  rw [testBit_packByte hlength, Nat.testBit_mod_two_pow, List.getD_eq_getElem?_getD]
  by_cases hi : i < n
  · rw [List.getElem?_take_of_lt hi, decide_eq_true hi, Bool.true_and]
    by_cases h8 : i < 8
    · simp [unpackByte, h8]
    · have hhigh : b.toNat.testBit i = false :=
        Nat.testBit_lt_two_pow (Nat.lt_of_lt_of_le hb (Nat.pow_le_pow_right (by decide) (by omega)))
      rw [hhigh, List.getElem?_eq_none (by rw [length_unpackByte]; omega), Option.getD_none]
  · rw [List.getElem?_eq_none (by rw [List.length_take]; omega), decide_eq_false hi,
      Bool.false_and, Option.getD_none]

theorem packByte_unpackByte (b : UInt8) : packByte (unpackByte b) = b := by
  have hpack := packByte_take_unpackByte 8 b
  have hb : b.toNat % 2 ^ 8 = b.toNat := Nat.mod_eq_of_lt b.toNat_lt
  rw [hb, UInt8.ofNat_toNat, List.take_of_length_le (Nat.le_of_eq (length_unpackByte b))] at hpack
  exact hpack

/-- Up to eight coils make one byte. -/
theorem packCoils_of_length_le {coils : List Bool} (h : coils ≠ []) (h' : coils.length ≤ 8) :
    packCoils coils = [packByte coils] := by
  obtain ⟨c, rest, rfl⟩ := List.exists_cons_of_ne_nil h
  have hrest : rest.length ≤ 7 := Nat.le_of_succ_le_succ h'
  rw [packCoils, List.take_of_length_le hrest, List.drop_eq_nil_of_le hrest, packCoils]

theorem packCoils_append {coils : List Bool} (h : coils.length = 8) (more : List Bool) :
    packCoils (coils ++ more) = packByte coils :: packCoils more := by
  obtain ⟨c, rest, rfl⟩ := List.exists_cons_of_length_eq_add_one h
  have hrest : rest.length = 7 := Nat.succ.inj h
  rw [List.cons_append, packCoils, List.take_left' hrest, List.drop_left' hrest]

/-- The coils that bytes hold are packed to these bytes, without the bits that no coil uses. -/
theorem packCoils_take_unpackCoils {n : Nat} {bytes : List UInt8} (h : bytes.length = (n + 7) / 8) :
    packCoils ((unpackCoils bytes).take n) = clearUnused n bytes := by
  fun_induction clearUnused n bytes with
  | case1 n =>
    rw [unpackCoils, List.flatMap_nil, List.take_nil, packCoils]
  | case2 n b =>
    rw [List.length_singleton] at h
    have hone : (unpackCoils [b]).take n = (unpackByte b).take n := by
      rw [unpackCoils_cons, unpackCoils, List.flatMap_nil, List.append_nil]
    have hlength : ((unpackByte b).take n).length = min n 8 := by
      rw [List.length_take, length_unpackByte]
    have hne : (unpackByte b).take n ≠ [] := List.ne_nil_of_length_pos (by omega)
    rw [hone, packCoils_of_length_le hne (by omega), packByte_take_unpackByte]
  | case3 n b rest hne ih =>
    have hrest : 0 < rest.length := List.length_pos_iff.mpr hne
    rw [List.length_cons] at h
    have htake : (unpackCoils (b :: rest)).take n =
        unpackByte b ++ (unpackCoils rest).take (n - 8) := by
      rw [unpackCoils_cons, List.take_append, length_unpackByte,
        List.take_of_length_le (by rw [length_unpackByte]; omega)]
    rw [htake, packCoils_append (length_unpackByte b), packByte_unpackByte, ih (by omega)]

theorem wordsBytes_wordOfBytes (hi lo : UInt8) (ws : List UInt16) :
    wordsBytes (wordOfBytes hi lo :: ws) = hi :: lo :: wordsBytes ws := by
  have hword : wordBytes (wordOfBytes hi lo) = [hi, lo] := wordBytes_wordOfBytes hi lo
  calc wordsBytes (wordOfBytes hi lo :: ws)
      = wordBytes (wordOfBytes hi lo) ++ wordsBytes ws := rfl
    _ = hi :: lo :: wordsBytes ws := by rw [hword]; rfl

theorem wordsBytes_wordsAt {n : Nat} {bytes : List UInt8} (h : bytes.length = 2 * n) :
    wordsBytes (wordsAt bytes n) = bytes := by
  induction n generalizing bytes with
  | zero =>
    obtain rfl := List.eq_nil_of_length_eq_zero h
    rfl
  | succ n ih =>
    obtain ⟨hi, lo, rest, rfl⟩ : ∃ hi lo rest, bytes = hi :: lo :: rest := by
      rcases bytes with _ | ⟨hi, _ | ⟨lo, rest⟩⟩
      · cases h
      · rw [List.length_singleton] at h
        omega
      · exact ⟨hi, lo, rest, rfl⟩
    have hrest : rest.length = 2 * n := by
      rw [List.length_cons, List.length_cons] at h
      omega
    have hwords : wordsAt (hi :: lo :: rest) (n + 1) = wordOfBytes hi lo :: wordsAt rest n := by
      rw [wordsAt_eq h, wordsAt_eq hrest, wordsOfBytes]
    rw [hwords, wordsBytes_wordOfBytes, ih hrest]

theorem length_coilsAt (bytes : List UInt8) (n : Nat) : (coilsAt bytes n).length = n := by
  rw [coilsAt, List.length_map, List.length_range]

theorem length_wordsAt (bytes : List UInt8) (n : Nat) : (wordsAt bytes n).length = n := by
  rw [wordsAt, List.length_map, List.length_range]

/-- The coils that counted bytes hold are counted and packed to these bytes again. -/
theorem countedCoils_coilsAt {n : Nat} {count : UInt8} {bytes : List UInt8}
    (hcount : count.toNat = (n + 7) / 8) (hbytes : bytes.length = count.toNat) :
    countedCoils (coilsAt bytes n) = count :: clearUnused n bytes := by
  have hpacked : packCoils (coilsAt bytes n) = clearUnused n bytes := by
    rw [coilsAt_eq (by omega), packCoils_take_unpackCoils (hbytes.trans hcount)]
  rw [countedCoils, length_coilsAt, hpacked, packedSize, ← hcount, UInt8.ofNat_toNat]

theorem countedWords_wordsAt {n : Nat} {count : UInt8} {bytes : List UInt8}
    (hcount : count.toNat = 2 * n) (hbytes : bytes.length = count.toNat) :
    countedWords (wordsAt bytes n) = count :: bytes := by
  rw [countedWords, length_wordsAt, wordsBytes_wordsAt (hbytes.trans hcount), ← hcount,
    UInt8.ofNat_toNat]

/-! ### Requests that were read -/

namespace Request

/-- The fields of a request, where the bits that no coil uses are switched off. -/
def trimmedFields (function : FunctionCode) (fields : List UInt8) : List UInt8 :=
  match function, fields with
  | .writeMultipleCoils, a₁ :: a₀ :: n₁ :: n₀ :: count :: bytes =>
    a₁ :: a₀ :: n₁ :: n₀ :: count :: clearUnused (wordOfBytes n₁ n₀).toNat bytes
  | _, fields => fields

/-- A protocol data unit, where the bits that no coil uses are switched off if it is a request to
write coils. -/
def trimmed : List UInt8 → List UInt8
  | [] => []
  | code :: fields => code :: trimmedFields (.ofCode code) fields

theorem trimmedFields_of_ne {function : FunctionCode} (h : function ≠ .writeMultipleCoils)
    (fields : List UInt8) : trimmedFields function fields = fields := by
  unfold trimmedFields
  split
  · exact absurd rfl h
  · rfl

theorem length_trimmedFields (function : FunctionCode) (fields : List UInt8) :
    (trimmedFields function fields).length = fields.length := by
  unfold trimmedFields
  split
  · simp only [List.length_cons, length_clearUnused]
  · rfl

variable {r : Request} {function : FunctionCode} {fields pdu : List UInt8}

/-- The fields that spell a request are the fields of that request. -/
theorem of_spelledBy? (h : spelledBy? function fields = some r) :
    r.function = function ∧ r.payload = trimmedFields function fields := by
  cases function with
  | readCoils | readDiscreteInputs | readHoldingRegisters | readInputRegisters
  | writeSingleRegister =>
    rw [trimmedFields_of_ne (by decide)]
    rcases fields with _ | ⟨a₁, _ | ⟨a₀, _ | ⟨n₁, _ | ⟨n₀, _ | ⟨b, rest⟩⟩⟩⟩⟩ <;> cases h
    refine ⟨rfl, ?_⟩
    simp only [payload, wordsBytes_wordOfBytes, wordsBytes_nil]
  | writeSingleCoil =>
    rw [trimmedFields_of_ne (by decide)]
    rcases fields with _ | ⟨a₁, _ | ⟨a₀, _ | ⟨v₁, _ | ⟨v₀, _ | ⟨b, rest⟩⟩⟩⟩⟩
    case cons.cons.cons.cons.nil =>
      have hcoil : (if v₁ = 0xFF ∧ v₀ = 0 then some (writeSingleCoil (wordOfBytes a₁ a₀) true)
        else if v₁ = 0 ∧ v₀ = 0 then some (writeSingleCoil (wordOfBytes a₁ a₀) false)
        else none) = some r := h
      split at hcoil
      · rename_i hon
        cases hcoil
        rw [hon.1, hon.2, payload, wordsBytes_wordOfBytes]
        exact ⟨rfl, rfl⟩
      · split at hcoil <;> cases hcoil
        rename_i hoff
        rw [hoff.1, hoff.2, payload, wordsBytes_wordOfBytes]
        exact ⟨rfl, rfl⟩
    all_goals cases h
  | writeMultipleCoils =>
    rcases fields with _ | ⟨a₁, _ | ⟨a₀, _ | ⟨n₁, _ | ⟨n₀, _ | ⟨count, bytes⟩⟩⟩⟩⟩
    case cons.cons.cons.cons.cons =>
      rw [spelledBy?_writeMultipleCoils] at h
      split at h <;> cases h
      rename_i hform
      refine ⟨rfl, ?_⟩
      rw [payload, length_coilsAt, UInt16.ofNat_toNat, countedCoils_coilsAt hform.1 hform.2,
        wordsBytes_wordOfBytes, wordsBytes_wordOfBytes]
      rfl
    all_goals cases h
  | writeMultipleRegisters =>
    rcases fields with _ | ⟨a₁, _ | ⟨a₀, _ | ⟨n₁, _ | ⟨n₀, _ | ⟨count, bytes⟩⟩⟩⟩⟩
    case cons.cons.cons.cons.cons =>
      rw [trimmedFields_of_ne (by decide)]
      rw [spelledBy?_writeMultipleRegisters] at h
      split at h <;> cases h
      rename_i hform
      refine ⟨rfl, ?_⟩
      rw [payload, length_wordsAt, UInt16.ofNat_toNat, countedWords_wordsAt hform.1 hform.2,
        wordsBytes_wordOfBytes, wordsBytes_wordOfBytes]
      rfl
    all_goals cases h
  | reportId =>
    rcases fields with _ | ⟨b, rest⟩ <;> cases h
    exact ⟨rfl, rfl⟩
  | maskWriteRegister =>
    rcases fields with
      _ | ⟨a₁, _ | ⟨a₀, _ | ⟨x₁, _ | ⟨x₀, _ | ⟨o₁, _ | ⟨o₀, _ | ⟨b, rest⟩⟩⟩⟩⟩⟩⟩ <;> cases h
    rw [trimmedFields_of_ne (by decide)]
    refine ⟨rfl, ?_⟩
    simp only [payload, wordsBytes_wordOfBytes, wordsBytes_nil]
  | readWriteRegisters =>
    rcases fields with _ | ⟨r₁, _ | ⟨r₀, _ | ⟨q₁, _ | ⟨q₀, _ | ⟨w₁, _ | ⟨w₀, _ | ⟨n₁, _ |
      ⟨n₀, _ | ⟨count, bytes⟩⟩⟩⟩⟩⟩⟩⟩⟩
    case cons.cons.cons.cons.cons.cons.cons.cons.cons =>
      rw [trimmedFields_of_ne (by decide)]
      rw [spelledBy?_readWriteRegisters] at h
      split at h <;> cases h
      rename_i hform
      refine ⟨rfl, ?_⟩
      rw [payload, length_wordsAt, UInt16.ofNat_toNat, countedWords_wordsAt hform.1 hform.2,
        wordsBytes_wordOfBytes, wordsBytes_wordOfBytes, wordsBytes_wordOfBytes,
        wordsBytes_wordOfBytes]
      rfl
    all_goals cases h
  | custom code =>
    rw [spelledBy?_custom] at h
    split at h <;> cases h
    exact ⟨rfl, rfl⟩

/-- Whether fields spell a request does not depend on the bits that no coil uses. -/
theorem exists_of_spelledBy?_trimmedFields
    (h : spelledBy? function (trimmedFields function fields) = some r) :
    ∃ r', spelledBy? function fields = some r' := by
  by_cases hcoils : function = .writeMultipleCoils
  · subst hcoils
    rcases fields with _ | ⟨a₁, _ | ⟨a₀, _ | ⟨n₁, _ | ⟨n₀, _ | ⟨count, bytes⟩⟩⟩⟩⟩
    case cons.cons.cons.cons.cons =>
      rw [trimmedFields, spelledBy?_writeMultipleCoils, length_clearUnused] at h
      split at h
      · rename_i hform
        exact ⟨_, (spelledBy?_writeMultipleCoils ..).trans (if_pos hform)⟩
      · cases h
    all_goals cases h
  · rw [trimmedFields_of_ne hcoils] at h
    exact ⟨r, h⟩

theorem length_trimmed : ∀ pdu : List UInt8, (trimmed pdu).length = pdu.length
  | [] => rfl
  | code :: fields => congrArg (· + 1) (length_trimmedFields (.ofCode code) fields)

theorem ofPdu_eq_ok_iff_spelled? : ofPdu pdu = .ok r ↔ spelled? pdu = some r := by
  rw [← toOption_ofPdu]
  rcases ofPdu pdu with fault | r' <;> simp [Except.toOption]

theorem spelled?_cons_eq_some_iff {code : UInt8} :
    spelled? (code :: fields) = some r ↔
      fields.length + 1 ≤ 253 ∧ spelledBy? (.ofCode code) fields = some r := by
  rw [spelled?]
  split
  · rename_i hlong
    exact ⟨fun h => (Option.some_ne_none _ h.symm).elim, fun h => absurd h.1 (by omega)⟩
  · rename_i hfits
    exact ⟨fun h => ⟨by omega, h⟩, And.right⟩

theorem isCanonical_of_spelledBy? {code : UInt8} (h : spelledBy? (.ofCode code) fields = some r) :
    r.IsCanonical := by
  have hfunction := (of_spelledBy? h).1
  cases r with
  | custom code' data =>
    have hcode : FunctionCode.ofCode code = .custom code' := hfunction.symm
    have hsame : code = code' := by rw [← FunctionCode.code_ofCode code, hcode]; rfl
    rw [hcode, spelledBy?_custom] at h
    split at h
    · rename_i hlt
      exact ⟨hlt, hsame ▸ hcode⟩
    · cases h
  | _ => trivial

theorem code_function_lt (h : r.IsCanonical) : r.function.code < 0x80 := by
  cases r with
  | custom code data => exact h.1
  | _ =>
    simp only [Request.function, FunctionCode.code]
    decide

/-- What is read is a request that fits, and it is written as it was read, without the bits that
no coil uses. -/
theorem of_ofPdu (h : ofPdu pdu = .ok r) :
    pdu.length ≤ 253 ∧ r.IsCanonical ∧ r.pdu = trimmed pdu := by
  rw [ofPdu_eq_ok_iff_spelled?] at h
  rcases pdu with _ | ⟨code, fields⟩
  · cases h
  · obtain ⟨hfits, hspelled⟩ := spelled?_cons_eq_some_iff.mp h
    obtain ⟨hfunction, hpayload⟩ := of_spelledBy? hspelled
    refine ⟨hfits, isCanonical_of_spelledBy? hspelled, ?_⟩
    rw [Request.pdu, hfunction, hpayload, FunctionCode.code_ofCode, trimmed]

theorem size_of_ofPdu (h : ofPdu pdu = .ok r) : r.size ≤ 253 := by
  obtain ⟨hfits, -, hpdu⟩ := of_ofPdu h
  rw [← length_pdu, hpdu, length_trimmed]
  exact hfits

/-- Whatever is written like a request, up to bits that no coil uses, is read as this request. -/
theorem ofPdu_of_pdu_eq_trimmed (hc : r.IsCanonical) (hsize : r.size ≤ 253)
    (h : r.pdu = trimmed pdu) : ofPdu pdu = .ok r := by
  have hread : ofPdu (trimmed pdu) = .ok r := h ▸ ofPdu_pdu hsize hc
  rcases pdu with _ | ⟨code, fields⟩
  · cases hread
  · rw [ofPdu_eq_ok_iff_spelled?, trimmed, spelled?_cons_eq_some_iff, length_trimmedFields] at hread
    obtain ⟨r', hr'⟩ := exists_of_spelledBy?_trimmedFields hread.2
    have hread' : ofPdu (code :: fields) = .ok r' :=
      ofPdu_eq_ok_iff_spelled?.mpr (spelled?_cons_eq_some_iff.mpr ⟨hread.1, hr'⟩)
    obtain ⟨-, hc', hpdu'⟩ := of_ofPdu hread'
    -- Both requests are read from the same bytes, those that they are written as.
    have hsame : Except.ok (ε := PduFault) r' = .ok r := by
      rw [← ofPdu_pdu (size_of_ofPdu hread') hc', hpdu', ← h, ofPdu_pdu hsize hc]
    rw [hread', hsame]

/-- A request that fits is framed with bytes from which it is read again, and one whose bytes do
not fit is refused. What is read from a protocol data unit fits and is written as this unit,
without the bits that no coil uses, and nothing else that is written so is refused. -/
theorem ofRequest_and_ofPdu (header : Header) (r : Request) (pdu : List UInt8) :
    (r.IsCanonical →
      (253 < r.pdu.length → Message.ofRequest header r = .error .requestSize) ∧
      (r.pdu.length ≤ 253 → ∃ m, Message.ofRequest header r = .ok m ∧ m.pdu = r.pdu ∧
        m.pdu.length = r.size ∧ ofPdu m.pdu = .ok r)) ∧
    (ofPdu pdu = .ok r → pdu.length ≤ 253 ∧ r.pdu = trimmed pdu) ∧
    (ofPdu pdu = .ok r ↔ r.IsCanonical ∧ r.pdu.length ≤ 253 ∧ r.pdu = trimmed pdu) := by
  have hlength := r.length_pdu
  refine ⟨fun hc => ⟨fun hlong => ?_, fun hfits => ?_⟩, fun hread => ?_, fun hread => ?_, ?_⟩
  · exact if_pos (hlength ▸ hlong)
  · have hsize : r.size ≤ 253 := hlength ▸ hfits
    exact ⟨⟨header.envelope r.pdu, .request, r.pdu⟩, if_neg (Nat.not_lt.mpr hsize), rfl, hlength,
      ofPdu_pdu hsize hc⟩
  · exact ⟨(of_ofPdu hread).1, (of_ofPdu hread).2.2⟩
  · obtain ⟨hfits, hc, hpdu⟩ := of_ofPdu hread
    exact ⟨hc, by rw [hpdu, length_trimmed]; exact hfits, hpdu⟩
  · rintro ⟨hc, hfits, hpdu⟩
    exact ofPdu_of_pdu_eq_trimmed hc (hlength ▸ hfits) hpdu

/-- A request to write three coils, with a byte that has all bits set. -/
theorem ofRequest_and_ofPdu_coils :
    ∃ m, Message.ofRequest (.rtu ⟨7⟩) (.writeMultipleCoils 2 [true, false, true]) = .ok m ∧
      m.pdu = [0x0F, 0, 2, 0, 3, 1, 0x05] ∧
      ofPdu m.pdu = .ok (.writeMultipleCoils 2 [true, false, true]) ∧
      ofPdu [0x0F, 0, 2, 0, 3, 1, 0xFD] = .ok (.writeMultipleCoils 2 [true, false, true]) := by
  have hcodec := ofRequest_and_ofPdu (.rtu ⟨7⟩) (.writeMultipleCoils 2 [true, false, true])
    [0x0F, 0, 2, 0, 3, 1, 0xFD]
  have hpdu : (writeMultipleCoils 2 [true, false, true]).pdu = [0x0F, 0, 2, 0, 3, 1, 0x05] := by
    cbv
  obtain ⟨m, hm, hbytes, -, hread⟩ := (hcodec.1 trivial).2 (by rw [hpdu]; decide)
  exact ⟨m, hm, hbytes.trans hpdu, hread, hcodec.2.2.mpr ⟨trivial, by rw [hpdu]; decide, hpdu⟩⟩

end Request

end Modbus

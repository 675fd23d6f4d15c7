import Modbus.Pdu.Request
import Modbus.Proofs.Pdu.Words

/-! The grammar of request units: which bytes spell which request, said by the positions of the
fields. The reader accepts exactly the bytes that spell a request. -/

namespace Modbus

/-- The first `n` coils that bytes hold: coil `i` is bit `i % 8` of byte `i / 8`. -/
def coilsAt (bytes : List UInt8) (n : Nat) : List Bool :=
  (List.range n).map fun i => (bytes.getD (i / 8) 0).toNat.testBit (i % 8)

/-- The first `n` words that bytes hold: word `i` is in the bytes `2 * i` and `2 * i + 1`. -/
def wordsAt (bytes : List UInt8) (n : Nat) : List UInt16 :=
  (List.range n).map fun i => wordOfBytes (bytes.getD (2 * i) 0) (bytes.getD (2 * i + 1) 0)

/-- The request that the fields of a function spell, if they have the form that it asks for. -/
def Request.spelledBy? (function : FunctionCode) (fields : List UInt8) : Option Request :=
  match function, fields with
  | .readCoils, [a₁, a₀, n₁, n₀] => some (.readCoils (wordOfBytes a₁ a₀) (wordOfBytes n₁ n₀))
  | .readDiscreteInputs, [a₁, a₀, n₁, n₀] =>
    some (.readDiscreteInputs (wordOfBytes a₁ a₀) (wordOfBytes n₁ n₀))
  | .readHoldingRegisters, [a₁, a₀, n₁, n₀] =>
    some (.readHoldingRegisters (wordOfBytes a₁ a₀) (wordOfBytes n₁ n₀))
  | .readInputRegisters, [a₁, a₀, n₁, n₀] =>
    some (.readInputRegisters (wordOfBytes a₁ a₀) (wordOfBytes n₁ n₀))
  | .writeSingleCoil, [a₁, a₀, v₁, v₀] =>
    if v₁ = 0xFF ∧ v₀ = 0 then some (.writeSingleCoil (wordOfBytes a₁ a₀) true)
    else if v₁ = 0 ∧ v₀ = 0 then some (.writeSingleCoil (wordOfBytes a₁ a₀) false)
    else none
  | .writeSingleRegister, [a₁, a₀, v₁, v₀] =>
    some (.writeSingleRegister (wordOfBytes a₁ a₀) (wordOfBytes v₁ v₀))
  | .writeMultipleCoils, a₁ :: a₀ :: n₁ :: n₀ :: count :: bytes =>
    let n := (wordOfBytes n₁ n₀).toNat
    if count.toNat = (n + 7) / 8 ∧ bytes.length = count.toNat then
      some (.writeMultipleCoils (wordOfBytes a₁ a₀) (coilsAt bytes n))
    else none
  | .writeMultipleRegisters, a₁ :: a₀ :: n₁ :: n₀ :: count :: bytes =>
    let n := (wordOfBytes n₁ n₀).toNat
    if count.toNat = 2 * n ∧ bytes.length = count.toNat then
      some (.writeMultipleRegisters (wordOfBytes a₁ a₀) (wordsAt bytes n))
    else none
  | .reportId, [] => some .reportId
  | .maskWriteRegister, [a₁, a₀, x₁, x₀, o₁, o₀] =>
    some (.maskWriteRegister (wordOfBytes a₁ a₀) (wordOfBytes x₁ x₀) (wordOfBytes o₁ o₀))
  | .readWriteRegisters, r₁ :: r₀ :: q₁ :: q₀ :: w₁ :: w₀ :: n₁ :: n₀ :: count :: bytes =>
    let n := (wordOfBytes n₁ n₀).toNat
    if count.toNat = 2 * n ∧ bytes.length = count.toNat then
      some (.readWriteRegisters (wordOfBytes r₁ r₀) (wordOfBytes q₁ q₀) (wordOfBytes w₁ w₀)
        (wordsAt bytes n))
    else none
  | .custom code, data => if code < 0x80 then some (.custom code data) else none
  | _, _ => none

namespace Request

theorem spelledBy?_writeMultipleCoils (a₁ a₀ n₁ n₀ count : UInt8) (bytes : List UInt8) :
    spelledBy? .writeMultipleCoils (a₁ :: a₀ :: n₁ :: n₀ :: count :: bytes) =
      if count.toNat = ((wordOfBytes n₁ n₀).toNat + 7) / 8 ∧ bytes.length = count.toNat then
        some (.writeMultipleCoils (wordOfBytes a₁ a₀) (coilsAt bytes (wordOfBytes n₁ n₀).toNat))
      else none := rfl

theorem spelledBy?_writeMultipleRegisters (a₁ a₀ n₁ n₀ count : UInt8) (bytes : List UInt8) :
    spelledBy? .writeMultipleRegisters (a₁ :: a₀ :: n₁ :: n₀ :: count :: bytes) =
      if count.toNat = 2 * (wordOfBytes n₁ n₀).toNat ∧ bytes.length = count.toNat then
        some (.writeMultipleRegisters (wordOfBytes a₁ a₀)
          (wordsAt bytes (wordOfBytes n₁ n₀).toNat))
      else none := rfl

theorem spelledBy?_readWriteRegisters (r₁ r₀ q₁ q₀ w₁ w₀ n₁ n₀ count : UInt8)
    (bytes : List UInt8) :
    spelledBy? .readWriteRegisters
        (r₁ :: r₀ :: q₁ :: q₀ :: w₁ :: w₀ :: n₁ :: n₀ :: count :: bytes) =
      if count.toNat = 2 * (wordOfBytes n₁ n₀).toNat ∧ bytes.length = count.toNat then
        some (.readWriteRegisters (wordOfBytes r₁ r₀) (wordOfBytes q₁ q₀) (wordOfBytes w₁ w₀)
          (wordsAt bytes (wordOfBytes n₁ n₀).toNat))
      else none := rfl

theorem spelledBy?_custom (code : UInt8) (fields : List UInt8) :
    spelledBy? (.custom code) fields =
      if code < 0x80 then some (.custom code fields) else none := rfl

end Request

/-- The request that a protocol data unit spells. A unit has a function code and at most 253
bytes. -/
def Request.spelled? : List UInt8 → Option Request
  | [] => none
  | code :: fields =>
    if 253 < fields.length + 1 then none else Request.spelledBy? (.ofCode code) fields

/-! ### What the reader accepts -/

theorem coilsAt_eq {bytes : List UInt8} {n : Nat} (h : n ≤ 8 * bytes.length) :
    coilsAt bytes n = (unpackCoils bytes).take n := by
  refine List.ext_getElem? fun i => ?_
  by_cases hi : i < n
  · have hb : i / 8 < bytes.length := by omega
    simp [coilsAt, List.getElem?_take_of_lt hi, getElem?_unpackCoils, hi,
      List.getElem?_eq_getElem hb]
  · rw [List.getElem?_eq_none (by simp [coilsAt]; omega),
      List.getElem?_eq_none (by simp; omega)]

theorem wordsAt_eq : ∀ {n : Nat} {bytes : List UInt8}, bytes.length = 2 * n →
    wordsAt bytes n = wordsOfBytes bytes
  | 0, bytes, h => by rw [List.eq_nil_of_length_eq_zero h]; rfl
  | n + 1, hi :: lo :: rest, h => by
    rw [wordsOfBytes, ← wordsAt_eq (n := n) (show rest.length = 2 * n by simp at h; omega)]
    simp [wordsAt, List.range_succ_eq_map, Function.comp_def, Nat.mul_succ]

namespace PduReader

variable {α : Type}

/-- What a reader makes of bytes that it uses up. -/
def whole? (reader : PduReader α) (bytes : List UInt8) : Option α :=
  match reader bytes with
  | .ok (a, []) => some a
  | _ => none

theorem toOption_decode (reader : PduReader α) (pdu : List UInt8) :
    (reader.decode pdu).toOption =
      if maxPduSize < pdu.length then none else reader.whole? pdu := by
  unfold decode whole?
  split
  · rfl
  · rcases reader pdu with fault | ⟨a, _ | ⟨b, rest⟩⟩ <;> rfl

theorem word_bind (k : UInt16 → PduReader α) (bytes : List UInt8) :
    (word >>= k).whole? bytes =
      match bytes with
      | hi :: lo :: rest => (k (wordOfBytes hi lo)).whole? rest
      | _ => none := by
  rcases bytes with _ | ⟨hi, _ | ⟨lo, rest⟩⟩ <;> rfl

theorem pure_whole? (a : α) (bytes : List UInt8) :
    (pure a : PduReader α).whole? bytes = if bytes = [] then some a else none := by
  rcases bytes with _ | ⟨b, rest⟩ <;> rfl

theorem coil_bind (k : Bool → PduReader α) (bytes : List UInt8) :
    (coil >>= k).whole? bytes =
      match bytes with
      | hi :: lo :: rest =>
        if hi = 0xFF ∧ lo = 0 then (k true).whole? rest
        else if hi = 0 ∧ lo = 0 then (k false).whole? rest
        else none
      | _ => none := by
  have hword : ∀ {hi lo : UInt8} (a b : UInt8), wordOfBytes hi lo = wordOfBytes a b ↔
      hi = a ∧ lo = b := by
    intro hi lo a b
    refine ⟨fun h => ?_, fun ⟨h1, h2⟩ => by rw [h1, h2]⟩
    simpa [wordBytes_wordOfBytes] using congrArg wordBytes h
  rcases bytes with _ | ⟨hi, _ | ⟨lo, rest⟩⟩
  · rfl
  · rfl
  · have hon := @hword hi lo 0xFF 0
    have hoff := @hword hi lo 0 0
    rw [show wordOfBytes 0xFF 0 = 0xFF00 from by decide] at hon
    rw [show wordOfBytes 0 0 = 0x0000 from by decide] at hoff
    simp only [← hon, ← hoff, coil, bind_assoc, word_bind]
    by_cases h1 : wordOfBytes hi lo = 0xFF00
    · simp only [h1, if_true, pure_bind]
    · by_cases h0 : wordOfBytes hi lo = 0x0000
      · simp only [h0, if_true]
        rfl
      · simp only [h1, h0, if_false]
        rfl

theorem map_whole? {β : Type} (f : α → β) (reader : PduReader α) (fields : List UInt8) :
    (do return f (← reader) : PduReader β).whole? fields = (reader.whole? fields).map f := by
  simp only [whole?, bind, StateT.bind, Except.bind]
  rcases reader fields with fault | ⟨a, _ | ⟨b, rest⟩⟩ <;> rfl

theorem bytes_whole? (n : Nat) (fields : List UInt8) :
    (bytes n).whole? fields = if fields.length = n then some fields else none := by
  unfold whole? bytes
  by_cases hlt : fields.length < n
  · rw [if_pos hlt, if_neg (by omega)]
  · rw [if_neg hlt]
    by_cases heq : fields.length = n
    · rw [if_pos heq, List.drop_of_length_le (by omega), List.take_of_length_le (by omega)]
    · obtain ⟨b, rest, hrest⟩ : ∃ b rest, fields.drop n = b :: rest :=
        List.exists_cons_of_ne_nil fun h => by
          rw [List.drop_eq_nil_iff] at h
          omega
      rw [if_neg heq, hrest]

theorem words_whole? (n : UInt16) (fields : List UInt8) :
    (words (some n)).whole? fields =
      match fields with
      | count :: rest =>
        if count.toNat = 2 * n.toNat ∧ rest.length = count.toNat then some (wordsAt rest n.toNat)
        else none
      | [] => none := by
  rcases fields with _ | ⟨count, rest⟩
  · rfl
  · by_cases hc : count.toNat = 2 * n.toNat
    · have hread : (words (some n)).whole? (count :: rest) =
          (do return wordsOfBytes (← bytes count.toNat)).whole? rest := by
        simp [whole?, words, byte, bind, StateT.bind, Except.bind, hc]
      rw [hread, map_whole?, bytes_whole?]
      simp only [hc, true_and]
      split
      · rename_i hlen
        rw [Option.map_some, wordsAt_eq hlen]
      · rfl
    · have hread : (words (some n)).whole? (count :: rest) = none := by
        simp [whole?, words, byte, bind, StateT.bind, Except.bind, throw, throwThe,
          MonadExceptOf.throw, StateT.lift, Ne.symm hc]
      rw [hread]
      simp [hc]

theorem coils_whole? (n : UInt16) (fields : List UInt8) :
    (coils (some n)).whole? fields =
      match fields with
      | count :: rest =>
        if count.toNat = (n.toNat + 7) / 8 ∧ rest.length = count.toNat then
          some (coilsAt rest n.toNat)
        else none
      | [] => none := by
  rcases fields with _ | ⟨count, rest⟩
  · rfl
  · by_cases hc : count.toNat = (n.toNat + 7) / 8
    · have hread : (coils (some n)).whole? (count :: rest) =
          (do return (unpackCoils (← bytes count.toNat)).take n.toNat).whole? rest := by
        simp [whole?, coils, byte, bind, StateT.bind, Except.bind, hc, packedSize]
      rw [hread, map_whole?, bytes_whole?]
      simp only [hc, true_and]
      split
      · rename_i hlen
        rw [Option.map_some, coilsAt_eq (by omega)]
      · rfl
    · have hread : (coils (some n)).whole? (count :: rest) = none := by
        simp [whole?, coils, byte, bind, StateT.bind, Except.bind, throw, throwThe,
          MonadExceptOf.throw, StateT.lift, packedSize, Ne.symm hc]
      rw [hread]
      simp [hc]

end PduReader

namespace Request

open PduReader

/-- The reader of the fields of a function accepts exactly the fields that spell a request. -/
theorem readFields_whole? (function : FunctionCode) (fields : List UInt8) :
    (readFields function).whole? fields = spelledBy? function fields := by
  cases function with
  | readCoils | readDiscreteInputs | readHoldingRegisters | readInputRegisters
  | writeSingleRegister =>
    simp only [readFields, word_bind, pure_whole?]
    rcases fields with _ | ⟨a₁, _ | ⟨a₀, _ | ⟨n₁, _ | ⟨n₀, _ | ⟨b, rest⟩⟩⟩⟩⟩ <;> rfl
  | writeSingleCoil =>
    simp only [readFields, word_bind, coil_bind, pure_whole?]
    rcases fields with _ | ⟨a₁, _ | ⟨a₀, _ | ⟨n₁, _ | ⟨n₀, _ | ⟨b, rest⟩⟩⟩⟩⟩
    case cons.cons.cons.cons.cons =>
      simp only [reduceCtorEq, if_false, ite_self]
      rfl
    all_goals rfl
  | writeMultipleCoils =>
    simp only [readFields, word_bind, map_whole?, coils_whole?]
    rcases fields with _ | ⟨a₁, _ | ⟨a₀, _ | ⟨n₁, _ | ⟨n₀, _ | ⟨count, bytes⟩⟩⟩⟩⟩
    case cons.cons.cons.cons.cons =>
      rw [spelledBy?_writeMultipleCoils]
      simp only [apply_ite (Option.map _), Option.map_some, Option.map_none]
    all_goals rfl
  | writeMultipleRegisters =>
    simp only [readFields, word_bind, map_whole?, words_whole?]
    rcases fields with _ | ⟨a₁, _ | ⟨a₀, _ | ⟨n₁, _ | ⟨n₀, _ | ⟨count, bytes⟩⟩⟩⟩⟩
    case cons.cons.cons.cons.cons =>
      rw [spelledBy?_writeMultipleRegisters]
      simp only [apply_ite (Option.map _), Option.map_some, Option.map_none]
    all_goals rfl
  | reportId =>
    simp only [readFields, pure_whole?]
    rcases fields with _ | ⟨b, rest⟩ <;> rfl
  | maskWriteRegister =>
    simp only [readFields, word_bind, pure_whole?]
    rcases fields with
      _ | ⟨a₁, _ | ⟨a₀, _ | ⟨x₁, _ | ⟨x₀, _ | ⟨o₁, _ | ⟨o₀, _ | ⟨b, rest⟩⟩⟩⟩⟩⟩⟩ <;> rfl
  | readWriteRegisters =>
    simp only [readFields, word_bind, map_whole?, words_whole?]
    rcases fields with _ | ⟨r₁, _ | ⟨r₀, _ | ⟨q₁, _ | ⟨q₀, _ | ⟨w₁, _ | ⟨w₀, _ | ⟨n₁, _ |
      ⟨n₀, _ | ⟨count, bytes⟩⟩⟩⟩⟩⟩⟩⟩⟩
    case cons.cons.cons.cons.cons.cons.cons.cons.cons =>
      rw [spelledBy?_readWriteRegisters]
      simp only [apply_ite (Option.map _), Option.map_some, Option.map_none]
    all_goals rfl
  | custom code =>
    rw [spelledBy?_custom]
    by_cases hcode : code < 0x80
    · simp only [readFields, if_pos hcode]
      rfl
    · simp only [readFields, if_neg hcode]
      rfl

/-- The reader accepts exactly the protocol data units that spell a request. -/
theorem toOption_ofPdu (pdu : List UInt8) : (ofPdu pdu).toOption = spelled? pdu := by
  rw [ofPdu, toOption_decode]
  rcases pdu with _ | ⟨code, fields⟩
  · rfl
  · have hread : reader.whole? (code :: fields) = (readFields (.ofCode code)).whole? fields := rfl
    rw [hread, readFields_whole?]
    rfl

end Request

end Modbus

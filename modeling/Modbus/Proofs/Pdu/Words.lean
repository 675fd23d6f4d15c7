import Mathlib.Algebra.Group.Nat.Defs
import Mathlib.Tactic.Common
import Modbus.Pdu.Words

/-! Words and coils survive their bytes. A word is the value of its two bytes in base 256, coil `i`
of packed coils is bit `i % 8` of byte `i / 8`, and unpacking packed coils gives them back with
coils that are off behind them, up to a whole number of bytes. -/

namespace Modbus

/-! ### Words -/

theorem toNat_wordOfBytes (hi lo : UInt8) :
    (wordOfBytes hi lo).toNat = 256 * hi.toNat + lo.toNat := by
  have hhi : hi.toNat < 256 := hi.toNat_lt
  have hlo : lo.toNat < 256 := lo.toNat_lt
  have hshift : hi.toNat <<< 8 % 65536 = hi.toNat <<< 8 := by
    rw [Nat.shiftLeft_eq]
    omega
  simp only [wordOfBytes, UInt16.toNat_or, UInt16.toNat_shiftLeft, UInt8.toNat_toUInt16]
  rw [show (8 : UInt16).toNat % 16 = 8 from rfl, hshift,
    ← Nat.shiftLeft_add_eq_or_of_lt (show lo.toNat < 2 ^ 8 from hlo), Nat.shiftLeft_eq]
  omega

theorem wordOfBytes_wordBytes (w : UInt16) : wordOfBytes (w >>> 8).toUInt8 w.toUInt8 = w := by
  apply UInt16.toNat_inj.mp
  have hw : w.toNat < 65536 := w.toNat_lt
  rw [toNat_wordOfBytes]
  simp only [UInt16.toNat_toUInt8, UInt16.toNat_shiftRight, Nat.shiftRight_eq_div_pow]
  rw [show (8 : UInt16).toNat % 16 = 8 from rfl]
  omega

theorem wordBytes_wordOfBytes (hi lo : UInt8) : wordBytes (wordOfBytes hi lo) = [hi, lo] := by
  have hw := toNat_wordOfBytes hi lo
  have hhi : hi.toNat < 256 := hi.toNat_lt
  have hlo : lo.toNat < 256 := lo.toNat_lt
  have h1 : (wordOfBytes hi lo >>> 8).toUInt8 = hi := by
    apply UInt8.toNat_inj.mp
    simp only [UInt16.toNat_toUInt8, UInt16.toNat_shiftRight, Nat.shiftRight_eq_div_pow, hw]
    rw [show (8 : UInt16).toNat % 16 = 8 from rfl]
    omega
  have h0 : (wordOfBytes hi lo).toUInt8 = lo := by
    apply UInt8.toNat_inj.mp
    simp only [UInt16.toNat_toUInt8, hw]
    omega
  rw [wordBytes, h1, h0]

theorem wordsBytes_cons (w : UInt16) (ws : List UInt16) :
    wordsBytes (w :: ws) = (w >>> 8).toUInt8 :: w.toUInt8 :: wordsBytes ws := rfl

@[simp] theorem wordsBytes_nil : wordsBytes [] = [] := rfl

@[simp] theorem wordsOfBytes_wordsBytes (ws : List UInt16) : wordsOfBytes (wordsBytes ws) = ws := by
  induction ws with
  | nil => rfl
  | cons w ws ih => rw [wordsBytes_cons, wordsOfBytes, ih, wordOfBytes_wordBytes]

theorem length_wordsOfBytes : ∀ bytes : List UInt8,
    (wordsOfBytes bytes).length = bytes.length / 2
  | [] => rfl
  | [_] => by simp [wordsOfBytes]
  | _ :: _ :: rest => by
    rw [wordsOfBytes, List.length_cons, length_wordsOfBytes rest]
    simp only [List.length_cons]
    omega

/-! ### Coils -/

@[simp] theorem length_unpackByte (b : UInt8) : (unpackByte b).length = 8 := by
  simp [unpackByte]

theorem unpackCoils_cons (b : UInt8) (bytes : List UInt8) :
    unpackCoils (b :: bytes) = unpackByte b ++ unpackCoils bytes := rfl

/-- Coil `i` of packed coils is bit `i % 8` of byte `i / 8`. -/
theorem getElem?_unpackCoils (bytes : List UInt8) (i : Nat) :
    (unpackCoils bytes)[i]? = bytes[i / 8]?.map (·.toNat.testBit (i % 8)) := by
  induction bytes generalizing i with
  | nil => rfl
  | cons b bytes ih =>
    rw [unpackCoils_cons]
    by_cases hi : i < 8
    · rw [List.getElem?_append_left (by simpa using hi), Nat.div_eq_of_lt hi, Nat.mod_eq_of_lt hi]
      simp [unpackByte, hi]
    · obtain ⟨j, rfl⟩ : ∃ j, i = j + 8 := ⟨i - 8, by omega⟩
      rw [List.getElem?_append_right (by simp), length_unpackByte, Nat.add_sub_cancel, ih,
        Nat.add_div_right _ (by decide), List.getElem?_cons_succ, Nat.add_mod_right]

/-- The value of a byte whose lowest bits are given, the first the lowest. -/
theorem toNat_packByte {b : Bool} {bits : List Bool} (h : bits.length ≤ 7) :
    (packByte (b :: bits)).toNat = 2 * (packByte bits).toNat + b.toNat ∧
      (packByte bits).toNat < 2 ^ bits.length := by
  induction bits generalizing b with
  | nil => cases b <;> decide
  | cons c bits ih =>
    obtain ⟨hval, hlt⟩ := ih (b := c) (by simp at h; omega)
    have hc : c.toNat ≤ 1 := Bool.toNat_le c
    have hb : b.toNat ≤ 1 := Bool.toNat_le b
    have hsmall : (packByte (c :: bits)).toNat < 2 ^ (bits.length + 1) := by
      rw [hval, Nat.pow_succ]
      omega
    have hpow : 2 ^ (bits.length + 1) ≤ 2 ^ 7 := Nat.pow_le_pow_right (by decide) h
    refine ⟨?_, hsmall⟩
    rw [packByte, UInt8.toNat_add, UInt8.toNat_mul, show (2 : UInt8).toNat = 2 from rfl,
      show b.toUInt8.toNat = b.toNat by cases b <;> rfl]
    omega

theorem testBit_packByte {bits : List Bool} (h : bits.length ≤ 8) (i : Nat) :
    (packByte bits).toNat.testBit i = bits.getD i false := by
  induction bits generalizing i with
  | nil => simp [packByte]
  | cons b bits ih =>
    rw [(toNat_packByte (Nat.le_of_succ_le_succ h)).1]
    cases i with
    | zero => cases b <;> simp [Nat.testBit_zero]
    | succ i =>
      rw [Nat.testBit_add_one, List.getD_cons_succ, ← ih (by simp at h; omega)]
      congr 1
      have := Bool.toNat_le b
      omega

/-- A byte gives its bits back, with bits that are off behind them. -/
theorem unpackByte_packByte {bits : List Bool} (h : bits.length ≤ 8) :
    unpackByte (packByte bits) = bits ++ List.replicate (8 - bits.length) false := by
  refine List.ext_getElem (by simp; omega) fun i h1 h2 => ?_
  simp only [unpackByte, List.getElem_map, List.getElem_range, testBit_packByte h]
  by_cases hi : i < bits.length
  · simp [List.getElem_append_left, hi]
  · rw [List.getElem_append_right (by omega), List.getElem_replicate]
    simp [hi]

/-- Packed coils come back with coils that are off behind them. -/
theorem unpackCoils_packCoils (coils : List Bool) :
    unpackCoils (packCoils coils) =
      coils ++ List.replicate (8 * packedSize coils.length - coils.length) false := by
  fun_induction packCoils coils with
  | case1 => rfl
  | case2 c rest ih =>
    have hfirst : (c :: rest.take 7).length ≤ 8 := by
      rw [List.length_cons, List.length_take]
      omega
    rw [unpackCoils_cons, ih, unpackByte_packByte hfirst]
    by_cases h : 7 ≤ rest.length
    · have hlen : (c :: rest.take 7).length = 8 := by simp [h]
      rw [hlen, List.length_drop, List.length_cons]
      simp only [Nat.sub_self, List.replicate_zero, List.append_nil, List.cons_append]
      rw [← List.append_assoc, List.take_append_drop]
      congr 3
      simp only [packedSize]
      omega
    · have hdrop : rest.drop 7 = [] := List.drop_eq_nil_of_le (by omega)
      have htake : rest.take 7 = rest := List.take_of_length_le (by omega)
      rw [hdrop, htake]
      simp only [List.length_nil, List.length_cons, packedSize, List.nil_append, List.append_assoc,
        List.replicate_append_replicate]
      congr 2
      omega

theorem take_unpackCoils_packCoils (coils : List Bool) :
    (unpackCoils (packCoils coils)).take coils.length = coils := by
  rw [unpackCoils_packCoils, List.take_left]

end Modbus

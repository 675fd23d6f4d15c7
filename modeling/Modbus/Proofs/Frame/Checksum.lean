import Modbus.Frame.Checksum
import Modbus.Proofs.Pdu.Words

/-! The checksum finds all damage within two adjacent bytes. A shift of the remainder is linear in
exclusive or and loses nothing, so two bytes are divided as the word that they make up, and bytes
with their own checksum behind them leave no remainder. -/

namespace Modbus

/-! ### Shifts -/

theorem and_one_eq_one_iff (c : UInt16) : c &&& 1 = 1 ↔ c.toBitVec.getLsbD 0 = true := by
  rw [← UInt16.toBitVec_inj, UInt16.toBitVec_and]
  have hone : (1 : UInt16).toBitVec = 1#16 := rfl
  rw [hone, BitVec.and_one_eq_setWidth_ofBool_getLsbD]
  cases c.toBitVec.getLsbD 0 <;> decide

theorem toBitVec_crcShift (c : UInt16) :
    (crcShift c).toBitVec =
      if c.toBitVec.getLsbD 0 then (c.toBitVec >>> 1) ^^^ 0xA001#16 else c.toBitVec >>> 1 := by
  unfold crcShift
  simp only [and_one_eq_one_iff]
  split
  · rw [UInt16.toBitVec_xor, UInt16.toBitVec_shiftRight]
    rfl
  · rw [UInt16.toBitVec_shiftRight]
    rfl

theorem crcShift_xor (a b : UInt16) : crcShift (a ^^^ b) = crcShift a ^^^ crcShift b := by
  apply UInt16.toBitVec_inj.mp
  simp only [UInt16.toBitVec_xor, toBitVec_crcShift, BitVec.getLsbD_xor,
    BitVec.ushiftRight_xor_distrib]
  cases a.toBitVec.getLsbD 0 <;> cases b.toBitVec.getLsbD 0
  all_goals simp only [Bool.xor_false, Bool.xor_true, Bool.not_false, Bool.not_true,
    Bool.false_eq_true, if_true, if_false]
  · rw [BitVec.xor_assoc]
  · rw [BitVec.xor_assoc, BitVec.xor_assoc, BitVec.xor_comm _ 0xA001#16]
  · rw [BitVec.xor_assoc, BitVec.xor_comm (b.toBitVec >>> 1), ← BitVec.xor_assoc 0xA001#16,
      BitVec.xor_self, BitVec.zero_xor]

/-- No remainder but nothing is shifted to nothing. -/
theorem eq_zero_of_crcShift (c : UInt16) (h : crcShift c = 0) : c = 0 := by
  have hhalf : (c >>> 1).toNat = c.toNat / 2 := by
    rw [UInt16.toNat_shiftRight, Nat.shiftRight_eq_div_pow]
    rfl
  have hc : c.toNat < 65536 := c.toNat_lt
  rw [crcShift] at h
  split at h
  · have hodd : c >>> 1 = 0xA001 := UInt16.xor_eq_zero_iff.mp h
    rw [hodd] at hhalf
    have hbig : (0xA001 : UInt16).toNat = 40961 := rfl
    omega
  · rename_i heven
    rw [h] at hhalf
    have hzero : (0 : UInt16).toNat = 0 := rfl
    by_cases hone : c.toNat = 1
    · have hc1 : c = 1 := UInt16.toNat_inj.mp hone
      rw [hc1] at heven
      exact (heven rfl).elim
    · apply UInt16.toNat_inj.mp
      omega

theorem crcShift_injective {a b : UInt16} (h : crcShift a = crcShift b) : a = b := by
  apply UInt16.xor_eq_zero_iff.mp
  apply eq_zero_of_crcShift
  rw [crcShift_xor, h, UInt16.xor_self]

theorem repeat_crcShift_xor (n : Nat) (a b : UInt16) :
    Nat.repeat crcShift n (a ^^^ b) = Nat.repeat crcShift n a ^^^ Nat.repeat crcShift n b := by
  induction n with
  | zero => rfl
  | succ n ih => rw [Nat.repeat, ih, crcShift_xor, Nat.repeat, Nat.repeat]

theorem repeat_crcShift_injective (n : Nat) {a b : UInt16}
    (h : Nat.repeat crcShift n a = Nat.repeat crcShift n b) : a = b := by
  induction n with
  | zero => exact h
  | succ n ih => exact ih (crcShift_injective h)

theorem repeat_crcShift_zero (n : Nat) : Nat.repeat crcShift n 0 = 0 := by
  induction n with
  | zero => rfl
  | succ n ih => rw [Nat.repeat, ih]; rfl

/-- The high byte of a word is the low byte after eight shifts. -/
theorem repeat_crcShift_high (b : UInt8) :
    Nat.repeat crcShift 8 (b.toUInt16 <<< 8) = b.toUInt16 := by
  have hall : ∀ n : Fin 256, Nat.repeat crcShift 8 ((UInt8.ofFin n).toUInt16 <<< 8) =
      (UInt8.ofFin n).toUInt16 := by decide +kernel
  exact hall b.toFin

/-! ### Two bytes -/

theorem wordOfBytes_eq_xor (hi lo : UInt8) :
    wordOfBytes hi lo = lo.toUInt16 ^^^ (hi.toUInt16 <<< 8) := by
  apply UInt16.toBitVec_inj.mp
  apply BitVec.eq_of_getLsbD_eq
  intro i hi
  have hsize : 8 ≤ i → lo.toBitVec.getLsbD i = false := fun h => BitVec.getLsbD_of_ge _ _ h
  simp only [wordOfBytes, UInt16.toBitVec_or, UInt16.toBitVec_xor, UInt16.toBitVec_shiftLeft,
    UInt8.toBitVec_toUInt16, BitVec.getLsbD_or, BitVec.getLsbD_xor]
  rw [show (8 : UInt16).toBitVec = 8#16 from rfl]
  by_cases h : i < 8
  · simp [hi, h]
  · simp [hi, h, hsize (Nat.le_of_not_lt h)]

/-- Two bytes are divided as the word that they make up, the second byte being the high one. -/
theorem crcByte_crcByte (c : UInt16) (x y : UInt8) :
    crcByte (crcByte c x) y = Nat.repeat crcShift 16 (c ^^^ wordOfBytes y x) := by
  calc crcByte (crcByte c x) y
    _ = Nat.repeat crcShift 8 (Nat.repeat crcShift 8 (c ^^^ x.toUInt16) ^^^ y.toUInt16) := rfl
    _ = Nat.repeat crcShift 8 (Nat.repeat crcShift 8 (c ^^^ x.toUInt16) ^^^
          Nat.repeat crcShift 8 (y.toUInt16 <<< 8)) := by rw [repeat_crcShift_high]
    _ = Nat.repeat crcShift 8 (Nat.repeat crcShift 8 (c ^^^ wordOfBytes y x)) := by
      rw [← repeat_crcShift_xor, UInt16.xor_assoc, ← wordOfBytes_eq_xor]
    _ = Nat.repeat crcShift 16 (c ^^^ wordOfBytes y x) := rfl

theorem wordOfBytes_injective {hi lo hi' lo' : UInt8} (h : wordOfBytes hi lo = wordOfBytes hi' lo') :
    hi = hi' ∧ lo = lo' := by
  have hbytes := congrArg wordBytes h
  rw [wordBytes_wordOfBytes, wordBytes_wordOfBytes] at hbytes
  simpa using hbytes

/-! ### Whole frames -/

theorem crc_append (bytes more : List UInt8) :
    crc (bytes ++ more) = more.foldl crcByte (crc bytes) := by
  rw [crc, List.foldl_append, ← crc]

theorem crcByte_injective {a b : UInt16} {x : UInt8} (h : crcByte a x = crcByte b x) : a = b := by
  exact (UInt16.xor_left_inj x.toUInt16).mp (repeat_crcShift_injective 8 h)

theorem foldl_crcByte_injective {bytes : List UInt8} {a b : UInt16}
    (h : bytes.foldl crcByte a = bytes.foldl crcByte b) : a = b := by
  induction bytes generalizing a b with
  | nil => exact h
  | cons x rest ih => exact crcByte_injective (ih h)

/-- Of bytes with the same remainder that differ in two adjacent places at most, there is one. -/
theorem eq_of_crc_eq {front back : List UInt8} {x y x' y' : UInt8}
    (h : crc (front ++ x :: y :: back) = crc (front ++ x' :: y' :: back)) : x = x' ∧ y = y' := by
  simp only [crc_append, List.foldl_cons] at h
  have hpair := foldl_crcByte_injective h
  rw [crcByte_crcByte, crcByte_crcByte] at hpair
  have hword := (UInt16.xor_right_inj _).mp (repeat_crcShift_injective 16 hpair)
  obtain ⟨hy, hx⟩ := wordOfBytes_injective hword
  exact ⟨hx, hy⟩

theorem swapBytes_wordOfBytes (hi lo : UInt8) :
    swapBytes (wordOfBytes hi lo) = wordOfBytes lo hi := by
  have hhi : hi.toNat < 256 := hi.toNat_lt
  have hlo : lo.toNat < 256 := lo.toNat_lt
  have hup : wordOfBytes hi lo <<< 8 = lo.toUInt16 <<< 8 := by
    apply UInt16.toNat_inj.mp
    simp only [UInt16.toNat_shiftLeft, toNat_wordOfBytes, UInt8.toNat_toUInt16, Nat.shiftLeft_eq]
    rw [show (8 : UInt16).toNat % 16 = 8 from rfl]
    omega
  have hdown : wordOfBytes hi lo >>> 8 = hi.toUInt16 := by
    apply UInt16.toNat_inj.mp
    simp only [UInt16.toNat_shiftRight, toNat_wordOfBytes, UInt8.toNat_toUInt16,
      Nat.shiftRight_eq_div_pow]
    rw [show (8 : UInt16).toNat % 16 = 8 from rfl]
    omega
  rw [swapBytes, hup, hdown, wordOfBytes]

theorem swapBytes_swapBytes (w : UInt16) : swapBytes (swapBytes w) = w := by
  rw [← wordOfBytes_wordBytes w, swapBytes_wordOfBytes, swapBytes_wordOfBytes]

/-- Bytes leave no remainder together with their checksum, and with no other. -/
theorem crc_append_eq_zero_iff {bytes : List UInt8} {hi lo : UInt8} :
    crc (bytes ++ [hi, lo]) = 0 ↔ checksum bytes = wordOfBytes hi lo := by
  have hpair : crc (bytes ++ [hi, lo]) =
      Nat.repeat crcShift 16 (crc bytes ^^^ wordOfBytes lo hi) := by
    rw [crc_append, List.foldl_cons, List.foldl_cons, List.foldl_nil, crcByte_crcByte]
  rw [hpair, checksum]
  constructor
  · intro h
    rw [← repeat_crcShift_zero 16] at h
    have hsame := UInt16.xor_eq_zero_iff.mp (repeat_crcShift_injective 16 h)
    rw [hsame, swapBytes_wordOfBytes]
  · intro h
    have hsame : crc bytes = wordOfBytes lo hi := by
      rw [← swapBytes_swapBytes (crc bytes), h, swapBytes_wordOfBytes]
    rw [hsame, UInt16.xor_self, repeat_crcShift_zero]

/-- Bytes that are damaged within two adjacent places, their checksum among them, do not have the
checksum that is behind them. -/
theorem checksum_ne_of_damaged {bytes bytes' front back : List UInt8} {hi lo hi' lo' x y x' y' : UInt8}
    (hsum : checksum bytes = wordOfBytes hi lo)
    (hbytes : bytes ++ [hi, lo] = front ++ x :: y :: back)
    (hbytes' : bytes' ++ [hi', lo'] = front ++ x' :: y' :: back)
    (hne : bytes' ++ [hi', lo'] ≠ bytes ++ [hi, lo]) : checksum bytes' ≠ wordOfBytes hi' lo' := by
  intro hsum'
  have hzero := crc_append_eq_zero_iff.mpr hsum
  have hzero' := crc_append_eq_zero_iff.mpr hsum'
  rw [hbytes] at hzero
  rw [hbytes'] at hzero'
  obtain ⟨rfl, rfl⟩ := eq_of_crc_eq (hzero.trans hzero'.symm)
  exact hne (hbytes'.trans hbytes.symm)

end Modbus

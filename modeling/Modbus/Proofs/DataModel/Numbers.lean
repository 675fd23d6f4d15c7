import Mathlib.Tactic.Ring
import Modbus.Proofs.DataModel.Relay
import Modbus.Proofs.Frame.Checksum

/-! Numbers in registers. The words of a number are its digits in base 65536, so that a number and
its words determine each other; an order moves the bytes of these words, and moving them twice
leaves them where they were. Hence numbers of every type come back from the registers that hold
them, one after the other and through a data map, in each of the four orders. -/

namespace Modbus

/-! ### Digits -/

theorem foldl_joinWords (ws : List UInt16) (v : Nat) :
    ws.foldl (fun v w => 65536 * v + w.toNat) v = v * 65536 ^ ws.length + joinWords ws := by
  unfold joinWords
  induction ws generalizing v with
  | nil => simp
  | cons w ws ih =>
    rw [List.foldl_cons, List.foldl_cons, ih (65536 * v + w.toNat), ih (65536 * 0 + w.toNat),
      List.length_cons]
    ring

theorem joinWords_cons (w : UInt16) (ws : List UInt16) :
    joinWords (w :: ws) = w.toNat * 65536 ^ ws.length + joinWords ws := by
  rw [joinWords, List.foldl_cons, foldl_joinWords, Nat.mul_zero, Nat.zero_add]

theorem joinWords_lt (ws : List UInt16) : joinWords ws < 65536 ^ ws.length := by
  induction ws with
  | nil => decide
  | cons w ws ih =>
    have hw : w.toNat < 65536 := w.toNat_lt
    calc joinWords (w :: ws) = w.toNat * 65536 ^ ws.length + joinWords ws := joinWords_cons w ws
      _ < w.toNat * 65536 ^ ws.length + 65536 ^ ws.length := Nat.add_lt_add_left ih _
      _ = (w.toNat + 1) * 65536 ^ ws.length := by ring
      _ ≤ 65536 * 65536 ^ ws.length := Nat.mul_le_mul_right _ hw
      _ = 65536 ^ (w :: ws).length := by rw [List.length_cons, pow_succ, Nat.mul_comm]

theorem two_pow_words (n : Nat) : 2 ^ (16 * n) = 65536 ^ n := by
  rw [pow_mul]
  rfl

theorem joinWords_digitWords (n v : Nat) : joinWords (digitWords n v) = v % 65536 ^ n := by
  induction n with
  | zero => simp [digitWords, joinWords, Nat.mod_one]
  | succ n ih =>
    rw [digitWords, joinWords_cons, length_digitWords, ih, UInt16.toNat_ofNat',
      Nat.shiftRight_eq_div_pow, two_pow_words, Nat.mod_pow_succ (x := v), Nat.mul_comm,
      Nat.add_comm]

/-- Digits above those that are asked for do not matter. -/
theorem digitWords_joinWords (ws : List UInt16) (v : Nat) :
    digitWords ws.length (v * 65536 ^ ws.length + joinWords ws) = ws := by
  induction ws generalizing v with
  | nil => rfl
  | cons w ws ih =>
    have hw : w.toNat < 65536 := w.toNat_lt
    have hval : v * 65536 ^ (w :: ws).length + joinWords (w :: ws) =
        (v * 65536 + w.toNat) * 65536 ^ ws.length + joinWords ws := by
      rw [joinWords_cons, List.length_cons]
      ring
    have hhead : ((v * 65536 + w.toNat) * 65536 ^ ws.length + joinWords ws) >>>
        (16 * ws.length) = v * 65536 + w.toNat := by
      rw [Nat.shiftRight_eq_div_pow, two_pow_words, Nat.mul_comm,
        Nat.mul_add_div (Nat.pow_pos (by decide)), Nat.div_eq_of_lt (joinWords_lt ws),
        Nat.add_zero]
    rw [hval, List.length_cons, digitWords, hhead, ih]
    congr 1
    apply UInt16.toNat_inj.mp
    rw [UInt16.toNat_ofNat']
    omega

theorem getElem?_digitWords {n i : Nat} (v : Nat) (h : i < n) :
    (digitWords n v)[i]? = some (UInt16.ofNat (v >>> (16 * (n - 1 - i)))) := by
  induction n generalizing i with
  | zero => omega
  | succ n ih =>
    cases i with
    | zero => rfl
    | succ i =>
      rw [digitWords, List.getElem?_cons_succ, ih (by omega)]
      congr 4
      omega

/-! ### The bytes of words -/

theorem getElem?_wordsBytes (ws : List UInt16) (i : Nat) :
    (wordsBytes ws)[i]? = ws[i / 2]?.bind fun w => (wordBytes w)[i % 2]? := by
  induction ws generalizing i with
  | nil => rfl
  | cons w ws ih =>
    rw [wordsBytes_cons]
    match i with
    | 0 => rfl
    | 1 => rfl
    | i + 2 =>
      rw [List.getElem?_cons_succ, List.getElem?_cons_succ, ih, Nat.add_div_right _ (by decide),
        List.getElem?_cons_succ, Nat.add_mod_right]

theorem getElem?_wordBytes (w : UInt16) {i : Nat} (h : i < 2) :
    (wordBytes w)[i]? = some (UInt8.ofNat (w.toNat >>> (8 * (1 - i)))) := by
  have hw : w.toNat < 65536 := w.toNat_lt
  match i with
  | 0 =>
    refine congrArg some (UInt8.toNat_inj.mp ?_)
    simp [UInt16.toNat_shiftRight]
  | 1 =>
    refine congrArg some (UInt8.toNat_inj.mp ?_)
    simp

theorem wordBytes_swapBytes (w : UInt16) : wordBytes (swapBytes w) = (wordBytes w).reverse := by
  rw [← wordOfBytes_wordBytes w, swapBytes_wordOfBytes, wordBytes_wordOfBytes,
    wordBytes_wordOfBytes]
  rfl

/-! ### Orders -/

namespace ByteOrder

/-- The place of a byte among those of `n` words in the order `abcd`, if another order puts it at
place `i`. -/
def place (o : ByteOrder) (n i : Nat) : Nat :=
  match o with
  | abcd => i
  | cdab => 2 * (n - 1 - i / 2) + i % 2
  | badc => 2 * (i / 2) + (1 - i % 2)
  | dcba => 2 * n - 1 - i

theorem getElem?_arrange (o : ByteOrder) {ws : List UInt16} {i : Nat} (h : i < 2 * ws.length) :
    (wordsBytes (o.arrange ws))[i]? = (wordsBytes ws)[o.place ws.length i]? := by
  have hflip : ∀ w : UInt16, (wordBytes (swapBytes w))[i % 2]? = (wordBytes w)[1 - i % 2]? := by
    intro w
    rw [wordBytes_swapBytes, List.getElem?_reverse (by simp; omega)]
    rfl
  rw [getElem?_wordsBytes, getElem?_wordsBytes]
  cases o with
  | abcd => rfl
  | cdab =>
    have hdiv : place .cdab ws.length i / 2 = ws.length - 1 - i / 2 := by
      simp only [place]
      omega
    have hmod : place .cdab ws.length i % 2 = i % 2 := by
      simp only [place]
      omega
    rw [hdiv, hmod, arrange, List.getElem?_reverse (by omega)]
  | badc =>
    have hdiv : place .badc ws.length i / 2 = i / 2 := by
      simp only [place]
      omega
    have hmod : place .badc ws.length i % 2 = 1 - i % 2 := by
      simp only [place]
      omega
    rw [hdiv, hmod, arrange, List.getElem?_map]
    cases ws[i / 2]? with
    | none => rfl
    | some w => exact hflip w
  | dcba =>
    have hdiv : place .dcba ws.length i / 2 = ws.length - 1 - i / 2 := by
      simp only [place]
      omega
    have hmod : place .dcba ws.length i % 2 = 1 - i % 2 := by
      simp only [place]
      omega
    rw [hdiv, hmod, arrange, List.getElem?_reverse (by simp; omega), List.length_map,
      List.getElem?_map]
    cases ws[ws.length - 1 - i / 2]? with
    | none => rfl
    | some w => exact hflip w

@[simp] theorem arrange_arrange (o : ByteOrder) (ws : List UInt16) :
    o.arrange (o.arrange ws) = ws := by
  cases o <;> simp [arrange, Function.comp_def, swapBytes_swapBytes]

theorem badc_arrange_cdab (ws : List UInt16) :
    badc.arrange (cdab.arrange ws) = dcba.arrange ws := List.map_reverse

end ByteOrder

/-! ### Numbers and their words -/

namespace Number

variable {t : NumberType}

theorem registers_pos (t : NumberType) : 0 < t.registers := by cases t <;> decide

theorem registers_lt (t : NumberType) : t.registers < 65536 := by cases t <;> decide

/-- Byte `i` of a number, the highest first. -/
def byte (x : Number t) (i : Nat) : UInt8 :=
  UInt8.ofNat (x.bits.toNat >>> (8 * (t.size - 1 - i)))

@[simp] theorem length_words (x : Number t) : x.words.length = t.registers := length_digitWords ..

@[simp] theorem ofWords_words (x : Number t) : ofWords x.words = x := by
  obtain ⟨bits⟩ := x
  rw [ofWords, words, joinWords_digitWords, ← two_pow_words, Nat.mod_eq_of_lt bits.isLt,
    BitVec.ofNat_toNat, BitVec.setWidth_eq]

theorem words_ofWords {ws : List UInt16} (h : ws.length = t.registers) :
    (ofWords ws : Number t).words = ws := by
  have hlt : joinWords ws < 2 ^ (16 * t.registers) := by
    rw [two_pow_words, ← h]
    exact joinWords_lt ws
  have hdigits := digitWords_joinWords ws 0
  rw [Nat.zero_mul, Nat.zero_add, h] at hdigits
  rw [words, ofWords, BitVec.toNat_ofNat, Nat.mod_eq_of_lt hlt, hdigits]

theorem getElem?_wordsBytes_words (x : Number t) {i : Nat} (h : i < t.size) :
    (wordsBytes x.words)[i]? = some (x.byte i) := by
  unfold NumberType.size at h
  rw [getElem?_wordsBytes, words, getElem?_digitWords _ (by omega), Option.bind_some,
    getElem?_wordBytes _ (Nat.mod_lt i (by decide)), byte, NumberType.size]
  congr 1
  apply UInt8.toNat_inj.mp
  have hshift : 8 * (2 * t.registers - 1 - i) =
      16 * (t.registers - 1 - i / 2) + 8 * (1 - i % 2) := by omega
  rw [hshift, Nat.shiftRight_add]
  generalize x.bits.toNat >>> (16 * (t.registers - 1 - i / 2)) = v
  rw [UInt8.toNat_ofNat', UInt8.toNat_ofNat', UInt16.toNat_ofNat', Nat.shiftRight_eq_div_pow,
    Nat.shiftRight_eq_div_pow]
  rcases Nat.mod_two_eq_zero_or_one i with hi | hi
  · rw [hi]
    omega
  · rw [hi]
    omega

/-- The bytes of the registers that hold a number are those of the number, each where the order
puts it. -/
theorem wordsBytes_toRegisters (o : ByteOrder) (x : Number t) :
    wordsBytes (x.toRegisters o) =
      (List.range t.size).map fun i => x.byte (o.place t.registers i) := by
  apply List.ext_getElem?
  intro i
  by_cases hi : i < t.size
  · have hplace : o.place t.registers i < t.size := by
      unfold NumberType.size at hi ⊢
      cases o <;> simp only [ByteOrder.place] <;> omega
    rw [toRegisters, ByteOrder.getElem?_arrange o (by rw [length_words]; exact hi), length_words,
      getElem?_wordsBytes_words x hplace]
    simp [hi]
  · rw [List.getElem?_eq_none, List.getElem?_eq_none]
    · simpa using hi
    · simpa [NumberType.size] using hi

/-! ### Other orders -/

theorem words_swap (o : ByteOrder) (x : Number t) : (x.swap o).words = o.arrange x.words :=
  words_ofWords (by simp)

theorem toRegisters_swap (o o' : ByteOrder) (x : Number t) :
    (x.swap o).toRegisters o' = o'.arrange (x.toRegisters o) := by
  rw [toRegisters, words_swap, toRegisters]

theorem swap_swap (o : ByteOrder) (x : Number t) : (x.swap o).swap o = x := by
  rw [swap, words_swap, ByteOrder.arrange_arrange, ofWords_words]

theorem swap_badc_swap_cdab (x : Number t) : (x.swap .cdab).swap .badc = x.swap .dcba := by
  rw [swap, words_swap, ByteOrder.badc_arrange_cdab, ← swap]

/-- The order in which words and their bytes are exchanged does not matter. -/
theorem swap_cdab_swap_badc (x : Number t) : (x.swap .badc).swap .cdab = x.swap .dcba := by
  rw [swap, words_swap]
  rfl

theorem ofRegisters?_toRegisters (o : ByteOrder) (x : Number t) :
    ofRegisters? o (x.toRegisters o) = some x := by
  rw [ofRegisters?, if_pos (length_toRegisters o x), toRegisters, ByteOrder.arrange_arrange,
    ofWords_words]

/-! ### Numbers one after the other -/

theorem arrayOfRegisters_append (o : ByteOrder) {ws : List UInt16} (rest : List UInt16)
    (h : ws.length = t.registers) :
    (arrayOfRegisters o (ws ++ rest) : List (Number t)) =
      ofWords (o.arrange ws) :: arrayOfRegisters o rest := by
  rw [arrayOfRegisters, dif_pos (by simp [h]), ← h, List.take_left, List.drop_left]

theorem arrayOfRegisters_arrayRegisters (o : ByteOrder) (xs : List (Number t)) :
    arrayOfRegisters o (arrayRegisters o xs) = xs := by
  induction xs with
  | nil =>
    have hpos := registers_pos t
    rw [arrayRegisters, List.flatMap_nil, arrayOfRegisters, dif_neg (by simp; omega)]
  | cons x xs ih =>
    rw [arrayRegisters, List.flatMap_cons, arrayOfRegisters_append o _ (length_toRegisters o x),
      ← arrayRegisters, ih, toRegisters, ByteOrder.arrange_arrange, ofWords_words]

@[simp] theorem length_arrayRegisters (o : ByteOrder) (xs : List (Number t)) :
    (arrayRegisters o xs).length = xs.length * t.registers := by
  induction xs with
  | nil => simp [arrayRegisters]
  | cons x xs ih =>
    rw [arrayRegisters, List.flatMap_cons, List.length_append, length_toRegisters,
      ← arrayRegisters, ih, List.length_cons]
    ring

/-- Only registers that do not make up a whole number are lost. -/
theorem arrayRegisters_arrayOfRegisters (o : ByteOrder) (ws : List UInt16)
    (h : t.registers ∣ ws.length) :
    arrayRegisters o (arrayOfRegisters o ws : List (Number t)) = ws := by
  have hpos := registers_pos t
  fun_induction arrayOfRegisters (t := t) o ws with
  | case1 ws hle ih =>
    have hfirst : (ws.take t.registers).length = t.registers := by
      rw [List.length_take]
      omega
    have hrest : t.registers ∣ (ws.drop t.registers).length := by
      rw [List.length_drop]
      exact Nat.dvd_sub h (Nat.dvd_refl _)
    rw [arrayRegisters, List.flatMap_cons, ← arrayRegisters, ih hrest, toRegisters,
      words_ofWords (by simpa using hfirst), ByteOrder.arrange_arrange, List.take_append_drop]
  | case2 ws hlt =>
    have hzero : ws.length = 0 := Nat.eq_zero_of_dvd_of_lt h (by omega)
    rw [List.length_eq_zero_iff.mp hzero]
    rfl

end Number

/-! ### Numbers in a data map -/

open RangeFault (toAnswer)

theorem RangeFault.eq_ok_of_toAnswer {α : Type} {r : Except RangeFault α} {y : α}
    (h : toAnswer r = .ok y) : r = .ok y := by
  cases r with
  | error e => cases h
  | ok z =>
    cases h
    rfl

theorem Bank.holds_put {α : Type} (b : Bank α) (a : Nat) (vs : List α) :
    (b.put a vs).Holds a vs.length := by
  intro i hi
  rw [put, if_pos (by omega), List.getElem?_eq_getElem (by omega)]
  rfl

namespace DataModel

variable {t : Table} {a : Nat} {vs : List UInt16}

@[simp] theorem bits_putRegisters (m : DataModel) : (m.putRegisters t a vs).bits = m.bits := by
  cases t <;> rfl

theorem registers_putRegisters (m : DataModel) (h : t.isBits = false) :
    (m.putRegisters t a vs).registers t = (m.registers t).put a vs := by
  cases t <;> first | rfl | cases h

theorem registers_putRegisters_of_ne (m : DataModel) {t' : Table} (h : t' ≠ t) :
    (m.putRegisters t a vs).registers t' = m.registers t' := by
  cases t <;> cases t' <;> first | rfl | exact absurd rfl h

/-- There are no registers in a table of bits. -/
theorem isBits_of_holds {m : DataModel} {n : Nat} (hn : 0 < n)
    (h : (m.registers t).Holds a n) : t.isBits = false := by
  cases hb : t.isBits with
  | false => rfl
  | true =>
    have hfirst := h 0 hn
    cases t <;> simp [registers, Bank.empty, Table.isBits] at hfirst hb

end DataModel

namespace DataMap

variable {m : DataMap} {t : Table} {a : UInt16} {n : NumberType} {o : ByteOrder}

theorem answer_readNumber :
    toAnswer (m.readNumber t a n o) =
      if (m.model.registers t).Holds a.toNat n.registers then
        .ok (Number.ofWords (o.arrange ((m.model.registers t).cells a.toNat n.registers)))
      else .error .illegalDataAddress := by
  have hread := answer_readRegisters (m := m) (t := t) (a := a) (Number.registers_pos n)
    (Number.registers_lt n)
  unfold readNumber
  by_cases h : (m.model.registers t).Holds a.toNat n.registers
  · rw [if_pos h] at hread ⊢
    cases hws : m.readRegisters t a n.registers with
    | error e =>
      rw [hws] at hread
      cases hread
    | ok ws =>
      rw [hws] at hread
      cases hread
      simp only [bind, Except.bind, Number.ofRegisters?, Bank.length_cells h, if_pos]
      rfl
  · rw [if_neg h] at hread ⊢
    cases hws : m.readRegisters t a n.registers with
    | error e => rfl
    | ok ws =>
      rw [hws] at hread
      cases hread

theorem answer_writeNumber_of_not_holds {x : Number n}
    (h : ¬ (m.model.registers t).Holds a.toNat n.registers) :
    toAnswer (m.writeNumber t a o x) = .error .illegalDataAddress := by
  rw [writeNumber]
  apply answer_writeRegisters_of_not_holds
  · rw [Number.length_toRegisters]
    exact Number.registers_pos n
  · rw [Number.length_toRegisters]
    exact Number.registers_lt n
  · rwa [Number.length_toRegisters]

theorem writeNumber_of_holds (x : Number n)
    (h : (m.model.registers t).Holds a.toNat n.registers) :
    ∃ m', m.writeNumber t a o x = .ok m' ∧
      m'.model = m.model.putRegisters t a.toNat (x.toRegisters o) ∧ m'.shape = m.shape := by
  rw [writeNumber]
  apply writeRegisters_of_holds
  · rw [Number.length_toRegisters]
    exact Number.registers_pos n
  · rw [Number.length_toRegisters]
    exact Number.registers_lt n
  · rwa [Number.length_toRegisters]

theorem answer_readNumber_putRegisters {m' : DataMap} {x : Number n}
    (h : (m.model.registers t).Holds a.toNat n.registers)
    (hm : m'.model = m.model.putRegisters t a.toNat (x.toRegisters o)) :
    toAnswer (m'.readNumber t a n o) = .ok x := by
  have hbits := DataModel.isBits_of_holds (Number.registers_pos n) h
  have hput : m'.model.registers t = (m.model.registers t).put a.toNat (x.toRegisters o) := by
    rw [hm, DataModel.registers_putRegisters _ hbits]
  have hheld := Bank.holds_put (m.model.registers t) a.toNat (x.toRegisters o)
  have hcells := Bank.cells_put (m.model.registers t) a.toNat (x.toRegisters o)
  rw [Number.length_toRegisters] at hheld hcells
  rw [answer_readNumber, hput, if_pos hheld, hcells, Number.toRegisters,
    ByteOrder.arrange_arrange, Number.ofWords_words]

/-- What becomes of a number that is stored in a map. -/
structure Stores (m : DataMap) (t : Table) (a : UInt16) (o : ByteOrder) {n : NumberType}
    (x : Number n) : Prop where
  /-- Where the registers are in the block the number comes back, and no other cell and no block
  is changed. -/
  comes_back : (m.model.registers t).Holds a.toNat n.registers →
    ∃ m', m.writeNumber t a o x = .ok m' ∧ m'.readNumber t a n o = .ok x ∧
      m'.shape = m.shape ∧ m'.model.bits = m.model.bits ∧
      ∀ t' i, t' ≠ t ∨ i < a.toNat ∨ a.toNat + n.registers ≤ i →
        m'.model.registers t' i = m.model.registers t' i
  /-- Everywhere else it cannot be written. -/
  write_refused : toAnswer (m.writeNumber t a o x) = .error .illegalDataAddress ↔
    ¬ (m.model.registers t).Holds a.toNat n.registers
  /-- And nowhere else it cannot be read. -/
  read_refused : toAnswer (m.readNumber t a n o) = .error .illegalDataAddress ↔
    ¬ (m.model.registers t).Holds a.toNat n.registers

theorem stores (m : DataMap) (t : Table) (a : UInt16) (o : ByteOrder) (x : Number n) :
    m.Stores t a o x where
  comes_back h := by
    obtain ⟨m', hwrite, hmodel, hshape⟩ := writeNumber_of_holds (o := o) x h
    have hread := answer_readNumber_putRegisters h hmodel
    refine ⟨m', hwrite, RangeFault.eq_ok_of_toAnswer hread, hshape, ?_, ?_⟩
    · rw [hmodel, DataModel.bits_putRegisters]
    · intro t' i hi
      rw [hmodel]
      by_cases ht : t' = t
      · have hbits := DataModel.isBits_of_holds (Number.registers_pos n) h
        subst ht
        rw [DataModel.registers_putRegisters _ hbits, Bank.put, if_neg]
        rw [Number.length_toRegisters]
        simp only [ne_eq, not_true_eq_false, false_or] at hi
        omega
      · rw [DataModel.registers_putRegisters_of_ne _ ht]
  write_refused := by
    constructor
    · intro hfail h
      obtain ⟨m', hwrite, -⟩ := writeNumber_of_holds (o := o) x h
      rw [hwrite] at hfail
      cases hfail
    · exact answer_writeNumber_of_not_holds
  read_refused := by
    rw [answer_readNumber]
    split <;> simp_all

end DataMap

namespace Number

/-- How a number lies in registers, and what the other orders make of it. -/
structure LiesIn {t : NumberType} (x : Number t) (o : ByteOrder) : Prop where
  bytes : wordsBytes (x.toRegisters o) =
    (List.range t.size).map fun i => x.byte (o.place t.registers i)
  comes_back : ofRegisters? o (x.toRegisters o) = some x
  swapped : x.toRegisters o = (x.swap o).toRegisters .abcd
  swapped_back : (x.swap o).swap o = x
  words_first : (x.swap .cdab).swap .badc = x.swap .dcba
  bytes_first : (x.swap .badc).swap .cdab = x.swap .dcba

theorem liesIn {t : NumberType} (x : Number t) (o : ByteOrder) : x.LiesIn o where
  bytes := wordsBytes_toRegisters o x
  comes_back := ofRegisters?_toRegisters o x
  swapped := (toRegisters_swap o .abcd x).symm
  swapped_back := swap_swap o x
  words_first := swap_badc_swap_cdab x
  bytes_first := swap_cdab_swap_badc x

/-- Numbers survive registers: those that lie one after the other come back, and so do the
registers of whole numbers; the orders are moves of bytes that undo themselves; and a number that
is written to a data map is read back, unless its registers are not all there. -/
theorem survives_registers (t : NumberType) (o : ByteOrder) :
    (∀ xs : List (Number t), arrayOfRegisters o (arrayRegisters o xs) = xs) ∧
    (∀ ws : List UInt16, t.registers ∣ ws.length →
      (arrayOfRegisters o ws : List (Number t)).length * t.registers = ws.length ∧
      arrayRegisters o (arrayOfRegisters o ws : List (Number t)) = ws) ∧
    (∀ x : Number t, x.LiesIn o) ∧
    (∀ (m : DataMap) (table : Table) (a : UInt16) (x : Number t), m.Stores table a o x) := by
  refine ⟨arrayOfRegisters_arrayRegisters o, ?_, fun x => x.liesIn o, ?_⟩
  · intro ws h
    have hback := arrayRegisters_arrayOfRegisters (t := t) o ws h
    refine ⟨?_, hback⟩
    rw [← length_arrayRegisters o, hback]
  · intro m table a x
    exact m.stores table a o x

/-- Two numbers of four words each, and one of them in the middle of a block. -/
theorem survives_registers_u64 :
    let ws : List UInt16 := [1, 2, 3, 4, 5, 6, 7, 8]
    let m : DataMap := { DataMap.empty with holdingRegisters := some (.filled 10 6 9) }
    let x : Number .u64 := ⟨0x0102030405060708⟩
    (NumberType.u64.registers ∣ ws.length ∧
      arrayRegisters .cdab (arrayOfRegisters .cdab ws : List (Number .u64)) = ws) ∧
    (m.model.registers .holdingRegister).Holds 11 NumberType.u64.registers ∧
      ∃ m', m.writeNumber .holdingRegister 11 .cdab x = .ok m' ∧
        m'.readNumber .holdingRegister 11 .u64 .cdab = .ok x := by
  intro ws m x
  obtain ⟨-, harrays, -, hmaps⟩ := survives_registers .u64 .cdab
  have hdvd : NumberType.u64.registers ∣ ws.length := by decide
  have hholds : (m.model.registers .holdingRegister).Holds 11 NumberType.u64.registers := by decide
  obtain ⟨m', hwrite, hread, -⟩ := (hmaps m .holdingRegister 11 x).comes_back hholds
  exact ⟨⟨hdvd, (harrays ws hdvd).2⟩, hholds, m', hwrite, hread⟩

end Number

end Modbus

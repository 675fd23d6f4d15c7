import Mathlib.Tactic.Common
import Modbus.Device.Execute

/-! The data model: four banks of cells, each a partial function from addresses to values. A data
map is seen as a data model, in which its operations are what their names say: a range can be
reached when all its cells are there, reading gives these cells in order, and writing changes them
and no others. -/

namespace Modbus

/-- A bank of the data model: the values of its cells, at the addresses that have one. -/
abbrev Bank (α : Type) := Nat → Option α

namespace Bank

variable {α : Type}

def empty : Bank α := fun _ => none

/-- All `n` cells from `a` on are there. -/
def Holds (b : Bank α) (a n : Nat) : Prop := ∀ i < n, (b (a + i)).isSome

instance (b : Bank α) (a n : Nat) : Decidable (b.Holds a n) :=
  inferInstanceAs (Decidable (∀ i < n, _))

/-- The values of the `n` cells from `a` on. -/
def cells (b : Bank α) (a n : Nat) : List α := (List.range n).filterMap fun i => b (a + i)

/-- The bank with `vs` in the cells from `a` on. -/
def put (b : Bank α) (a : Nat) (vs : List α) : Bank α := fun x =>
  if a ≤ x ∧ x < a + vs.length then vs[x - a]? else b x

end Bank

/-- The cells of a device by their addresses. -/
structure DataModel where
  coils : Bank Bool
  discreteInputs : Bank Bool
  inputRegisters : Bank UInt16
  holdingRegisters : Bank UInt16

namespace DataModel

/-- The bank of a table of bits. -/
def bits (m : DataModel) : Table → Bank Bool
  | .coil => m.coils
  | .discreteInput => m.discreteInputs
  | _ => .empty

/-- The bank of a table of registers. -/
def registers (m : DataModel) : Table → Bank UInt16
  | .inputRegister => m.inputRegisters
  | .holdingRegister => m.holdingRegisters
  | _ => .empty

/-- All `n` cells of a table from `a` on are there. -/
def Holds (m : DataModel) (t : Table) (a n : Nat) : Prop :=
  if t.isBits then (m.bits t).Holds a n else (m.registers t).Holds a n

instance (m : DataModel) (t : Table) (a n : Nat) : Decidable (m.Holds t a n) :=
  inferInstanceAs (Decidable (if t.isBits then (m.bits t).Holds a n else (m.registers t).Holds a n))

theorem holds_bits {m : DataModel} {t : Table} {a n : Nat} (h : t.isBits = true) :
    m.Holds t a n ↔ (m.bits t).Holds a n := by
  rw [Holds, if_pos h]

theorem holds_registers {m : DataModel} {t : Table} {a n : Nat} (h : t.isBits = false) :
    m.Holds t a n ↔ (m.registers t).Holds a n := by
  rw [Holds, if_neg (by simp [h])]

/-- The model with `vs` in the bits of a table from `a` on. -/
def putBits (m : DataModel) (t : Table) (a : Nat) (vs : List Bool) : DataModel :=
  match t with
  | .coil => { m with coils := m.coils.put a vs }
  | .discreteInput => { m with discreteInputs := m.discreteInputs.put a vs }
  | _ => m

/-- The model with `vs` in the registers of a table from `a` on. -/
def putRegisters (m : DataModel) (t : Table) (a : Nat) (vs : List UInt16) : DataModel :=
  match t with
  | .inputRegister => { m with inputRegisters := m.inputRegisters.put a vs }
  | .holdingRegister => { m with holdingRegisters := m.holdingRegisters.put a vs }
  | _ => m

end DataModel

/-! ### Blocks as banks -/

namespace Block

variable {α : Type}

/-- The cells of a block; without a block there are none. -/
def bank : Option (Block α) → Bank α
  | none => .empty
  | some b => fun x => if b.base.toNat ≤ x then b.cells[x - b.base.toNat]? else none

/-- Where a block begins and how many cells it has. -/
def shape (b : Block α) : UInt16 × Nat := (b.base, b.cells.length)

/-- The `n` cells from `a` on are inside the block. -/
def Inside (b : Block α) (a n : Nat) : Prop :=
  b.base.toNat ≤ a ∧ a + n ≤ b.base.toNat + b.cells.length

instance (b : Block α) (a n : Nat) : Decidable (b.Inside a n) := instDecidableAnd

theorem bank_mk (base : UInt16) (cells : List α) (x : Nat) : bank (some ⟨base, cells⟩) x =
    if base.toNat ≤ x then cells[x - base.toNat]? else none := rfl

theorem bank_apply {b : Block α} {x : Nat} (h : b.base.toNat ≤ x) :
    bank (some b) x = b.cells[x - b.base.toNat]? := if_pos h

theorem holds_bank_iff {b : Block α} {a n : Nat} (hn : 0 < n) :
    (bank (some b)).Holds a n ↔ b.Inside a n := by
  constructor
  · intro h
    have hbase : b.base.toNat ≤ a := by
      by_contra hlt
      have hfirst := h 0 hn
      simp [bank, hlt] at hfirst
    have hlast := h (n - 1) (by omega)
    rw [bank_apply (by omega), Option.isSome_iff_exists] at hlast
    obtain ⟨v, hv⟩ := hlast
    have := (List.getElem?_eq_some_iff.mp hv).1
    exact ⟨hbase, by omega⟩
  · rintro ⟨hbase, hend⟩ i hi
    rw [bank_apply (by omega), List.getElem?_eq_getElem (by omega)]
    rfl

/-- The position behind the last of the `n` cells from `a` on does not fit into a machine word. -/
def Overflows (b : Block α) (a n : Nat) : Prop :=
  b.base.toNat ≤ a ∧ wordSpan ≤ a - b.base.toNat + n

instance (b : Block α) (a n : Nat) : Decidable (b.Overflows a n) := instDecidableAnd

theorem not_overflows {b : Block α} {a : UInt16} {n : Nat} (hn : n < 65536) :
    ¬ b.Overflows a.toNat n := by
  have ha : a.toNat < 65536 := a.toNat_lt
  rw [Overflows, wordSpan, UInt64.size]
  omega

theorem position_eq (b : Block α) (a : UInt16) (n : Nat) : b.position a n =
    if b.Overflows a.toNat n then .error .overflow
    else if b.Inside a.toNat n then .ok (a.toNat - b.base.toNat)
    else .error .outside := by
  by_cases hlt : a < b.base
  · have hbase := Nat.not_le.mpr (UInt16.lt_iff_toNat_lt.mp hlt)
    rw [position, if_pos hlt, if_neg fun h => hbase h.1, if_neg fun h => hbase h.1]
  · have hbase := Nat.le_of_not_lt (mt UInt16.lt_iff_toNat_lt.mpr hlt)
    rw [position, if_neg hlt]
    by_cases hspan : wordSpan ≤ a.toNat - b.base.toNat + n
    · simp only [if_pos hspan, if_pos (show b.Overflows a.toNat n from ⟨hbase, hspan⟩)]
    · simp only [if_neg hspan, if_neg fun h : b.Overflows a.toNat n => hspan h.2]
      by_cases hin : b.Inside a.toNat n
      · rw [if_pos hin, if_neg (by have := hin.2; omega)]
      · rw [if_neg hin, if_pos (Nat.lt_of_not_le fun h => hin ⟨hbase, by omega⟩)]

theorem position_of_inside {b : Block α} {a : UInt16} {n : Nat} (hn : n < 65536)
    (h : b.Inside a.toNat n) : b.position a n = .ok (a.toNat - b.base.toNat) := by
  rw [position_eq, if_neg (not_overflows hn), if_pos h]

theorem position_of_not_inside {b : Block α} {a : UInt16} {n : Nat} (hn : n < 65536)
    (h : ¬ b.Inside a.toNat n) : b.position a n = .error .outside := by
  rw [position_eq, if_neg (not_overflows hn), if_neg h]

theorem position_ne_overflow {b : Block α} {a : UInt16} {n : Nat} (hn : n < 65536) :
    b.position a n ≠ .error .overflow := by
  rw [position_eq, if_neg (not_overflows hn)]
  split <;> rintro ⟨⟩

theorem filterMap_getElem? (xs : List α) (n : Nat) :
    (List.range n).filterMap (fun i => xs[i]?) = xs.take n := by
  induction n with
  | zero => rfl
  | succ n ih =>
    rw [List.range_succ, List.filterMap_append, ih, List.take_add_one]
    cases h : xs[n]? <;> simp [h]

theorem cells_bank {b : Block α} {a n : Nat} (h : b.base.toNat ≤ a) :
    (bank (some b)).cells a n = (b.cells.drop (a - b.base.toNat)).take n := by
  rw [← filterMap_getElem?, Bank.cells]
  congr 1
  funext i
  rw [bank_apply (by omega), List.getElem?_drop]
  congr 1
  omega

/-- Writing cells that are inside changes them and no others. -/
theorem bank_write {b : Block α} {a : Nat} {vs : List α} (h : b.Inside a vs.length) :
    let start := a - b.base.toNat
    bank (some { b with cells := b.cells.take start ++ vs ++ b.cells.drop (start + vs.length) }) =
      (bank (some b)).put a vs := by
  obtain ⟨hbase, hend⟩ := h
  funext x
  have hstart : (b.cells.take (a - b.base.toNat)).length = a - b.base.toNat := by
    rw [List.length_take]
    omega
  by_cases hx : b.base.toNat ≤ x
  · rw [Bank.put, bank_apply hx, bank_mk, if_pos hx]
    by_cases hlow : x < a
    · rw [if_neg (by omega : ¬(a ≤ x ∧ x < a + vs.length)), List.append_assoc,
        List.getElem?_append_left (by omega),
        List.getElem?_take_of_lt (by omega)]
    · by_cases hhigh : x < a + vs.length
      · rw [if_pos (by omega), List.append_assoc, List.getElem?_append_right (by omega),
          List.getElem?_append_left (by omega), hstart]
        congr 1
        omega
      · rw [if_neg (by omega), List.getElem?_append_right (by simp [hstart]; omega),
          List.getElem?_drop]
        congr 1
        simp only [List.length_append, hstart]
        omega
  · rw [Bank.put, if_neg (by omega)]
    simp [bank, hx]

end Block

/-! ### Maps as data models -/

open RangeFault (toAnswer)

namespace DataMap

/-- No position in a map overflows for as many cells as a word can count. -/
theorem check_ne_overflow (m : DataMap) (t : Table) (a : UInt16) {n : Nat} (hn : n < 65536) :
    m.check t a n ≠ .error .overflow := by
  have hblock : ∀ {α : Type} (b : Option (Block α)),
      (do discard ((← block b).position a n)) ≠ Except.error RangeFault.overflow := by
    intro α b
    rcases b with _ | b
    · rintro ⟨⟩
    · have hposition := Block.position_ne_overflow (b := b) (a := a) hn
      show Except.map _ (b.position a n) ≠ _
      rcases hfound : b.position a n with fault | start
      · rintro ⟨⟩
        exact hposition hfound
      · rintro ⟨⟩
  rw [check]
  split
  · exact hblock _
  · exact hblock _

/-- A map as a data model. -/
def model (m : DataMap) : DataModel where
  coils := Block.bank m.coils
  discreteInputs := Block.bank m.discreteInputs
  inputRegisters := Block.bank m.inputRegisters
  holdingRegisters := Block.bank m.holdingRegisters

/-- Where the block of a table begins and how many cells it has. -/
def shape (m : DataMap) : Table → Option (UInt16 × Nat)
  | .coil => m.coils.map Block.shape
  | .discreteInput => m.discreteInputs.map Block.shape
  | .inputRegister => m.inputRegisters.map Block.shape
  | .holdingRegister => m.holdingRegisters.map Block.shape

theorem bits_model (m : DataMap) (t : Table) : m.model.bits t = Block.bank (m.bits t) := by
  cases t <;> rfl

theorem registers_model (m : DataMap) (t : Table) :
    m.model.registers t = Block.bank (m.registers t) := by
  cases t <;> rfl

end DataMap

namespace Block

variable {α β : Type} {b : Option (Block α)} {a : UInt16} {n : Nat}

theorem exists_of_holds (hn : 0 < n) (hs : n < 65536) (h : (bank b).Holds a.toNat n) :
    ∃ block, b = some block ∧ block.Inside a.toNat n ∧
      block.position a n = .ok (a.toNat - block.base.toNat) := by
  rcases b with _ | b
  · have := h 0 hn
    simp [bank, Bank.empty] at this
  · rw [holds_bank_iff hn] at h
    exact ⟨b, rfl, h, position_of_inside hs h⟩

/-- Whatever is done with a range that is not there, it is an illegal data address. -/
theorem answer_of_not_holds (f : Block α → Nat → β) (hn : 0 < n) (hs : n < 65536)
    (h : ¬ (bank b).Holds a.toNat n) :
    toAnswer (do
      let block ← DataMap.block b
      (block.position a n).map (f block)) = .error .illegalDataAddress := by
  rcases b with _ | b
  · rfl
  · rw [holds_bank_iff hn] at h
    simp only [DataMap.block, bind, Except.bind, position_of_not_inside hs h]
    rfl

theorem answer_position (hn : 0 < n) (hs : n < 65536) :
    toAnswer (do
      let block ← DataMap.block b
      (block.position a n).map fun _ => ()) =
      if (bank b).Holds a.toNat n then .ok () else .error .illegalDataAddress := by
  by_cases h : (bank b).Holds a.toNat n
  · obtain ⟨block, rfl, -, hpos⟩ := exists_of_holds hn hs h
    simp only [if_pos h, DataMap.block, bind, Except.bind, hpos]
    rfl
  · rw [if_neg h]
    exact answer_of_not_holds (fun _ _ => ()) hn hs h

theorem answer_read (hn : 0 < n) (hs : n < 65536) :
    toAnswer (do (← DataMap.block b).read a n) =
      if (bank b).Holds a.toNat n then .ok ((bank b).cells a.toNat n)
      else .error .illegalDataAddress := by
  by_cases h : (bank b).Holds a.toNat n
  · obtain ⟨block, rfl, hin, hpos⟩ := exists_of_holds hn hs h
    simp only [if_pos h, DataMap.block, bind, Except.bind, read, hpos, cells_bank hin.1]
    rfl
  · rw [if_neg h]
    exact answer_of_not_holds (fun block start => (block.cells.drop start).take n) hn hs h

variable {vs : List α}

theorem answer_write_of_not_holds (f : Block α → β) (hn : 0 < vs.length) (hs : vs.length < 65536)
    (h : ¬ (bank b).Holds a.toNat vs.length) :
    toAnswer (do return f (← (← DataMap.block b).write a vs)) = .error .illegalDataAddress := by
  rcases b with _ | b
  · rfl
  · rw [holds_bank_iff hn] at h
    simp only [DataMap.block, bind, Except.bind, write, position_of_not_inside hs h]
    rfl

theorem write_of_holds (hn : 0 < vs.length) (hs : vs.length < 65536)
    (h : (bank b).Holds a.toNat vs.length) :
    ∃ block, b = some block ∧ ∃ block', block.write a vs = .ok block' ∧
      bank (some block') = (bank (some block)).put a.toNat vs ∧ block'.shape = block.shape := by
  obtain ⟨block, rfl, hin, hpos⟩ := exists_of_holds hn hs h
  refine ⟨block, rfl, _, by rw [write, hpos]; rfl, bank_write hin, ?_⟩
  obtain ⟨hbase, hend⟩ := hin
  simp only [shape, List.length_append, List.length_take, List.length_drop, Prod.mk.injEq,
    true_and]
  omega

end Block

namespace DataMap

variable {m : DataMap} {t : Table} {a : UInt16} {n : Nat}

theorem answer_readBits (hn : 0 < n) (hs : n < 65536) :
    toAnswer (m.readBits t a n) =
      if (m.model.bits t).Holds a.toNat n then .ok ((m.model.bits t).cells a.toNat n)
      else .error .illegalDataAddress := by
  rw [bits_model]
  exact Block.answer_read hn hs

theorem answer_readRegisters (hn : 0 < n) (hs : n < 65536) :
    toAnswer (m.readRegisters t a n) =
      if (m.model.registers t).Holds a.toNat n then .ok ((m.model.registers t).cells a.toNat n)
      else .error .illegalDataAddress := by
  rw [registers_model]
  exact Block.answer_read hn hs

theorem answer_check (hn : 0 < n) (hs : n < 65536) :
    toAnswer (m.check t a n) =
      if m.model.Holds t a.toNat n then .ok () else .error .illegalDataAddress := by
  have hcheck : m.check t a n =
      if t.isBits then (do
        let block ← block (m.bits t)
        (block.position a n).map fun _ => ())
      else (do
        let block ← block (m.registers t)
        (block.position a n).map fun _ => ()) := rfl
  rw [hcheck]
  cases hb : t.isBits with
  | true => simp only [if_true, Block.answer_position hn hs, DataModel.holds_bits hb, bits_model]
  | false =>
    simp only [Bool.false_eq_true, if_false, Block.answer_position hn hs,
      DataModel.holds_registers hb, registers_model]

variable {bs : List Bool} {ws : List UInt16}

theorem answer_writeBits_of_not_holds (hn : 0 < bs.length) (hs : bs.length < 65536)
    (h : ¬ (m.model.bits t).Holds a.toNat bs.length) :
    toAnswer (m.writeBits t a bs) = .error .illegalDataAddress := by
  rw [bits_model] at h
  exact Block.answer_write_of_not_holds (m.setBits t) hn hs h

theorem answer_writeRegisters_of_not_holds (hn : 0 < ws.length) (hs : ws.length < 65536)
    (h : ¬ (m.model.registers t).Holds a.toNat ws.length) :
    toAnswer (m.writeRegisters t a ws) = .error .illegalDataAddress := by
  rw [registers_model] at h
  exact Block.answer_write_of_not_holds (m.setRegisters t) hn hs h

/-- Writing bits that are there changes them, and no other cell and no block. -/
theorem writeBits_of_holds (hn : 0 < bs.length) (hs : bs.length < 65536)
    (h : (m.model.bits t).Holds a.toNat bs.length) :
    ∃ m', m.writeBits t a bs = .ok m' ∧ m'.model = m.model.putBits t a.toNat bs ∧
      m'.shape = m.shape := by
  rw [bits_model] at h
  obtain ⟨b, hb, b', hwrite, hbank, hshape⟩ := Block.write_of_holds hn hs h
  refine ⟨m.setBits t b', ?_, ?_, ?_⟩
  · simp only [writeBits, hb, block, bind, Except.bind, hwrite]
    rfl
  · cases t <;> simp_all [setBits, model, DataModel.putBits, bits]
  · funext t'
    cases t <;> cases t' <;> simp_all [setBits, shape, bits]

/-- Writing registers that are there changes them, and no other cell and no block. -/
theorem writeRegisters_of_holds (hn : 0 < ws.length) (hs : ws.length < 65536)
    (h : (m.model.registers t).Holds a.toNat ws.length) :
    ∃ m', m.writeRegisters t a ws = .ok m' ∧ m'.model = m.model.putRegisters t a.toNat ws ∧
      m'.shape = m.shape := by
  rw [registers_model] at h
  obtain ⟨b, hb, b', hwrite, hbank, hshape⟩ := Block.write_of_holds hn hs h
  refine ⟨m.setRegisters t b', ?_, ?_, ?_⟩
  · simp only [writeRegisters, hb, block, bind, Except.bind, hwrite]
    rfl
  · cases t <;> simp_all [setRegisters, model, DataModel.putRegisters, registers]
  · funext t'
    cases t <;> cases t' <;> simp_all [setRegisters, shape, registers]

end DataMap

end Modbus

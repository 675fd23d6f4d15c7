import Modbus.Proofs.DataModel.Basic

/-! Reading any number of cells. The cells are given if they are all inside the block of the table,
and are an illegal address otherwise, as long as the position behind the last of them fits into a
machine word. Where it does not, reading fails with an overflow: a machine word can count that many
cells from each address that lies behind the first one of the block, and from no other. -/

namespace Modbus

namespace Block

variable {α : Type}

/-- What reading the `n` cells from `a` on is to give: exactly these cells, in their order, if all
of them are inside the block, and otherwise that they are not. -/
inductive Reads (b : Option (Block α)) (a n : Nat) : Except RangeFault (List α) → Prop
  | cells {block : Block α} {vs : List α} (hblock : b = some block) (hin : block.Inside a n)
      (hcells : vs.map some = (List.range n).map fun i => bank b (a + i)) : Reads b a n (.ok vs)
  | outside (hout : ∀ block ∈ b, ¬ block.Inside a n) : Reads b a n (.error .outside)

/-- How far reading from `a` on, for each number of cells, keeps to the bounds of the block. -/
structure KeepsBounds (b : Option (Block α)) (a : UInt16)
    (read : Nat → Except RangeFault (List α)) : Prop where
  /-- It gives what it is to give as long as there is no overflow. -/
  reads_iff : ∀ n, Reads b a.toNat n (read n) ↔ ∀ block ∈ b, ¬ block.Overflows a.toNat n
  /-- Where there is one, reading fails with it. -/
  eq_overflow : ∀ n, (∃ block ∈ b, block.Overflows a.toNat n) → read n = .error .overflow
  /-- Cells that overflow are not all inside the block, if its length is a machine word. -/
  not_inside : ∀ n, ∀ block ∈ b, block.cells.length < wordSpan → block.Overflows a.toNat n →
    ¬ block.Inside a.toNat n
  /-- A position that is found is that of `a`, and the `n` cells from it on are in the block. -/
  position_bounds : ∀ n, ∀ block ∈ b, ∀ start, block.position a n = .ok start →
    block.base.toNat + start = a.toNat ∧ start + n ≤ block.cells.length ∧ start + n < wordSpan
  /-- The addresses from which it gives what it is to give, whatever word the number is. -/
  forall_reads_iff : (∀ n < wordSpan, Reads b a.toNat n (read n)) ↔ ∀ block ∈ b, a ≤ block.base

variable {b : Block α} {a : UInt16} {n start : Nat}

theorem not_inside_of_overflows {a : Nat} (hlength : b.cells.length < wordSpan)
    (h : b.Overflows a n) : ¬ b.Inside a n := by
  intro hin
  obtain ⟨hbase, hspan⟩ := h
  have hend := hin.2
  omega

theorem bounds_of_position (h : b.position a n = .ok start) :
    b.base.toNat + start = a.toNat ∧ start + n ≤ b.cells.length ∧ start + n < wordSpan := by
  rw [position_eq] at h
  split_ifs at h with hover hin
  obtain rfl := Except.ok.inj h
  obtain ⟨hbase, hend⟩ := hin
  have hspan : ¬ wordSpan ≤ a.toNat - b.base.toNat + n := fun h => hover ⟨hbase, h⟩
  omega

/-- From the base of the block no number of cells that is a machine word overflows, and from each
address behind it the greatest one does. -/
theorem forall_not_overflows_iff :
    (∀ n < wordSpan, ¬ b.Overflows a.toNat n) ↔ a ≤ b.base := by
  have hspan : wordSpan = 18446744073709551616 := rfl
  have ha : a.toNat < 65536 := a.toNat_lt
  rw [UInt16.le_iff_toNat_le]
  constructor
  · intro h
    by_contra hlt
    exact h (wordSpan - 1) (by omega) ⟨by omega, by omega⟩
  · rintro hle n hn ⟨hbase, hover⟩
    omega

theorem map_some_take (h : b.Inside a.toNat n) :
    ((b.cells.drop (a.toNat - b.base.toNat)).take n).map some =
      (List.range n).map fun i => bank (some b) (a.toNat + i) := by
  obtain ⟨hbase, hend⟩ := h
  refine List.ext_getElem (by simp; omega) fun i hi _ => ?_
  have hin : i < n := by simp at hi; omega
  simp only [List.getElem_map, List.getElem_take, List.getElem_drop, List.getElem_range]
  rw [bank_apply (by omega), List.getElem?_eq_getElem (by omega)]
  congr 2
  omega

theorem read_eq_overflow (h : b.Overflows a.toNat n) : b.read a n = .error .overflow := by
  rw [read, position_eq, if_pos h]
  rfl

theorem reads_read (h : ¬ b.Overflows a.toNat n) : Reads (some b) a.toNat n (b.read a n) := by
  rw [read, position_eq, if_neg h]
  by_cases hin : b.Inside a.toNat n
  · rw [if_pos hin]
    exact .cells rfl hin (map_some_take hin)
  · rw [if_neg hin]
    exact .outside fun _ hb => Option.some.inj hb ▸ hin

theorem reads_read_iff : Reads (some b) a.toNat n (b.read a n) ↔ ¬ b.Overflows a.toNat n := by
  refine ⟨fun h hover => ?_, reads_read⟩
  rw [read_eq_overflow hover] at h
  cases h

theorem keepsBounds_read (b : Option (Block α)) (a : UInt16) :
    KeepsBounds b a fun n => (do (← DataMap.block b).read a n) := by
  cases b with
  | none =>
    -- No address has a cell, so there is nothing that could overflow.
    exact {
      reads_iff := fun n => iff_of_true (.outside nofun) nofun
      eq_overflow := nofun
      not_inside := nofun
      position_bounds := nofun
      forall_reads_iff := iff_of_true (fun n _ => .outside nofun) nofun }
  | some b =>
    have hread (n : Nat) : (do (← DataMap.block (some b)).read a n) = b.read a n := rfl
    simp only [hread]
    exact {
      reads_iff := by simpa using fun n => reads_read_iff
      eq_overflow := by simpa using fun n => read_eq_overflow
      not_inside := by simpa using fun n => not_inside_of_overflows
      position_bounds := by simpa using fun n start => bounds_of_position
      forall_reads_iff := by
        simp only [reads_read_iff, Option.mem_def, Option.some.injEq, forall_eq']
        exact forall_not_overflows_iff }

end Block

namespace DataMap

open Block (KeepsBounds Reads)

/-- Reading bits and registers, from any address of any table and for any number of cells, gives
exactly these cells if all of them are inside the block and an illegal address otherwise, if and
only if the position behind the last of them fits into a machine word. No cell outside of the block
is looked at in any case. -/
theorem keepsBounds_readBits_readRegisters (m : DataMap) (t : Table) (a : UInt16) :
    KeepsBounds (m.bits t) a (m.readBits t a) ∧
    KeepsBounds (m.registers t) a (m.readRegisters t a) :=
  ⟨Block.keepsBounds_read _ a, Block.keepsBounds_read _ a⟩

/-- From the second of two cells on, a number that is a machine word counts so many cells that
reading them overflows. -/
theorem not_reads_overflow :
    let m := (DataMap.empty.declare .coil 2 1).declare .holdingRegister 2 1
    let n := 18446744073709551615
    n < wordSpan ∧
    (∀ block ∈ m.bits .coil, ¬ block.Inside 2 n) ∧
    m.readBits .coil 2 n = .error .overflow ∧
    ¬ Reads (m.bits .coil) 2 n (m.readBits .coil 2 n) ∧
    (∀ block ∈ m.registers .holdingRegister, ¬ block.Inside 2 n) ∧
    m.readRegisters .holdingRegister 2 n = .error .overflow ∧
    ¬ Reads (m.registers .holdingRegister) 2 n (m.readRegisters .holdingRegister 2 n) := by
  intro m n
  have hbits : m.readBits .coil 2 n = .error .overflow := rfl
  have hregisters : m.readRegisters .holdingRegister 2 n = .error .overflow := rfl
  refine ⟨by decide, by decide, hbits, ?_, by decide, hregisters, ?_⟩
  · rw [hbits]
    nofun
  · rw [hregisters]
    nofun

end DataMap

end Modbus

import Mathlib.Data.List.Induction
import Modbus.Config.Build
import Modbus.Proofs.DataModel.Basic

/-! The cells that a configured device begins with. Each table has one block, so of the blocks that
a configuration lists for a table the last one is served: its cells are there, as zeros, and no
other cell of the table is. -/

namespace Modbus

namespace Block

variable {α : Type} {base base' a : UInt16} {quantity quantity' n : Nat} {x : α}

theorem resize_filled : (filled base' quantity' x).resize base quantity x =
    filled base quantity x := by
  rw [filled, resize, filled, List.take_replicate, List.length_replicate,
    List.replicate_append_replicate]
  congr 2
  omega

theorem inside_filled : (filled base quantity x).Inside a.toNat n ↔
    base.toNat ≤ a.toNat ∧ a.toNat + n ≤ base.toNat + quantity := by
  rw [Inside, filled, List.length_replicate]

/-- Reading a block of equal cells gives as many of them as are asked for, if it has all of them. -/
theorem read_filled (hn : n < 65536) : (filled base quantity x).read a n =
    if base.toNat ≤ a.toNat ∧ a.toNat + n ≤ base.toNat + quantity
    then .ok (List.replicate n x) else .error .outside := by
  split_ifs with h
  · rw [read, position_of_inside hn (inside_filled.mpr h)]
    simp only [Except.map, filled, List.drop_replicate, List.take_replicate, Except.ok.injEq]
    congr 1
    omega
  · rw [read, position_of_not_inside hn (mt inside_filled.mp h)]
    rfl

theorem write_filled {values : List α} (hn : values.length < 65536)
    (h : ¬ (base.toNat ≤ a.toNat ∧ a.toNat + values.length ≤ base.toNat + quantity)) :
    (filled base quantity x).write a values = .error .outside := by
  rw [write, position_of_not_inside hn (mt inside_filled.mp h)]
  rfl

end Block

/-- All `n` cells from `a` on are in the block. -/
def BlockConfig.Covers (b : BlockConfig) (a : UInt16) (n : Nat) : Prop :=
  b.start.toNat ≤ a.toNat ∧ a.toNat + n ≤ b.start.toNat + b.quantity.toNat

instance (b : BlockConfig) (a : UInt16) (n : Nat) : Decidable (b.Covers a n) := instDecidableAnd

/-- The block with all its cells equal to `x`. -/
def BlockConfig.filled {α : Type} (b : BlockConfig) (x : α) : Block α :=
  .filled b.start b.quantity.toNat x

/-- The last of the blocks that are for a table. -/
def lastBlock? (blocks : List BlockConfig) (t : Table) : Option BlockConfig :=
  (blocks.filter (·.table = t)).getLast?

theorem lastBlock?_concat (blocks : List BlockConfig) (b : BlockConfig) (t : Table) :
    lastBlock? (blocks ++ [b]) t = if b.table = t then some b else lastBlock? blocks t := by
  rw [lastBlock?, List.filter_append]
  split_ifs with h
  · rw [List.filter_cons_of_pos (by simpa using h), List.filter_nil, List.getLast?_concat]
  · rw [List.filter_cons_of_neg (by simpa using h), List.filter_nil, List.append_nil, lastBlock?]

namespace DataMap

/-- The map with these blocks, declared one after the other. -/
def ofBlocks (blocks : List BlockConfig) : DataMap :=
  blocks.foldl (fun m b => m.declare b.table b.quantity.toNat b.start) .empty

/-- What is seen of the block of one table is the block that was declared for it last: a block that
was there already has been moved and resized to it. -/
theorem view_ofBlocks {α : Type} {x : α} {t : Table} (view : DataMap → Option (Block α))
    (hempty : view .empty = none)
    (hdeclare : ∀ m t' quantity base, view (m.declare t' quantity base) =
      if t' = t then some (declared (view m) base quantity x) else view m)
    (blocks : List BlockConfig) :
    view (ofBlocks blocks) = (lastBlock? blocks t).map (·.filled x) := by
  induction blocks using List.reverseRecOn with
  | nil => exact hempty
  | append_singleton blocks b ih =>
    rw [ofBlocks, List.foldl_append, ← ofBlocks, List.foldl_cons, List.foldl_nil, hdeclare, ih,
      lastBlock?_concat]
    split_ifs
    · cases lastBlock? blocks t with
      | none => rfl
      | some b' => exact congrArg some Block.resize_filled
    · rfl

theorem bits_ofBlocks (blocks : List BlockConfig) (t : Table) : (ofBlocks blocks).bits t =
    if t.isBits then (lastBlock? blocks t).map (·.filled false) else none := by
  split_ifs with h
  · refine view_ofBlocks (·.bits t) (by cases t <;> rfl) (fun m t' quantity base => ?_) blocks
    cases t <;> cases t' <;> first | rfl | cases h
  · cases t <;> first | rfl | exact absurd rfl h

theorem registers_ofBlocks (blocks : List BlockConfig) (t : Table) : (ofBlocks blocks).registers t =
    if t.isBits then none else (lastBlock? blocks t).map (·.filled 0) := by
  split_ifs with h
  · cases t <;> first | rfl | cases h
  · refine view_ofBlocks (·.registers t) (by cases t <;> rfl) (fun m t' quantity base => ?_) blocks
    cases t <;> cases t' <;> first | rfl | exact absurd rfl h

/-- Reading from the block that was declared last, if there is one. -/
theorem read_filled {α : Type} {x : α} {a : UInt16} {n : Nat} (hn : n < 65536)
    (b : Option BlockConfig) : (do (← block (b.map fun (b : BlockConfig) => b.filled x)).read a n) =
    if ∃ b' ∈ b, b'.Covers a n then .ok (List.replicate n x) else .error .outside := by
  cases b with
  | none => simp [block, bind, Except.bind]
  | some b =>
    show (b.filled x).read a n = _
    rw [BlockConfig.filled, Block.read_filled hn]
    simp only [Option.mem_def, Option.some.injEq, exists_eq_left', BlockConfig.Covers]

/-- Writing to it fails where it has no cells. -/
theorem write_filled {α : Type} {x : α} {a : UInt16} {values : List α} (hn : values.length < 65536)
    (f : Block α → DataMap) (b : Option BlockConfig) (h : ¬ ∃ b' ∈ b, b'.Covers a values.length) :
    (do return f (← (← block (b.map fun (b : BlockConfig) => b.filled x)).write a values)) =
      .error RangeFault.outside := by
  cases b with
  | none => rfl
  | some b =>
    simp only [Option.mem_def, Option.some.injEq, exists_eq_left'] at h
    show ((b.filled x).write a values).bind (fun block => .ok (f block)) = _
    rw [BlockConfig.filled, Block.write_filled hn h]
    rfl

end DataMap

namespace DeviceConfig

open RangeFault (toAnswer)

variable {c : DeviceConfig} {d : Device}

/-- All `n` cells from `a` on are in the block that is listed last for the table. -/
def Serves (c : DeviceConfig) (t : Table) (a : UInt16) (n : Nat) : Prop :=
  ∃ b ∈ lastBlock? c.blocks t, b.Covers a n

instance (c : DeviceConfig) (t : Table) (a : UInt16) (n : Nat) : Decidable (c.Serves t a n) :=
  inferInstanceAs (Decidable (∃ b ∈ lastBlock? c.blocks t, b.Covers a n))

theorem map_of_build (h : c.build = .ok d) : d.map = .ofBlocks c.blocks := by
  rw [build] at h
  split_ifs at h
  cases h
  exact (List.foldl_hom Device.map fun _ _ => rfl).symm

variable {t : Table} {a : UInt16} {n : Nat}

theorem readBits_of_build (h : c.build = .ok d) (hn : n < 65536) : d.map.readBits t a n =
    if t.isBits ∧ c.Serves t a n then .ok (List.replicate n false) else .error .outside := by
  rw [DataMap.readBits, map_of_build h, DataMap.bits_ofBlocks]
  cases t.isBits with
  | true =>
    simp only [if_true, true_and]
    exact DataMap.read_filled hn _
  | false =>
    simp only [Bool.false_eq_true, if_false, false_and]
    rfl

theorem readRegisters_of_build (h : c.build = .ok d) (hn : n < 65536) :
    d.map.readRegisters t a n =
      if ¬ t.isBits ∧ c.Serves t a n then .ok (List.replicate n 0) else .error .outside := by
  rw [DataMap.readRegisters, map_of_build h, DataMap.registers_ofBlocks]
  cases t.isBits with
  | true =>
    simp only [if_true, not_true, false_and, if_false]
    rfl
  | false =>
    simp only [Bool.false_eq_true, if_false, not_false_iff, true_and]
    exact DataMap.read_filled hn _

theorem writeBits_of_build {bits : List Bool} (h : c.build = .ok d) (hn : bits.length < 65536)
    (hserves : ¬ (t.isBits ∧ c.Serves t a bits.length)) :
    d.map.writeBits t a bits = .error .outside := by
  rw [DataMap.writeBits, map_of_build h, DataMap.bits_ofBlocks]
  cases ht : t.isBits with
  | true => exact DataMap.write_filled hn _ _ fun hcovers => hserves ⟨ht, hcovers⟩
  | false => rfl

theorem writeRegisters_of_build {words : List UInt16} (h : c.build = .ok d)
    (hn : words.length < 65536) (hserves : ¬ (¬ t.isBits ∧ c.Serves t a words.length)) :
    d.map.writeRegisters t a words = .error .outside := by
  rw [DataMap.writeRegisters, map_of_build h, DataMap.registers_ofBlocks]
  cases ht : t.isBits with
  | true => rfl
  | false => exact DataMap.write_filled hn _ _ fun hcovers => hserves ⟨by simp [ht], hcovers⟩

/-- Of the blocks that are listed for a table, the last one is what the device begins with: cells
can be read if they are all in that block, and are zeros then, and otherwise they are an illegal
data address to readers and to writers. Blocks that are listed before it for the same table leave
nothing. -/
theorem serves_last_block (h : c.build = .ok d) (t : Table) (a : UInt16) {n : Nat}
    (hn : n < 65536) :
    (toAnswer (d.map.readBits t a n) =
      if t.isBits ∧ c.Serves t a n
      then .ok (List.replicate n false) else .error .illegalDataAddress) ∧
    (toAnswer (d.map.readRegisters t a n) =
      if ¬ t.isBits ∧ c.Serves t a n
      then .ok (List.replicate n 0) else .error .illegalDataAddress) ∧
    (∀ bits : List Bool, bits.length = n → ¬ (t.isBits ∧ c.Serves t a n) →
      toAnswer (d.map.writeBits t a bits) = .error .illegalDataAddress) ∧
    ∀ words : List UInt16, words.length = n → ¬ (¬ t.isBits ∧ c.Serves t a n) →
      toAnswer (d.map.writeRegisters t a words) = .error .illegalDataAddress := by
  refine ⟨?_, ?_, ?_, ?_⟩
  · rw [readBits_of_build h hn]
    split_ifs <;> rfl
  · rw [readRegisters_of_build h hn]
    split_ifs <;> rfl
  · rintro bits rfl hserves
    rw [writeBits_of_build h hn hserves]
    rfl
  · rintro words rfl hserves
    rw [writeRegisters_of_build h hn hserves]
    rfl

/-- Of two blocks for holding registers the second is served, and of the one for coils, which runs
past the last address, what there is of it. -/
theorem serves_last_block_coils :
    let c : DeviceConfig := ⟨⟨1⟩, true, [⟨.holdingRegister, 0, 2⟩, ⟨.coil, 65534, 8⟩,
      ⟨.holdingRegister, 10, 2⟩]⟩
    ∃ d, c.build = .ok d ∧ 2 < 65536 ∧
      toAnswer (d.map.readBits .coil 65534 2) = .ok [false, false] ∧
      toAnswer (d.map.readRegisters .holdingRegister 10 2) = .ok [0, 0] ∧
      toAnswer (d.map.writeRegisters .holdingRegister 1 [7, 8]) = .error .illegalDataAddress := by
  intro c
  have hn : 2 < 65536 := by decide
  obtain ⟨d, hd⟩ : ∃ d, c.build = .ok d := ⟨_, rfl⟩
  refine ⟨d, hd, hn, ?_, ?_, ?_⟩
  · exact (serves_last_block hd .coil 65534 hn).1.trans (if_pos (by decide))
  · exact (serves_last_block hd .holdingRegister 10 hn).2.1.trans (if_pos (by decide))
  · exact (serves_last_block hd .holdingRegister 1 hn).2.2.2 [7, 8] rfl (by decide)

/-- A block that is listed before another one for the same table is not served. -/
theorem not_serves_first_block :
    let first : BlockConfig := ⟨.holdingRegister, 0, 2⟩
    let c : DeviceConfig := ⟨⟨1⟩, true, [first, ⟨.holdingRegister, 10, 2⟩]⟩
    ∃ d, c.build = .ok d ∧ first ∈ c.blocks ∧ first.Covers 0 1 ∧
      toAnswer (d.map.readRegisters .holdingRegister 0 1) = .error .illegalDataAddress := by
  exact ⟨_, rfl, by decide, by decide, rfl⟩

end DeviceConfig

end Modbus

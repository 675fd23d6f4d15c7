import Modbus.Proofs.DataModel.Server

/-! Devices execute requests as the data model of their map does. The checks of a request are its
limits, preparing it succeeds when its ranges are there and does its writes, and finishing it
reads what the model holds then. -/

namespace Modbus

open RangeFault (toAnswer)

/-! ### Cells that are there -/

theorem Bank.cells_succ {α : Type} {b : Bank α} {a n : Nat} {v : α} (h : b (a + n) = some v) :
    b.cells a (n + 1) = b.cells a n ++ [v] := by
  simp [cells, List.range_succ, List.filterMap_append, h]

theorem Bank.length_cells {α : Type} {b : Bank α} {a n : Nat} (h : b.Holds a n) :
    (b.cells a n).length = n := by
  induction n with
  | zero => rfl
  | succ n ih =>
    have hfront : b.Holds a n := fun i hi => h i (by omega)
    obtain ⟨v, hv⟩ := Option.isSome_iff_exists.mp (h n (by omega))
    rw [cells_succ hv, List.length_append, ih hfront, List.length_singleton]

/-- Which cells are there follows from where a block begins and how many cells it has. -/
theorem Block.isSome_bank {α : Type} (b : Option (Block α)) (x : Nat) :
    (bank b x).isSome =
      (b.map shape).any fun s => decide (s.1.toNat ≤ x ∧ x < s.1.toNat + s.2) := by
  rcases b with _ | b
  · rfl
  · by_cases hbase : b.base.toNat ≤ x
    · have hin : (x - b.base.toNat < b.cells.length) ↔ x < b.base.toNat + b.cells.length := by
        omega
      rw [bank_apply hbase, Bool.eq_iff_iff]
      simp [shape, hbase, hin]
    · simp [bank, shape, hbase]

namespace DataMap

variable {m m' : DataMap}

theorem holds_congr (h : m.shape = m'.shape) (t : Table) (a n : Nat) :
    m.model.Holds t a n ↔ m'.model.Holds t a n := by
  have ht := congrFun h t
  cases t <;>
    simp only [DataModel.Holds, Table.isBits, if_true, Bool.false_eq_true, if_false, bits_model,
      registers_model, Bank.Holds, Block.isSome_bank] <;>
    simp only [shape] at ht <;>
    simp only [bits, registers, ht]

/-- Maps with the same blocks are reached by the same requests. -/
theorem reaches_congr (h : m.shape = m'.shape) (pduAddressing : Bool) (r : Request) :
    m.model.Reaches pduAddressing r ↔ m'.model.Reaches pduAddressing r := by
  simp only [DataModel.Reaches, DataModel.ReachesRange, holds_congr h]

end DataMap

/-! ### Checks -/

theorem checkQuantity_of_le {quantity max : Nat} (h : 1 ≤ quantity ∧ quantity ≤ max) :
    checkQuantity quantity max = .ok () := by
  rw [checkQuantity, if_neg (by omega)]

theorem checkQuantity_of_not_le {quantity max : Nat} (h : ¬ (1 ≤ quantity ∧ quantity ≤ max)) :
    checkQuantity quantity max = .error .illegalDataValue := by
  rw [checkQuantity, if_pos (by omega)]

namespace Request

/-- A request of a function that devices execute. -/
def IsSupported : Request → Prop
  | custom .. => False
  | _ => True

variable {r : Request}

theorem check_of_withinLimits (hs : r.IsSupported) (h : r.WithinLimits) : r.check = .ok () := by
  cases r with
  | custom code data => exact hs.elim
  | readWriteRegisters ra n wa words =>
    have hread : checkQuantity n.toNat maxReadRegisters = .ok () := checkQuantity_of_le h.1
    rw [check, hread]
    exact checkQuantity_of_le h.2
  | readCoils | readDiscreteInputs | readInputRegisters | readHoldingRegisters
  | writeMultipleCoils | writeMultipleRegisters => exact checkQuantity_of_le h
  | _ => rfl

/-- A word can count the cells of each range. -/
theorem WithinLimits.count_lt (h : r.WithinLimits) : ∀ range ∈ r.ranges, range.2.2 < 65536 := by
  cases r with
  | readCoils a n | readDiscreteInputs a n | readInputRegisters a n | readHoldingRegisters a n =>
    exact List.forall_mem_singleton.mpr n.toNat_lt
  | writeMultipleCoils a values | writeMultipleRegisters a values =>
    exact List.forall_mem_singleton.mpr (Nat.lt_of_le_of_lt h.2 (by decide))
  | readWriteRegisters ra n wa words =>
    refine List.forall_mem_cons.mpr ⟨n.toNat_lt, List.forall_mem_singleton.mpr ?_⟩
    exact Nat.lt_of_le_of_lt h.2.2 (by decide)
  | writeSingleCoil | writeSingleRegister | maskWriteRegister =>
    exact List.forall_mem_singleton.mpr (show 1 < 65536 by decide)
  | reportId | custom => exact List.forall_mem_nil _

theorem check_of_not_withinLimits (h : ¬ r.WithinLimits) : r.check = .error .illegalDataValue := by
  cases r with
  | readWriteRegisters ra n wa words =>
    by_cases hread : 1 ≤ n.toNat ∧ n.toNat ≤ maxReadRegisters
    · rw [check, checkQuantity_of_le hread]
      exact checkQuantity_of_not_le fun hwrite => h ⟨hread, hwrite⟩
    · rw [check, checkQuantity_of_not_le hread]
      rfl
  | readCoils | readDiscreteInputs | readInputRegisters | readHoldingRegisters
  | writeMultipleCoils | writeMultipleRegisters => exact checkQuantity_of_not_le h
  | _ => exact (h trivial).elim

theorem check_of_not_isSupported (h : ¬ r.IsSupported) : r.check = .error .illegalFunction := by
  cases r with
  | custom => rfl
  | _ => exact (h trivial).elim

theorem of_check (h : r.check = .ok ()) : r.IsSupported ∧ r.WithinLimits := by
  constructor
  · by_contra hs
    rw [check_of_not_isSupported hs] at h
    cases h
  · by_contra hl
    rw [check_of_not_withinLimits hl] at h
    cases h

end Request

namespace Device

variable {d : Device} {map : DataMap}

/-! ### Ranges of a device -/

theorem mapAddress_of_reachable {a : UInt16} (h : d.pduAddressing = true ∨ a ≠ 65535) :
    ∃ c, d.mapAddress a = .ok c ∧ c.toNat = cellAddress d.pduAddressing a := by
  unfold mapAddress cellAddress
  by_cases hp : d.pduAddressing = true
  · exact ⟨a, by rw [if_pos hp], by rw [if_pos hp]⟩
  · have ha : a ≠ 65535 := h.resolve_left hp
    have hlt : a.toNat ≠ 65535 := fun heq => ha (UInt16.toNat_inj.mp heq)
    have hbound : a.toNat < 65536 := a.toNat_lt
    refine ⟨a + 1, by rw [if_neg hp, if_neg ha], ?_⟩
    rw [if_neg hp, UInt16.toNat_add, show (1 : UInt16).toNat = 1 from rfl]
    omega

theorem mapAddress_of_not_reachable {a : UInt16} (h : ¬ (d.pduAddressing = true ∨ a ≠ 65535)) :
    d.mapAddress a = .error .illegalDataAddress := by
  have hp : ¬ d.pduAddressing = true := fun hp => h (.inl hp)
  have ha : a = 65535 := by
    by_contra hne
    exact h (.inr hne)
  rw [mapAddress, if_neg hp, if_pos ha]

variable {t : Table} {a : UInt16} {n : Nat}

/-- Work behind the check of a range is done if the range is there. -/
theorem check_bind {β : Type} (k : Answer β) (hn : 0 < n) (hs : n < 65536) :
    (do
      toAnswer (map.check t (← d.mapAddress a) n)
      k) =
      if map.model.ReachesRange d.pduAddressing (t, a, n) then k
      else .error .illegalDataAddress := by
  by_cases hreach : d.pduAddressing = true ∨ a ≠ 65535
  · obtain ⟨c, hc, hval⟩ := mapAddress_of_reachable hreach
    simp only [hc, bind, Except.bind, DataMap.answer_check hn hs, hval, DataModel.ReachesRange,
      hreach, true_and]
    by_cases hholds : map.model.Holds t (cellAddress d.pduAddressing a) n
    · rw [if_pos hholds, if_pos hholds]
    · rw [if_neg hholds, if_neg hholds]
  · rw [if_neg fun h => hreach h.1, mapAddress_of_not_reachable hreach]
    rfl

variable {bits : List Bool} {words : List UInt16}

theorem writeBits_of_reaches (ht : t.isBits = true) (hn : 0 < bits.length)
    (hs : bits.length < 65536)
    (h : map.model.ReachesRange d.pduAddressing (t, a, bits.length)) :
    ∃ map', (do toAnswer (map.writeBits t (← d.mapAddress a) bits)) = .ok map' ∧
      map'.model = map.model.putBits t (cellAddress d.pduAddressing a) bits ∧
      map'.shape = map.shape := by
  obtain ⟨hreach, hholds⟩ := h
  obtain ⟨c, hc, hval⟩ := mapAddress_of_reachable hreach
  rw [DataModel.holds_bits ht] at hholds
  simp only [← hval] at hholds ⊢
  obtain ⟨map', hwrite, hmodel, hshape⟩ := DataMap.writeBits_of_holds hn hs hholds
  refine ⟨map', ?_, hmodel, hshape⟩
  simp only [hc, bind, Except.bind, hwrite]
  rfl

theorem writeRegisters_of_reaches (ht : t.isBits = false) (hn : 0 < words.length)
    (hs : words.length < 65536)
    (h : map.model.ReachesRange d.pduAddressing (t, a, words.length)) :
    ∃ map', (do toAnswer (map.writeRegisters t (← d.mapAddress a) words)) = .ok map' ∧
      map'.model = map.model.putRegisters t (cellAddress d.pduAddressing a) words ∧
      map'.shape = map.shape := by
  obtain ⟨hreach, hholds⟩ := h
  obtain ⟨c, hc, hval⟩ := mapAddress_of_reachable hreach
  rw [DataModel.holds_registers ht] at hholds
  simp only [← hval] at hholds ⊢
  obtain ⟨map', hwrite, hmodel, hshape⟩ := DataMap.writeRegisters_of_holds hn hs hholds
  refine ⟨map', ?_, hmodel, hshape⟩
  simp only [hc, bind, Except.bind, hwrite]
  rfl

theorem writeBits_of_not_reaches (ht : t.isBits = true) (hn : 0 < bits.length)
    (hs : bits.length < 65536)
    (h : ¬ map.model.ReachesRange d.pduAddressing (t, a, bits.length)) :
    (do toAnswer (map.writeBits t (← d.mapAddress a) bits)) = .error .illegalDataAddress := by
  by_cases hreach : d.pduAddressing = true ∨ a ≠ 65535
  · obtain ⟨c, hc, hval⟩ := mapAddress_of_reachable hreach
    have hholds : ¬ (map.model.bits t).Holds c.toNat bits.length := fun hh =>
      h ⟨hreach, (DataModel.holds_bits ht).mpr (hval ▸ hh)⟩
    rw [hc]
    exact DataMap.answer_writeBits_of_not_holds hn hs hholds
  · rw [mapAddress_of_not_reachable hreach]
    rfl

theorem writeRegisters_of_not_reaches (ht : t.isBits = false) (hn : 0 < words.length)
    (hs : words.length < 65536)
    (h : ¬ map.model.ReachesRange d.pduAddressing (t, a, words.length)) :
    (do toAnswer (map.writeRegisters t (← d.mapAddress a) words)) =
      .error .illegalDataAddress := by
  by_cases hreach : d.pduAddressing = true ∨ a ≠ 65535
  · obtain ⟨c, hc, hval⟩ := mapAddress_of_reachable hreach
    have hholds : ¬ (map.model.registers t).Holds c.toNat words.length := fun hh =>
      h ⟨hreach, (DataModel.holds_registers ht).mpr (hval ▸ hh)⟩
    rw [hc]
    exact DataMap.answer_writeRegisters_of_not_holds hn hs hholds
  · rw [mapAddress_of_not_reachable hreach]
    rfl

/-! ### Preparing -/

variable {r : Request}

/-- A request whose ranges are there does its writes and nothing else. -/
theorem prepare_of_reaches (hl : r.WithinLimits)
    (h : map.model.Reaches d.pduAddressing r) :
    ∃ map', d.prepare map r = .ok map' ∧
      map'.model = map.model.written d.pduAddressing r ∧ map'.shape = map.shape := by
  cases r with
  | readCoils a n | readDiscreteInputs a n | readInputRegisters a n | readHoldingRegisters a n =>
    have hrange := h _ (List.mem_singleton.mpr rfl)
    exact ⟨map, by rw [prepare, check_bind _ hl.1 n.toNat_lt, if_pos hrange]; rfl, rfl, rfl⟩
  | writeSingleCoil a bit =>
    have hrange := h _ (List.mem_singleton.mpr rfl)
    exact writeBits_of_reaches rfl (Nat.zero_lt_one : 0 < [bit].length) (by simp) hrange
  | writeMultipleCoils a bits =>
    have hrange := h _ (List.mem_singleton.mpr rfl)
    exact writeBits_of_reaches rfl hl.1 (by have := hl.2; omega) hrange
  | writeSingleRegister a word =>
    have hrange := h _ (List.mem_singleton.mpr rfl)
    exact writeRegisters_of_reaches rfl (Nat.zero_lt_one : 0 < [word].length) (by simp) hrange
  | writeMultipleRegisters a words =>
    have hrange := h _ (List.mem_singleton.mpr rfl)
    exact writeRegisters_of_reaches rfl hl.1 (by have := hl.2; omega) hrange
  | maskWriteRegister a andMask orMask =>
    obtain ⟨hreach, hholds⟩ := h _ (List.mem_singleton.mpr rfl)
    obtain ⟨c, hc, hval⟩ := mapAddress_of_reachable hreach
    rw [DataModel.holds_registers rfl] at hholds
    simp only [← hval] at hholds
    have hread := DataMap.answer_readRegisters (m := map) (t := .holdingRegister) (a := c)
      (n := 1) (by decide) (by decide)
    rw [if_pos hholds] at hread
    have hlength : (((map.model.registers .holdingRegister).cells c.toNat 1).map
        (masked · andMask orMask)).length = 1 := by
      rw [List.length_map, Bank.length_cells hholds]
    obtain ⟨map', hwrite, hmodel, hshape⟩ := DataMap.writeRegisters_of_holds (m := map)
      (t := .holdingRegister) (a := c) (by rw [hlength]; decide) (by rw [hlength]; decide)
      (by rwa [hlength])
    refine ⟨map', ?_, ?_, hshape⟩
    · simp only [prepare, hc, bind, Except.bind, hread, hwrite]
      rfl
    · rw [hmodel, DataModel.written, ← hval]
      rfl
  | readWriteRegisters ra n wa words =>
    have hread := h (.holdingRegister, ra, n.toNat) (by simp [Request.ranges])
    have hwrite := h (.holdingRegister, wa, words.length) (by simp [Request.ranges])
    obtain ⟨⟨hn, -⟩, hw, hmax⟩ := hl
    rw [prepare, check_bind _ hn n.toNat_lt, if_pos hread]
    exact writeRegisters_of_reaches rfl hw (by omega) hwrite
  | reportId | custom => exact ⟨map, rfl, rfl, rfl⟩

/-- A request with a range that is not there is an illegal data address. -/
theorem prepare_of_not_reaches (hl : r.WithinLimits)
    (h : ¬ map.model.Reaches d.pduAddressing r) :
    d.prepare map r = .error .illegalDataAddress := by
  cases r with
  | readCoils a n | readDiscreteInputs a n | readInputRegisters a n | readHoldingRegisters a n =>
    simp only [DataModel.Reaches, Request.ranges, List.forall_mem_singleton] at h
    rw [prepare, check_bind _ hl.1 n.toNat_lt, if_neg h]
  | writeSingleCoil a bit =>
    simp only [DataModel.Reaches, Request.ranges, List.forall_mem_singleton] at h
    exact writeBits_of_not_reaches rfl (Nat.zero_lt_one : 0 < [bit].length) (by simp) h
  | writeMultipleCoils a bits =>
    simp only [DataModel.Reaches, Request.ranges, List.forall_mem_singleton] at h
    exact writeBits_of_not_reaches rfl hl.1 (by have := hl.2; omega) h
  | writeSingleRegister a word =>
    simp only [DataModel.Reaches, Request.ranges, List.forall_mem_singleton] at h
    exact writeRegisters_of_not_reaches rfl (Nat.zero_lt_one : 0 < [word].length) (by simp) h
  | writeMultipleRegisters a words =>
    simp only [DataModel.Reaches, Request.ranges, List.forall_mem_singleton] at h
    exact writeRegisters_of_not_reaches rfl hl.1 (by have := hl.2; omega) h
  | maskWriteRegister a andMask orMask =>
    simp only [DataModel.Reaches, Request.ranges, List.forall_mem_singleton] at h
    by_cases hreach : d.pduAddressing = true ∨ a ≠ 65535
    · obtain ⟨c, hc, hval⟩ := mapAddress_of_reachable hreach
      have hholds : ¬ (map.model.registers .holdingRegister).Holds c.toNat 1 := fun hh =>
        h ⟨hreach, (DataModel.holds_registers rfl).mpr (hval ▸ hh)⟩
      have hread := DataMap.answer_readRegisters (m := map) (t := .holdingRegister) (a := c)
        (n := 1) (by decide) (by decide)
      rw [if_neg hholds] at hread
      simp only [prepare, hc, bind, Except.bind, hread]
    · rw [prepare, mapAddress_of_not_reachable hreach]
      rfl
  | readWriteRegisters ra n wa words =>
    obtain ⟨⟨hn, -⟩, hw, hmax⟩ := hl
    simp only [DataModel.Reaches, Request.ranges, List.forall_mem_cons, List.not_mem_nil] at h
    rw [prepare, check_bind _ hn n.toNat_lt]
    by_cases hread : map.model.ReachesRange d.pduAddressing (.holdingRegister, ra, n.toNat)
    · rw [if_pos hread]
      refine writeRegisters_of_not_reaches rfl hw (by omega) fun hwrite => h ⟨hread, hwrite, ?_⟩
      exact fun _ hmem => hmem.elim
    · rw [if_neg hread]
  | reportId | custom => exact (h fun _ hmem => by simp [Request.ranges] at hmem).elim

/-! ### Finishing -/

theorem finishBits_none {a n : UInt16} (ht : t.isBits = true) (hn : 0 < n.toNat)
    (h : map.model.ReachesRange d.pduAddressing (t, a, n.toNat)) :
    d.finishBits map t a n none =
      .ok ((map.model.bits t).cells (cellAddress d.pduAddressing a) n.toNat, map) := by
  obtain ⟨hreach, hholds⟩ := h
  obtain ⟨c, hc, hval⟩ := mapAddress_of_reachable hreach
  rw [DataModel.holds_bits ht] at hholds
  simp only [← hval] at hholds ⊢
  simp only [finishBits, updateBits, hc, bind, Except.bind, pure, Except.pure,
    DataMap.answer_readBits hn n.toNat_lt, if_pos hholds]

theorem finishRegisters_none {a n : UInt16} (ht : t.isBits = false) (hn : 0 < n.toNat)
    (h : map.model.ReachesRange d.pduAddressing (t, a, n.toNat)) :
    d.finishRegisters map t a n none =
      .ok ((map.model.registers t).cells (cellAddress d.pduAddressing a) n.toNat, map) := by
  obtain ⟨hreach, hholds⟩ := h
  obtain ⟨c, hc, hval⟩ := mapAddress_of_reachable hreach
  rw [DataModel.holds_registers ht] at hholds
  simp only [← hval] at hholds ⊢
  simp only [finishRegisters, updateRegisters, hc, bind, Except.bind, pure, Except.pure,
    DataMap.answer_readRegisters hn n.toNat_lt, if_pos hholds]

theorem quantity?_of_lt {n : Nat} (h : n < 65536) : quantity? n = some (UInt16.ofNat n) :=
  if_pos h

/-- A request whose ranges are there and whose writes are done is answered from the map. -/
theorem finish_none (hs : r.IsSupported) (hid : r ≠ .reportId) (hl : r.WithinLimits)
    (h : map.model.Reaches d.pduAddressing r) :
    ∃ response, d.finish map r none = .ok (response, map) ∧
      map.model.response d.pduAddressing d.report r = .ok response ∧ response.size ≤ 253 := by
  cases r with
  | readCoils a n | readDiscreteInputs a n =>
    have hrange := h _ (List.mem_singleton.mpr rfl)
    refine ⟨_, by rw [finish, finishBits_none rfl hl.1 hrange]; rfl, rfl, ?_⟩
    have hlength := Bank.length_cells ((DataModel.holds_bits rfl).mp hrange.2)
    have hmax := hl.2
    simp only [DataModel.bits] at hlength
    rw [Response.size, hlength, packedSize]
    omega
  | readInputRegisters a n | readHoldingRegisters a n =>
    have hrange := h _ (List.mem_singleton.mpr rfl)
    refine ⟨_, by rw [finish, finishRegisters_none rfl hl.1 hrange]; rfl, rfl, ?_⟩
    have hlength := Bank.length_cells ((DataModel.holds_registers rfl).mp hrange.2)
    have hmax := hl.2
    simp only [DataModel.registers] at hlength
    rw [Response.size, hlength]
    omega
  | readWriteRegisters ra n wa words =>
    have hrange := h (.holdingRegister, ra, n.toNat) (by simp [Request.ranges])
    obtain ⟨⟨hn, hmax⟩, -, -⟩ := hl
    refine ⟨_, by rw [finish, finishRegisters_none rfl hn hrange]; rfl, rfl, ?_⟩
    have hlength := Bank.length_cells ((DataModel.holds_registers rfl).mp hrange.2)
    simp only [DataModel.registers] at hlength
    rw [Response.size, hlength]
    omega
  | writeMultipleCoils a bits =>
    have hmax := hl.2
    refine ⟨.writeMultipleCoils a (UInt16.ofNat bits.length), ?_, rfl, by simp [Response.size]⟩
    simp only [finish, Request.echo?, quantity?_of_lt (show bits.length < 65536 by omega)]
    rfl
  | writeMultipleRegisters a words =>
    have hmax := hl.2
    refine ⟨.writeMultipleRegisters a (UInt16.ofNat words.length), ?_, rfl, by simp [Response.size]⟩
    simp only [finish, Request.echo?, quantity?_of_lt (show words.length < 65536 by omega)]
    rfl
  | writeSingleCoil | writeSingleRegister | maskWriteRegister =>
    exact ⟨_, rfl, rfl, by simp [Response.size]⟩
  | reportId => exact (hid rfl).elim
  | custom code data => exact hs.elim

end Device

/-! ### Executing -/

/-- An answer as it can be sent: a response that does not fit into a protocol data unit is a
failure of the device. -/
def Answer.fitted : Answer Response → Answer Response
  | .ok response => if response.size ≤ 253 then .ok response else .error .serverDeviceFailure
  | .error e => .error e

theorem Answer.of_fitted {answer : Answer Response} {response : Response}
    (h : fitted answer = .ok response) : answer = .ok response ∧ response.size ≤ 253 := by
  rcases answer with e | given
  · cases h
  · rw [fitted] at h
    split at h <;> cases h
    exact ⟨rfl, by assumption⟩

namespace Device

variable {d : Device}

/-- Without a client to forward to, a device executes a request as the model of its map does. -/
theorem execute_own (d : Device) (map : DataMap) (r : Request) :
    ∃ result map', d.execute map .own r = .done (result, map') ∧
      (Answer.fitted result, map'.model) = map.model.execute d.pduAddressing d.report r ∧
      map'.shape = map.shape := by
  by_cases hl : r.WithinLimits
  · by_cases hs : r.IsSupported
    · have hcheck := Request.check_of_withinLimits hs hl
      by_cases hid : r = .reportId
      · subst hid
        refine ⟨_, map, rfl, ?_, rfl⟩
        have hreach : map.model.Reaches d.pduAddressing .reportId := by
          simp [DataModel.Reaches, Request.ranges]
        have hsize : 4 + d.report.data.length ≤ 253 ↔ d.report.data.length ≤ 249 := by omega
        simp only [DataModel.execute, hl, hreach, not_true_eq_false, if_false, Answer.fitted,
          Response.size, hsize]
        rfl
      · by_cases hreach : map.model.Reaches d.pduAddressing r
        · obtain ⟨map', hprepare, hmodel, hshape⟩ := prepare_of_reaches hl hreach
          have hreach' := (DataMap.reaches_congr hshape _ r).mpr hreach
          obtain ⟨response, hfinish, hresponse, hsize⟩ := finish_none hs hid hl hreach'
          refine ⟨.ok response, map', ?_, ?_, hshape⟩
          · simp only [execute, hcheck, if_neg hid, hprepare, conclude, hfinish]
            rfl
          · simp only [DataModel.execute, hl, hreach, not_true_eq_false, if_false, ← hmodel,
              hresponse, Answer.fitted, if_pos hsize]
        · refine ⟨.error .illegalDataAddress, map, ?_, ?_, rfl⟩
          · simp only [execute, hcheck, if_neg hid, prepare_of_not_reaches hl hreach]
            rfl
          · simp only [DataModel.execute, hl, hreach, not_true_eq_false, not_false_eq_true,
              if_false, if_true, Answer.fitted]
    · cases r with
      | custom code data =>
        have hreach : map.model.Reaches d.pduAddressing (.custom code data) := by
          simp [DataModel.Reaches, Request.ranges]
        refine ⟨_, map, rfl, ?_, rfl⟩
        simp only [DataModel.execute, hl, hreach, not_true_eq_false, if_false]
        rfl
      | _ => exact (hs trivial).elim
  · refine ⟨.error .illegalDataValue, map, ?_, ?_, rfl⟩
    · simp only [execute, Request.check_of_not_withinLimits hl]
    · simp only [DataModel.execute, hl, not_false_eq_true, if_true, Answer.fitted]

/-- What a device makes of a request with nothing but its own map: the answer, and the map after
it. -/
def alone (d : Device) (r : Request) : Answer Response × DataMap :=
  (d.execute d.map .own r).result fun _ => .error .gatewayPathUnavailable

theorem execute_eq_done_alone (d : Device) (r : Request) :
    d.execute d.map .own r = .done (d.alone r) := by
  obtain ⟨result, map, hexecute, -⟩ := execute_own d d.map r
  rw [alone, hexecute]
  rfl

end Device

end Modbus

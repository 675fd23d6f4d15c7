import Modbus.Client.Access
import Modbus.Proofs.Link.Faultless
import Modbus.Proofs.Pair.Call

/-! The operations of clients, each with the type of what it returns. What an operation comes to is
said twice: by the request that it sends, and by direct access to the cells at the addresses that
the caller gives. A device that executes the request answers what direct access gives. -/

namespace Modbus

/-- An operation with its arguments. The addresses are those of the caller. -/
inductive Operation : Type → Type where
  | readCoils (address quantity : UInt16) : Operation (List Bool)
  | readDiscreteInputs (address quantity : UInt16) : Operation (List Bool)
  | readInputRegisters (address quantity : UInt16) : Operation (List UInt16)
  | readHoldingRegisters (address quantity : UInt16) : Operation (List UInt16)
  | writeThenRead (writeAddress : UInt16) (words : List UInt16) (readAddress quantity : UInt16) :
    Operation (List UInt16)
  | reportId : Operation (List UInt8)
  | writeCoil (address : UInt16) (coil : Bool) : Operation Unit
  | writeRegister (address word : UInt16) : Operation Unit
  | writeCoils (address : UInt16) (coils : List Bool) : Operation Unit
  | writeRegisters (address : UInt16) (words : List UInt16) : Operation Unit
  | maskRegister (address andMask orMask : UInt16) : Operation Unit

namespace Operation

variable {α σ : Type}

/-- Carries an operation out through a client. -/
def run (a : Access σ) (unit : UnitId) : Operation α → EStateM Error σ (Answer α)
  | readCoils address quantity => a.readCoils unit address quantity
  | readDiscreteInputs address quantity => a.readDiscreteInputs unit address quantity
  | readInputRegisters address quantity => a.readInputRegisters unit address quantity
  | readHoldingRegisters address quantity => a.readHoldingRegisters unit address quantity
  | writeThenRead writeAddress words readAddress quantity =>
    a.writeThenRead unit writeAddress words readAddress quantity
  | reportId => a.reportId unit
  | writeCoil address coil => a.writeCoil unit address coil
  | writeRegister address word => a.writeRegister unit address word
  | writeCoils address coils => a.writeCoils unit address coils
  | writeRegisters address words => a.writeRegisters unit address words
  | maskRegister address andMask orMask => a.maskRegister unit address andMask orMask

/-- The ranges of cells that an operation is about, at the addresses of the caller. -/
def ranges : Operation α → List (Table × UInt16 × Nat)
  | readCoils a n => [(.coil, a, n.toNat)]
  | readDiscreteInputs a n => [(.discreteInput, a, n.toNat)]
  | readInputRegisters a n => [(.inputRegister, a, n.toNat)]
  | readHoldingRegisters a n => [(.holdingRegister, a, n.toNat)]
  | writeThenRead w words r n =>
    [(.holdingRegister, r, n.toNat), (.holdingRegister, w, words.length)]
  | reportId => []
  | writeCoil a _ => [(.coil, a, 1)]
  | writeRegister a _ => [(.holdingRegister, a, 1)]
  | writeCoils a coils => [(.coil, a, coils.length)]
  | writeRegisters a words => [(.holdingRegister, a, words.length)]
  | maskRegister a _ _ => [(.holdingRegister, a, 1)]

/-- The quantities of an operation are what the protocol admits. -/
def WithinLimits : Operation α → Prop
  | readCoils _ n | readDiscreteInputs _ n => 1 ≤ n.toNat ∧ n.toNat ≤ 2000
  | readInputRegisters _ n | readHoldingRegisters _ n => 1 ≤ n.toNat ∧ n.toNat ≤ 125
  | writeThenRead _ words _ n =>
    (1 ≤ words.length ∧ words.length ≤ 121) ∧ 1 ≤ n.toNat ∧ n.toNat ≤ 125
  | writeCoils _ coils => 1 ≤ coils.length ∧ coils.length ≤ 1968
  | writeRegisters _ words => 1 ≤ words.length ∧ words.length ≤ 123
  | _ => True

/-- An operation that a client does not refuse: its quantities are within the limits, and where
addresses start at one, none is zero. -/
def IsValid (pduAddressing : Bool) (op : Operation α) : Prop :=
  op.WithinLimits ∧ ∀ range ∈ op.ranges, pduAddressing = true ∨ range.2.1 ≠ 0

/-- All cells that an operation is about are there. -/
def Reaches (m : DataModel) (op : Operation α) : Prop :=
  ∀ range ∈ op.ranges, m.Holds range.1 range.2.1.toNat range.2.2

instance (m : DataModel) (op : Operation α) : Decidable (op.Reaches m) :=
  inferInstanceAs (Decidable (∀ range ∈ op.ranges, m.Holds range.1 range.2.1.toNat range.2.2))

/-- The cells after an operation. -/
def written (m : DataModel) : Operation α → DataModel
  | writeThenRead w words _ _ => m.putRegisters .holdingRegister w.toNat words
  | writeCoil a coil => m.putBits .coil a.toNat [coil]
  | writeRegister a word => m.putRegisters .holdingRegister a.toNat [word]
  | writeCoils a coils => m.putBits .coil a.toNat coils
  | writeRegisters a words => m.putRegisters .holdingRegister a.toNat words
  | maskRegister a andMask orMask =>
    m.putRegisters .holdingRegister a.toNat
      ((m.holdingRegisters.cells a.toNat 1).map fun v =>
        (v &&& andMask) ||| (orMask &&& ~~~andMask))
  | _ => m

/-- What an operation returns, from the cells after it. -/
def returned (m : DataModel) (report : Report) : Operation α → Answer α
  | readCoils a n => .ok (m.coils.cells a.toNat n.toNat)
  | readDiscreteInputs a n => .ok (m.discreteInputs.cells a.toNat n.toNat)
  | readInputRegisters a n => .ok (m.inputRegisters.cells a.toNat n.toNat)
  | readHoldingRegisters a n => .ok (m.holdingRegisters.cells a.toNat n.toNat)
  | writeThenRead _ _ r n => .ok (m.holdingRegisters.cells r.toNat n.toNat)
  | reportId =>
    if report.data.length ≤ 249 then .ok report.bytes else .error .serverDeviceFailure
  | writeCoil .. | writeRegister .. | writeCoils .. | writeRegisters .. | maskRegister .. => .ok ()

/-- Direct access to the cells of a device: what it returns, and the cells after it. -/
def direct (m : DataModel) (report : Report) (op : Operation α) : Answer α × DataModel :=
  if op.Reaches m then (op.returned (op.written m) report, op.written m)
  else (.error .illegalDataAddress, m)

/-! ### The request of an operation -/

/-- The protocol address for an address of the caller. -/
def protocolAddress (pduAddressing : Bool) (a : UInt16) : UInt16 :=
  if pduAddressing then a else a - 1

/-- The request that an operation sends. -/
def request (pduAddressing : Bool) : Operation α → Request
  | readCoils a n => .readCoils (protocolAddress pduAddressing a) n
  | readDiscreteInputs a n => .readDiscreteInputs (protocolAddress pduAddressing a) n
  | readInputRegisters a n => .readInputRegisters (protocolAddress pduAddressing a) n
  | readHoldingRegisters a n => .readHoldingRegisters (protocolAddress pduAddressing a) n
  | writeThenRead w words r n =>
    .readWriteRegisters (protocolAddress pduAddressing r) n (protocolAddress pduAddressing w) words
  | reportId => .reportId
  | writeCoil a coil => .writeSingleCoil (protocolAddress pduAddressing a) coil
  | writeRegister a word => .writeSingleRegister (protocolAddress pduAddressing a) word
  | writeCoils a coils => .writeMultipleCoils (protocolAddress pduAddressing a) coils
  | writeRegisters a words => .writeMultipleRegisters (protocolAddress pduAddressing a) words
  | maskRegister a andMask orMask =>
    .maskWriteRegister (protocolAddress pduAddressing a) andMask orMask

/-- What an operation makes of the response to its request. -/
def value (pduAddressing : Bool) : Operation α → Response → Except Error α
  | op@(readCoils _ n), response | op@(readDiscreteInputs _ n), response =>
    Access.bitsOf (op.request pduAddressing) response n.toNat
  | op@(readInputRegisters _ n), response | op@(readHoldingRegisters _ n), response
  | op@(writeThenRead _ _ _ n), response =>
    Access.wordsOf (op.request pduAddressing) response n.toNat
  | reportId, response =>
    match response with
    | .reportId report => .ok report.bytes
    | response => .error (.protocol (.functionMismatch .reportId (.ok response)))
  | op@(writeCoil ..), response | op@(writeRegister ..), response | op@(writeCoils ..), response
  | op@(writeRegisters ..), response | op@(maskRegister ..), response =>
    Access.checkEcho (op.request pduAddressing) response

/-- What an operation makes of the answer to its request. -/
def concluded (pduAddressing : Bool) (op : Operation α) : Answer Response → Except Error (Answer α)
  | .ok response => (op.value pduAddressing response).map .ok
  | .error e => .ok (.error e)

variable {pduAddressing : Bool} {op : Operation α}

theorem isSupported_request : (op.request pduAddressing).IsSupported := by
  cases op <;> trivial

theorem withinLimits_request (h : op.WithinLimits) : (op.request pduAddressing).WithinLimits := by
  cases op with
  | writeThenRead => exact ⟨h.2, h.1⟩
  | _ => exact h

/-! ### Running -/

theorem checkQuantity_of_le (function : FunctionCode) (max : Nat) {n : Nat} (h : 1 ≤ n ∧ n ≤ max) :
    Access.checkQuantity function n max = .ok () :=
  if_pos h

theorem checkQuantity_of_not_le (function : FunctionCode) {n max : Nat}
    (h : ¬ (1 ≤ n ∧ n ≤ max)) :
    Access.checkQuantity function n max = .error (.config (.quantity function n)) :=
  if_neg h

theorem protocolAddress_of_valid {a : UInt16} (h : pduAddressing = true ∨ a ≠ 0) :
    Access.protocolAddress pduAddressing a = .ok (protocolAddress pduAddressing a) := by
  unfold Access.protocolAddress protocolAddress
  by_cases hp : pduAddressing = true
  · rw [if_pos hp, if_pos hp]
  · rw [if_neg hp, if_neg hp, if_neg (h.resolve_left hp)]

theorem protocolAddress_of_not_valid {a : UInt16} (h : ¬ (pduAddressing = true ∨ a ≠ 0)) :
    Access.protocolAddress pduAddressing a = .error (.config (.address a)) := by
  have hp : ¬ pduAddressing = true := fun hp => h (.inl hp)
  have ha : a = 0 := by
    by_contra hne
    exact h (.inr hne)
  rw [Access.protocolAddress, if_neg hp, if_pos ha]

/-- A valid operation asks for its request and nothing else. -/
theorem run_of_isValid {a : Access σ} (h : op.IsValid a.pduAddressing) (unit : UnitId) (s : σ) :
    op.run a unit s = a.ask unit (op.request a.pduAddressing) (op.value a.pduAddressing) s := by
  obtain ⟨hlimits, haddresses⟩ := h
  cases op with
  | readCoils address n | readDiscreteInputs address n =>
    have haddress := protocolAddress_of_valid (haddresses _ (List.mem_singleton.mpr rfl))
    have hquantity := fun f => checkQuantity_of_le f maxReadBits hlimits
    simp only [run, Access.readCoils, Access.readDiscreteInputs, Access.readBits, hquantity,
      haddress]
    rfl
  | readInputRegisters address n | readHoldingRegisters address n =>
    have haddress := protocolAddress_of_valid (haddresses _ (List.mem_singleton.mpr rfl))
    have hquantity := fun f => checkQuantity_of_le f maxReadRegisters hlimits
    simp only [run, Access.readInputRegisters, Access.readHoldingRegisters, Access.readRegisters,
      hquantity, haddress]
    rfl
  | writeThenRead w words r n =>
    have hread := protocolAddress_of_valid
      (haddresses (.holdingRegister, r, n.toNat) (by simp [ranges]))
    have hwrite := protocolAddress_of_valid
      (haddresses (.holdingRegister, w, words.length) (by simp [ranges]))
    have hwords := fun f =>
      checkQuantity_of_le f maxReadWriteRegisters hlimits.1
    have hquantity := fun f =>
      checkQuantity_of_le f maxReadRegisters hlimits.2
    simp only [run, Access.writeThenRead, hwords, hquantity, hread, hwrite]
    rfl
  | reportId => rfl
  | writeCoil address coil | writeRegister address word =>
    have haddress := protocolAddress_of_valid (haddresses _ (List.mem_singleton.mpr rfl))
    simp only [run, Access.writeCoil, Access.writeRegister, Access.write, haddress]
    rfl
  | maskRegister address andMask orMask =>
    have haddress := protocolAddress_of_valid (haddresses _ (List.mem_singleton.mpr rfl))
    simp only [run, Access.maskRegister, Access.write, haddress]
    rfl
  | writeCoils address coils =>
    have haddress := protocolAddress_of_valid (haddresses _ (List.mem_singleton.mpr rfl))
    have hquantity := fun f => checkQuantity_of_le f maxWriteBits hlimits
    simp only [run, Access.writeCoils, Access.write, hquantity, haddress]
    rfl
  | writeRegisters address words =>
    have haddress := protocolAddress_of_valid (haddresses _ (List.mem_singleton.mpr rfl))
    have hquantity := fun f =>
      checkQuantity_of_le f maxWriteRegisters hlimits
    simp only [run, Access.writeRegisters, Access.write, hquantity, haddress]
    rfl

theorem readBits_of_not_valid {a : Access σ} {request : UInt16 → UInt16 → Request} {unit : UnitId}
    {address n : UInt16} (s : σ)
    (h : ¬ ((1 ≤ n.toNat ∧ n.toNat ≤ maxReadBits) ∧ (a.pduAddressing = true ∨ address ≠ 0))) :
    ∃ e, a.readBits request unit address n s = .error (.config e) s := by
  by_cases hquantity : 1 ≤ n.toNat ∧ n.toNat ≤ maxReadBits
  · have haddress := protocolAddress_of_not_valid fun haddress => h ⟨hquantity, haddress⟩
    refine ⟨.address address, ?_⟩
    simp only [Access.readBits, checkQuantity_of_le _ _ hquantity, haddress]
    rfl
  · refine ⟨.quantity (request address n).function n.toNat, ?_⟩
    simp only [Access.readBits, checkQuantity_of_not_le _ hquantity]
    rfl

theorem readRegisters_of_not_valid {a : Access σ} {request : UInt16 → UInt16 → Request}
    {unit : UnitId} {address n : UInt16} (s : σ)
    (h : ¬ ((1 ≤ n.toNat ∧ n.toNat ≤ maxReadRegisters) ∧
      (a.pduAddressing = true ∨ address ≠ 0))) :
    ∃ e, a.readRegisters request unit address n s = .error (.config e) s := by
  by_cases hquantity : 1 ≤ n.toNat ∧ n.toNat ≤ maxReadRegisters
  · have haddress := protocolAddress_of_not_valid fun haddress => h ⟨hquantity, haddress⟩
    refine ⟨.address address, ?_⟩
    simp only [Access.readRegisters, checkQuantity_of_le _ _ hquantity, haddress]
    rfl
  · refine ⟨.quantity (request address n).function n.toNat, ?_⟩
    simp only [Access.readRegisters, checkQuantity_of_not_le _ hquantity]
    rfl

theorem write_of_not_valid {a : Access σ} {request : UInt16 → Request} {unit : UnitId}
    {address : UInt16} (s : σ) (h : ¬ (a.pduAddressing = true ∨ address ≠ 0)) :
    a.write request unit address s = .error (.config (.address address)) s := by
  simp only [Access.write, protocolAddress_of_not_valid h]
  rfl

/-- An operation that is not valid is refused by the client itself. -/
theorem run_of_not_isValid {a : Access σ} (h : ¬ op.IsValid a.pduAddressing) (unit : UnitId)
    (s : σ) : ∃ e, op.run a unit s = .error (.config e) s := by
  have hsingle : ∀ range, op.ranges = [range] → op.WithinLimits →
      ¬ (a.pduAddressing = true ∨ range.2.1 ≠ 0) := by
    intro range hranges hlimits haddress
    refine h ⟨hlimits, ?_⟩
    rw [hranges]
    exact List.forall_mem_singleton.mpr haddress
  cases op with
  | readCoils | readDiscreteInputs =>
    exact readBits_of_not_valid s fun hvalid => hsingle _ rfl hvalid.1 hvalid.2
  | readInputRegisters | readHoldingRegisters =>
    exact readRegisters_of_not_valid s fun hvalid => hsingle _ rfl hvalid.1 hvalid.2
  | writeCoil | writeRegister | maskRegister =>
    exact ⟨_, write_of_not_valid s (hsingle _ rfl trivial)⟩
  | writeCoils address coils =>
    by_cases hlimits : 1 ≤ coils.length ∧ coils.length ≤ maxWriteBits
    · refine ⟨.address address, ?_⟩
      simp only [run, Access.writeCoils, checkQuantity_of_le _ _ hlimits]
      exact write_of_not_valid s (hsingle _ rfl hlimits)
    · refine ⟨.quantity .writeMultipleCoils coils.length, ?_⟩
      simp only [run, Access.writeCoils, checkQuantity_of_not_le _ hlimits]
      rfl
  | writeRegisters address words =>
    by_cases hlimits : 1 ≤ words.length ∧ words.length ≤ maxWriteRegisters
    · refine ⟨.address address, ?_⟩
      simp only [run, Access.writeRegisters, checkQuantity_of_le _ _ hlimits]
      exact write_of_not_valid s (hsingle _ rfl hlimits)
    · refine ⟨.quantity .writeMultipleRegisters words.length, ?_⟩
      simp only [run, Access.writeRegisters, checkQuantity_of_not_le _ hlimits]
      rfl
  | reportId => exact (h ⟨trivial, fun _ hmem => by simp [ranges] at hmem⟩).elim
  | writeThenRead w words r n =>
    by_cases hwords : 1 ≤ words.length ∧ words.length ≤ maxReadWriteRegisters
    · by_cases hquantity : 1 ≤ n.toNat ∧ n.toNat ≤ maxReadRegisters
      · by_cases hwrite : a.pduAddressing = true ∨ w ≠ 0
        · have hread : ¬ (a.pduAddressing = true ∨ r ≠ 0) := fun hread =>
            h ⟨⟨hwords, hquantity⟩, by simpa [ranges] using ⟨hread, hwrite⟩⟩
          refine ⟨.address r, ?_⟩
          simp only [run, Access.writeThenRead, checkQuantity_of_le _ _ hwords,
            checkQuantity_of_le _ _ hquantity, protocolAddress_of_valid hwrite,
            protocolAddress_of_not_valid hread]
          rfl
        · refine ⟨.address w, ?_⟩
          simp only [run, Access.writeThenRead, checkQuantity_of_le _ _ hwords,
            checkQuantity_of_le _ _ hquantity, protocolAddress_of_not_valid hwrite]
          rfl
      · refine ⟨.quantity .readWriteRegisters n.toNat, ?_⟩
        simp only [run, Access.writeThenRead, checkQuantity_of_le _ _ hwords,
          checkQuantity_of_not_le _ hquantity]
        rfl
    · refine ⟨.quantity .readWriteRegisters words.length, ?_⟩
      simp only [run, Access.writeThenRead, checkQuantity_of_not_le _ hwords]
      rfl

/-! ### Direct access -/

theorem cellAddress_protocolAddress {a : UInt16} (h : pduAddressing = true ∨ a ≠ 0) :
    cellAddress pduAddressing (protocolAddress pduAddressing a) = a.toNat ∧
      (pduAddressing = true ∨ protocolAddress pduAddressing a ≠ 65535) := by
  unfold cellAddress protocolAddress
  by_cases hp : pduAddressing = true
  · rw [if_pos hp, if_pos hp]
    exact ⟨rfl, .inl hp⟩
  · have ha : a ≠ 0 := h.resolve_left hp
    have hpos : a.toNat ≠ 0 := fun heq => ha (UInt16.toNat_inj.mp heq)
    have hlt : a.toNat < 65536 := a.toNat_lt
    have hval : (a - 1).toNat = a.toNat - 1 := by
      rw [UInt16.toNat_sub_of_le]
      · rfl
      · exact UInt16.le_iff_toNat_le.mpr (show 1 ≤ a.toNat by omega)
    simp only [if_neg hp]
    refine ⟨by omega, .inr fun heq => ?_⟩
    rw [heq] at hval
    have hlast : (65535 : UInt16).toNat = 65535 := rfl
    omega

theorem ranges_request : (op.request pduAddressing).ranges =
    op.ranges.map fun range => (range.1, protocolAddress pduAddressing range.2.1, range.2.2) := by
  cases op <;> rfl

theorem reaches_request {m : DataModel} (h : op.IsValid pduAddressing) :
    m.Reaches pduAddressing (op.request pduAddressing) ↔ op.Reaches m := by
  have hrange : ∀ range ∈ op.ranges, (m.ReachesRange pduAddressing
      (range.1, protocolAddress pduAddressing range.2.1, range.2.2) ↔
        m.Holds range.1 range.2.1.toNat range.2.2) := by
    intro range hmem
    obtain ⟨hcell, hreach⟩ := cellAddress_protocolAddress (h.2 range hmem)
    simp only [DataModel.ReachesRange, hcell, hreach, true_and]
  simp only [DataModel.Reaches, ranges_request, List.forall_mem_map, Reaches]
  exact forall₂_congr hrange

theorem written_request {m : DataModel} (h : op.IsValid pduAddressing) :
    m.written pduAddressing (op.request pduAddressing) = op.written m := by
  obtain ⟨-, haddresses⟩ := h
  cases op with
  | writeCoil a coil | writeRegister a word | writeCoils a coils | writeRegisters a words
  | maskRegister a andMask orMask =>
    have hcell := (cellAddress_protocolAddress (haddresses _ (List.mem_singleton.mpr rfl))).1
    simp only [request, DataModel.written, hcell, written]
  | writeThenRead w words r n =>
    have hcell := (cellAddress_protocolAddress
      (haddresses (.holdingRegister, w, words.length) (by simp [ranges]))).1
    simp only [request, DataModel.written, hcell, written]
  | _ => rfl

theorem bitsOf_padCoils {r : Request} {bits : List Bool} {n : Nat} (h : bits.length = n) :
    Access.bitsOf r (.readCoils (padCoils bits)) n = .ok bits ∧
      Access.bitsOf r (.readDiscreteInputs (padCoils bits)) n = .ok bits := by
  have hbits : Access.checkBits (padCoils bits) n = .ok bits := by
    rw [Access.checkBits, length_padCoils, h, Nat.mul_comm, if_pos rfl, ← h, take_padCoils]
  exact ⟨hbits, hbits⟩

theorem checkEcho_of_echo? {r : Request} {response : Response} (h : r.echo? = some response) :
    Access.checkEcho r response = .ok () := by
  rw [Access.checkEcho, h]
  exact if_pos rfl

/-- What an operation makes of the response to its request is what it returns. -/
theorem concluded_response {m : DataModel} {report : Report} (h : op.IsValid pduAddressing)
    (hreach : op.Reaches m) :
    op.concluded pduAddressing (m.response pduAddressing report (op.request pduAddressing)).padded =
      .ok (op.returned m report) := by
  obtain ⟨hlimits, haddresses⟩ := h
  cases op with
  | readCoils a n | readDiscreteInputs a n =>
    have hcell := (cellAddress_protocolAddress (haddresses _ (List.mem_singleton.mpr rfl))).1
    have hholds := (DataModel.holds_bits rfl).mp (hreach _ (List.mem_singleton.mpr rfl))
    have hlength := Bank.length_cells hholds
    simp only [DataModel.bits] at hlength
    simp only [request, DataModel.response, hcell, Answer.padded, Except.map, Response.padded,
      concluded, value, bitsOf_padCoils hlength, returned]
  | readInputRegisters a n | readHoldingRegisters a n =>
    have hcell := (cellAddress_protocolAddress (haddresses _ (List.mem_singleton.mpr rfl))).1
    have hholds := (DataModel.holds_registers rfl).mp (hreach _ (List.mem_singleton.mpr rfl))
    have hlength := Bank.length_cells hholds
    simp only [DataModel.registers] at hlength
    simp only [request, DataModel.response, hcell, Answer.padded, Except.map, Response.padded,
      concluded, value, Access.wordsOf, Access.checkWords, hlength, if_true, returned]
  | writeThenRead w words r n =>
    have hmem : (Table.holdingRegister, r, n.toNat) ∈ (writeThenRead w words r n).ranges := by
      simp [ranges]
    have hcell := (cellAddress_protocolAddress (haddresses _ hmem)).1
    have hholds := (DataModel.holds_registers rfl).mp (hreach _ hmem)
    have hlength := Bank.length_cells hholds
    simp only [DataModel.registers] at hlength
    simp only at hcell
    simp only [request, DataModel.response, hcell, Answer.padded, Except.map, Response.padded,
      concluded, value, Access.wordsOf, Access.checkWords, hlength, if_true, returned]
  | reportId =>
    by_cases hfits : report.data.length ≤ 249
    · simp only [request, DataModel.response, if_pos hfits, Answer.padded, Except.map,
        Response.padded, concluded, value, returned]
    · simp only [request, DataModel.response, if_neg hfits, Answer.padded, Except.map, concluded,
        returned]
  | writeCoil | writeRegister | maskRegister =>
    simp only [request, DataModel.response, Answer.padded, Except.map, Response.padded, concluded,
      value, Access.checkEcho, Request.echo?, if_true, returned]
  | writeCoils a coils =>
    have hmax := hlimits.2
    have hquantity := Device.quantity?_of_lt (show coils.length < 65536 by omega)
    have hecho : (Request.writeMultipleCoils (protocolAddress pduAddressing a) coils).echo? =
        some (.writeMultipleCoils (protocolAddress pduAddressing a)
          (UInt16.ofNat coils.length)) := by
      rw [Request.echo?, hquantity, Option.map_some]
    simp only [request, DataModel.response, Answer.padded, Except.map, Response.padded, concluded,
      value, checkEcho_of_echo? hecho, returned]
  | writeRegisters a words =>
    have hmax := hlimits.2
    have hquantity := Device.quantity?_of_lt (show words.length < 65536 by omega)
    have hecho : (Request.writeMultipleRegisters (protocolAddress pduAddressing a) words).echo? =
        some (.writeMultipleRegisters (protocolAddress pduAddressing a)
          (UInt16.ofNat words.length)) := by
      rw [Request.echo?, hquantity, Option.map_some]
    simp only [request, DataModel.response, Answer.padded, Except.map, Response.padded, concluded,
      value, checkEcho_of_echo? hecho, returned]

/-- A device that executes the request of a valid operation answers what direct access gives, and
has the cells that direct access leaves. -/
theorem concluded_execute {d : Device} (h : op.IsValid d.pduAddressing) :
    let result := d.map.model.execute d.pduAddressing d.report (op.request d.pduAddressing)
    op.concluded d.pduAddressing result.1.padded = .ok (op.direct d.map.model d.report).1 ∧
      result.2 = (op.direct d.map.model d.report).2 := by
  have hlimits : (op.request d.pduAddressing).WithinLimits := withinLimits_request h.1
  by_cases hreach : op.Reaches d.map.model
  · have hreach' := (reaches_request h).mpr hreach
    have hwritten : op.Reaches (op.written d.map.model) := by
      obtain ⟨map', -, hmodel, hshape⟩ := Device.prepare_of_reaches hlimits hreach'
      rw [written_request h] at hmodel
      rw [← hmodel]
      exact fun range hmem => (DataMap.holds_congr hshape _ _ _).mpr (hreach range hmem)
    simp only [DataModel.execute, hlimits, hreach', not_true_eq_false, if_false, direct,
      if_pos hreach, written_request h, concluded_response h hwritten, and_self]
  · have hreach' := mt (reaches_request h).mp hreach
    simp only [DataModel.execute, hlimits, hreach', not_true_eq_false, not_false_eq_true, if_false,
      if_true, direct, if_neg hreach, and_true]
    rfl

end Operation

end Modbus

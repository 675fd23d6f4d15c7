import Mathlib.Data.List.Basic
import Modbus.Error
import Modbus.Proofs.DataModel.Process
import Modbus.Proofs.Pdu.RoundTrip

/-! Gateways on a data model. A gateway does the writes of a request on its own cells, forwards the
request, and puts the cells that come back into its own before it answers. What it has written
stays, whatever becomes of the request behind it, and cells that come back are used only if they
are as many as were asked for. -/

namespace Modbus

open RangeFault (toAnswer)

/-! ### What comes back -/

namespace Response

/-- The bits that a response carries, if it is one to a read of bits. -/
def bitList? : Response → Option (List Bool)
  | readCoils bits | readDiscreteInputs bits => some bits
  | _ => none

/-- The words that a response carries, if it is one to a read of registers. -/
def wordList? : Response → Option (List UInt16)
  | readInputRegisters words | readHoldingRegisters words | readWriteRegisters words => some words
  | _ => none

variable {response : Response} {n : Nat}

theorem bits_of_some {bits : List Bool}
    (h : response.bitList?.filter (n ≤ ·.length) = some bits) :
    response.bits n = .ok (bits.take n) ∧ (bits.take n).length = n := by
  obtain ⟨hbits, hn⟩ := Option.filter_eq_some_iff.mp h
  rw [decide_eq_true_eq] at hn
  refine ⟨?_, by rw [List.length_take, Nat.min_eq_left hn]⟩
  cases response <;> cases hbits <;> exact if_pos hn

theorem bits_of_none (h : response.bitList?.filter (n ≤ ·.length) = none) :
    response.bits n = .error .serverDeviceFailure := by
  rw [Option.filter_eq_none_iff] at h
  cases response with
  | readCoils bits | readDiscreteInputs bits => exact if_neg (by simpa using h bits rfl)
  | _ => rfl

theorem words_of_some {words : List UInt16}
    (h : response.wordList?.filter (·.length = n) = some words) :
    response.words n = .ok words ∧ words.length = n := by
  obtain ⟨hwords, hn⟩ := Option.filter_eq_some_iff.mp h
  rw [decide_eq_true_eq] at hn
  refine ⟨?_, hn⟩
  cases response <;> cases hwords <;> exact if_pos hn

theorem words_of_none (h : response.wordList?.filter (·.length = n) = none) :
    response.words n = .error .serverDeviceFailure := by
  rw [Option.filter_eq_none_iff] at h
  cases response with
  | readInputRegisters words | readHoldingRegisters words | readWriteRegisters words =>
    exact if_neg (by simpa using h words rfl)
  | _ => rfl

end Response

/-- The response that a gateway gives when its request was answered with `response`: the values that
are asked for, if `response` holds at least as many bits or exactly as many words, or the
confirmation of a write. -/
def Request.confirm? (r : Request) (response : Response) : Option Response :=
  match r with
  | readCoils _ n =>
    (response.bitList?.filter (n.toNat ≤ ·.length)).map fun bits => .readCoils (bits.take n.toNat)
  | readDiscreteInputs _ n =>
    (response.bitList?.filter (n.toNat ≤ ·.length)).map fun bits =>
      .readDiscreteInputs (bits.take n.toNat)
  | readInputRegisters _ n =>
    (response.wordList?.filter (·.length = n.toNat)).map .readInputRegisters
  | readHoldingRegisters _ n =>
    (response.wordList?.filter (·.length = n.toNat)).map .readHoldingRegisters
  | readWriteRegisters _ n _ _ =>
    (response.wordList?.filter (·.length = n.toNat)).map .readWriteRegisters
  | r => r.echo?

namespace DataModel

/-- The model with the values of a response in the cells that the request asks for. -/
def recorded (pduAddressing : Bool) (m : DataModel) : Request → Response → DataModel
  | .readCoils a _, .readCoils bits => m.putBits .coil (cellAddress pduAddressing a) bits
  | .readDiscreteInputs a _, .readDiscreteInputs bits =>
    m.putBits .discreteInput (cellAddress pduAddressing a) bits
  | .readInputRegisters a _, .readInputRegisters words =>
    m.putRegisters .inputRegister (cellAddress pduAddressing a) words
  | .readHoldingRegisters a _, .readHoldingRegisters words
  | .readWriteRegisters a _ _ _, .readWriteRegisters words =>
    m.putRegisters .holdingRegister (cellAddress pduAddressing a) words
  | _, _ => m

/-- What a gateway makes of a request when `heard` is what came of forwarding it: the answer, and
the model after it. The writes of the request are in the model in every case; a failure of the
client, and a response that does not hold what was asked for, are failures of the device. -/
def relay (pduAddressing : Bool) (m : DataModel) (r : Request)
    (heard : Except Error (Answer Response)) : Answer Response × DataModel :=
  let m := m.written pduAddressing r
  match heard with
  | .error _ => (.error .serverDeviceFailure, m)
  | .ok (.error e) => (.error e, m)
  | .ok (.ok response) =>
    match r.confirm? response with
    | none => (.error .serverDeviceFailure, m)
    | some response => (.ok response, m.recorded pduAddressing r response)

variable {pduAddressing : Bool} {m : DataModel} {r : Request} {response confirmed : Response}

theorem relay_of_confirm? (h : r.confirm? response = some confirmed) :
    m.relay pduAddressing r (.ok (.ok response)) =
      (.ok confirmed, (m.written pduAddressing r).recorded pduAddressing r confirmed) := by
  simp only [relay, h]

theorem relay_of_confirm?_eq_none (h : r.confirm? response = none) :
    m.relay pduAddressing r (.ok (.ok response)) =
      (.error .serverDeviceFailure, m.written pduAddressing r) := by
  simp only [relay, h]

/-- What a request that fails behind the gateway has written stays, and nothing else changes. -/
theorem relay_of_error {heard : Except Error (Answer Response)} {e : ExceptionCode}
    (h : (m.relay pduAddressing r heard).1 = .error e) :
    (m.relay pduAddressing r heard).2 = m.written pduAddressing r := by
  rcases heard with e' | e' | response
  · rfl
  · rfl
  · rcases hconfirm : r.confirm? response with _ | confirmed
    · rw [relay_of_confirm?_eq_none hconfirm]
    · rw [relay_of_confirm? hconfirm] at h
      cases h

end DataModel

theorem Bank.cells_put {α : Type} (b : Bank α) (a : Nat) (vs : List α) :
    (b.put a vs).cells a vs.length = vs := by
  have hput : ∀ i ∈ List.range vs.length, b.put a vs (a + i) = vs[i]? := by
    intro i hi
    have hlt := List.mem_range.mp hi
    rw [put, if_pos (by omega), Nat.add_sub_cancel_left]
  rw [cells, List.filterMap_congr hput, Block.filterMap_getElem?, List.take_length]

namespace Device

variable {g : Device} {map : DataMap} {r : Request} {response : Response} {t : Table}
  {a n : UInt16}

/-! ### Finishing -/

theorem finishBits_some {bits : List Bool} (ht : t.isBits = true) (hn : 0 < n.toNat)
    (h : map.model.ReachesRange g.pduAddressing (t, a, n.toNat)) (hlength : bits.length = n.toNat)
    (hbits : response.bits n.toNat = .ok bits) :
    ∃ map', g.finishBits map t a n (some response) = .ok (bits, map') ∧
      map'.model = map.model.putBits t (cellAddress g.pduAddressing a) bits ∧
      map'.shape = map.shape := by
  obtain ⟨hreach, hholds⟩ := h
  obtain ⟨c, hc, hval⟩ := mapAddress_of_reachable hreach
  rw [DataModel.holds_bits ht] at hholds
  simp only [← hval, ← hlength] at hholds hn ⊢
  have hmax : bits.length < 65536 := hlength ▸ n.toNat_lt
  obtain ⟨map', hwrite, hmodel, hshape⟩ := DataMap.writeBits_of_holds hn hmax hholds
  have hread := DataMap.answer_readBits (m := map') (t := t) (a := c) hn hmax
  have hholds' : (map'.model.bits t).Holds c.toNat bits.length := by
    rw [← DataModel.holds_bits ht, DataMap.holds_congr hshape, DataModel.holds_bits ht]
    exact hholds
  have hcells : (map'.model.bits t).cells c.toNat bits.length = bits := by
    rw [hmodel]
    cases t with
    | coil | discreteInput => exact Bank.cells_put _ _ _
    | inputRegister | holdingRegister => cases ht
  rw [if_pos hholds', hcells] at hread
  refine ⟨map', ?_, hmodel, hshape⟩
  have hwrite' : toAnswer (map.writeBits t c bits) = .ok map' := congrArg toAnswer hwrite
  rw [hlength] at hread
  simp only [finishBits, updateBits, hc, bind, Except.bind, hbits, hwrite', hread, pure,
    Except.pure]

theorem finishRegisters_some {words : List UInt16} (ht : t.isBits = false) (hn : 0 < n.toNat)
    (h : map.model.ReachesRange g.pduAddressing (t, a, n.toNat)) (hlength : words.length = n.toNat)
    (hwords : response.words n.toNat = .ok words) :
    ∃ map', g.finishRegisters map t a n (some response) = .ok (words, map') ∧
      map'.model = map.model.putRegisters t (cellAddress g.pduAddressing a) words ∧
      map'.shape = map.shape := by
  obtain ⟨hreach, hholds⟩ := h
  obtain ⟨c, hc, hval⟩ := mapAddress_of_reachable hreach
  rw [DataModel.holds_registers ht] at hholds
  simp only [← hval, ← hlength] at hholds hn ⊢
  have hmax : words.length < 65536 := hlength ▸ n.toNat_lt
  obtain ⟨map', hwrite, hmodel, hshape⟩ := DataMap.writeRegisters_of_holds hn hmax hholds
  have hread := DataMap.answer_readRegisters (m := map') (t := t) (a := c) hn hmax
  have hholds' : (map'.model.registers t).Holds c.toNat words.length := by
    rw [← DataModel.holds_registers ht, DataMap.holds_congr hshape, DataModel.holds_registers ht]
    exact hholds
  have hcells : (map'.model.registers t).cells c.toNat words.length = words := by
    rw [hmodel]
    cases t with
    | inputRegister | holdingRegister => exact Bank.cells_put _ _ _
    | coil | discreteInput => cases ht
  rw [if_pos hholds', hcells] at hread
  refine ⟨map', ?_, hmodel, hshape⟩
  have hwrite' : toAnswer (map.writeRegisters t c words) = .ok map' := congrArg toAnswer hwrite
  rw [hlength] at hread
  simp only [finishRegisters, updateRegisters, hc, bind, Except.bind, hwords, hwrite', hread, pure,
    Except.pure]

theorem finishBits_of_error {e : ExceptionCode} (h : g.pduAddressing = true ∨ a ≠ 65535)
    (hbits : response.bits n.toNat = .error e) :
    g.finishBits map t a n (some response) = .error e := by
  obtain ⟨c, hc, -⟩ := mapAddress_of_reachable h
  simp only [finishBits, updateBits, hc, bind, Except.bind, hbits]

theorem finishRegisters_of_error {e : ExceptionCode} (h : g.pduAddressing = true ∨ a ≠ 65535)
    (hwords : response.words n.toNat = .error e) :
    g.finishRegisters map t a n (some response) = .error e := by
  obtain ⟨c, hc, -⟩ := mapAddress_of_reachable h
  simp only [finishRegisters, updateRegisters, hc, bind, Except.bind, hwords]

/-- A gateway answers with the values that came back, and they are in the cells asked for. -/
theorem finish_of_confirm? (hl : r.WithinLimits) (h : map.model.Reaches g.pduAddressing r)
    {confirmed : Response} (hconfirm : r.confirm? response = some confirmed) :
    ∃ map', g.finish map r (some response) = .ok (confirmed, map') ∧
      map'.model = map.model.recorded g.pduAddressing r confirmed ∧ map'.shape = map.shape := by
  cases r with
  | readCoils | readDiscreteInputs =>
    obtain ⟨bits, hbits, rfl⟩ := Option.map_eq_some_iff.mp hconfirm
    obtain ⟨htake, hlength⟩ := Response.bits_of_some hbits
    obtain ⟨map', hfinish, hmodel, hshape⟩ :=
      finishBits_some rfl hl.1 (h _ (List.mem_singleton.mpr rfl)) hlength htake
    exact ⟨map', by simp only [finish, hfinish]; rfl, hmodel, hshape⟩
  | readInputRegisters | readHoldingRegisters =>
    obtain ⟨words, hwords, rfl⟩ := Option.map_eq_some_iff.mp hconfirm
    obtain ⟨hsame, hlength⟩ := Response.words_of_some hwords
    obtain ⟨map', hfinish, hmodel, hshape⟩ :=
      finishRegisters_some rfl hl.1 (h _ (List.mem_singleton.mpr rfl)) hlength hsame
    exact ⟨map', by simp only [finish, hfinish]; rfl, hmodel, hshape⟩
  | readWriteRegisters =>
    obtain ⟨words, hwords, rfl⟩ := Option.map_eq_some_iff.mp hconfirm
    obtain ⟨hsame, hlength⟩ := Response.words_of_some hwords
    obtain ⟨map', hfinish, hmodel, hshape⟩ :=
      finishRegisters_some rfl hl.1.1 (h (.holdingRegister, _, _) List.mem_cons_self) hlength hsame
    exact ⟨map', by simp only [finish, hfinish]; rfl, hmodel, hshape⟩
  | reportId | custom => cases hconfirm
  | writeSingleCoil | writeMultipleCoils | writeSingleRegister | writeMultipleRegisters
  | maskWriteRegister =>
    simp only [Request.confirm?] at hconfirm
    refine ⟨map, ?_, rfl, rfl⟩
    simp only [finish, hconfirm]
    rfl

/-- A response that does not hold what is asked for is a failure of the device. -/
theorem finish_of_confirm?_eq_none (hs : r.IsSupported) (hid : r ≠ .reportId)
    (hl : r.WithinLimits) (h : map.model.Reaches g.pduAddressing r)
    (hconfirm : r.confirm? response = none) :
    g.finish map r (some response) = .error .serverDeviceFailure := by
  cases r with
  | readCoils | readDiscreteInputs =>
    have hbits := Response.bits_of_none (Option.map_eq_none_iff.mp hconfirm)
    have hreach := (h _ (List.mem_singleton.mpr rfl)).1
    simp only [finish, finishBits_of_error hreach hbits]
    rfl
  | readInputRegisters | readHoldingRegisters =>
    have hwords := Response.words_of_none (Option.map_eq_none_iff.mp hconfirm)
    have hreach := (h _ (List.mem_singleton.mpr rfl)).1
    simp only [finish, finishRegisters_of_error hreach hwords]
    rfl
  | readWriteRegisters =>
    have hwords := Response.words_of_none (Option.map_eq_none_iff.mp hconfirm)
    have hreach := (h (.holdingRegister, _, _) List.mem_cons_self).1
    simp only [finish, finishRegisters_of_error hreach hwords]
    rfl
  | writeSingleCoil | writeSingleRegister | maskWriteRegister => cases hconfirm
  | writeMultipleCoils | writeMultipleRegisters =>
    have hmax := hl.2
    simp only [Request.confirm?, Request.echo?] at hconfirm
    rw [quantity?_of_lt (by omega)] at hconfirm
    cases hconfirm
  | reportId => exact (hid rfl).elim
  | custom => exact hs.elim

/-- What a gateway answers when a request comes back fits into a protocol data unit. -/
theorem size_of_confirm? {confirmed : Response} (hl : r.WithinLimits)
    (h : r.confirm? response = some confirmed) : confirmed.size ≤ 253 := by
  cases r with
  | readCoils | readDiscreteInputs =>
    obtain ⟨bits, hbits, rfl⟩ := Option.map_eq_some_iff.mp h
    have hlength := (Response.bits_of_some hbits).2
    have hmax := hl.2
    rw [Response.size, hlength, packedSize]
    omega
  | readInputRegisters | readHoldingRegisters =>
    obtain ⟨words, hwords, rfl⟩ := Option.map_eq_some_iff.mp h
    have hlength := (Response.words_of_some hwords).2
    have hmax := hl.2
    rw [Response.size, hlength]
    omega
  | readWriteRegisters =>
    obtain ⟨words, hwords, rfl⟩ := Option.map_eq_some_iff.mp h
    have hlength := (Response.words_of_some hwords).2
    have hmax := hl.1.2
    rw [Response.size, hlength]
    omega
  | reportId | custom => cases h
  | writeSingleCoil | writeSingleRegister | maskWriteRegister | writeMultipleCoils
  | writeMultipleRegisters =>
    simp only [Request.confirm?] at h
    exact Request.size_of_echo? h

/-! ### Executing -/

/-- A gateway forwards the request, if it has a client to forward to. -/
structure Forwards (g : Device) (r : Request) : Prop where
  supported : r.IsSupported
  withinLimits : r.WithinLimits
  ne_reportId : r ≠ .reportId
  reaches : g.map.model.Reaches g.pduAddressing r

instance : DecidablePred Request.IsSupported
  | .custom .. => inferInstanceAs (Decidable False)
  | .readCoils .. | .readDiscreteInputs .. | .readInputRegisters .. | .readHoldingRegisters ..
  | .writeSingleCoil .. | .writeSingleRegister .. | .writeMultipleCoils ..
  | .writeMultipleRegisters .. | .reportId | .maskWriteRegister .. | .readWriteRegisters .. =>
    inferInstanceAs (Decidable True)

instance (g : Device) (r : Request) : Decidable (g.Forwards r) :=
  decidable_of_iff
    (r.IsSupported ∧ r.WithinLimits ∧ r ≠ .reportId ∧ g.map.model.Reaches g.pduAddressing r)
    ⟨fun ⟨hs, hl, hid, h⟩ => ⟨hs, hl, hid, h⟩,
      fun h => ⟨h.supported, h.withinLimits, h.ne_reportId, h.reaches⟩⟩

/-- What a gateway hears from its client: a failure of the client is one of the device. -/
def heardFrom : Except Error (Answer Response) → Answer Response
  | .ok answer => answer
  | .error _ => .error .serverDeviceFailure

/-- What a gateway gives for the answer that comes back to a request, whose writes are in `map`. -/
def resumed (g : Device) (map : DataMap) (r : Request) :
    Answer Response → Answer Response × DataMap
  | .error e => (.error e, map)
  | .ok response => g.conclude map r (some response)

/-- A request that is forwarded is forwarded once and as it came, and what comes of it is what the
data model makes of it. -/
theorem execute_of_forwards (h : g.Forwards r) :
    ∃ resume, g.execute g.map .forward r = .ask [] r resume ∧
      ∀ heard : Except Error (Answer Response), ∃ answer map',
        resume (heardFrom heard) = (answer, map') ∧
        (answer, map'.model) = g.map.model.relay g.pduAddressing r heard ∧
        map'.shape = g.map.shape ∧ Answer.fitted answer = answer := by
  obtain ⟨hs, hl, hid, hreach⟩ := h
  obtain ⟨written, hprepare, hmodel, hshape⟩ := prepare_of_reaches hl hreach
  have hreach' := (DataMap.reaches_congr hshape _ r).mpr hreach
  have hcheck := Request.check_of_withinLimits hs hl
  refine ⟨g.resumed written r, ?_, fun heard => ?_⟩
  · simp only [execute, hcheck, if_neg hid, hprepare, reduceCtorEq, if_false, if_true]
    refine congrArg (Plan.ask [] r) (funext fun answer => ?_)
    rcases answer with e | response <;> rfl
  rcases heard with e | e | response
  · exact ⟨_, written, rfl, by rw [hmodel]; rfl, hshape, rfl⟩
  · exact ⟨_, written, rfl, by rw [hmodel]; rfl, hshape, rfl⟩
  · -- What is checked on the way back is checked after the writes, so they stay in either case.
    rcases hconfirm : r.confirm? response with _ | confirmed
    · have hfinish := finish_of_confirm?_eq_none hs hid hl hreach' hconfirm
      refine ⟨.error .serverDeviceFailure, written, ?_, ?_, hshape, rfl⟩
      · simp only [heardFrom, resumed, conclude, hfinish]
      · rw [DataModel.relay_of_confirm?_eq_none hconfirm, hmodel]
    · obtain ⟨map', hfinish, hrecorded, hshape'⟩ := finish_of_confirm? hl hreach' hconfirm
      refine ⟨.ok confirmed, map', ?_, ?_, hshape'.trans hshape, ?_⟩
      · simp only [heardFrom, resumed, conclude, hfinish]
      · rw [DataModel.relay_of_confirm? hconfirm, hrecorded, hmodel]
      · rw [Answer.fitted, if_pos (size_of_confirm? hl hconfirm)]

/-- A request that is not forwarded leaves the map alone, and only a report is given without asking
the client. -/
theorem execute_of_not_forwards {route : Route} (hroute : route ≠ .own)
    (h : route = .forward → ¬ g.Forwards r) :
    ∃ answer, g.execute g.map route r = .done (answer, g.map) ∧
      ∀ response, answer = .ok response → r = .reportId ∧ response = .reportId g.report := by
  by_cases hs : r.IsSupported
  · by_cases hl : r.WithinLimits
    · have hcheck := Request.check_of_withinLimits hs hl
      by_cases hid : r = .reportId
      · refine ⟨.ok (.reportId g.report), by simp only [execute, hcheck, if_pos hid], ?_⟩
        rintro _ ⟨⟩
        exact ⟨hid, rfl⟩
      · cases route with
        | own => exact (hroute rfl).elim
        | broken =>
          refine ⟨.error .gatewayPathUnavailable, ?_, by rintro _ ⟨⟩⟩
          simp only [execute, hcheck, if_neg hid, if_true]
        | forward =>
          have hreach : ¬ g.map.model.Reaches g.pduAddressing r :=
            fun hreach => h rfl ⟨hs, hl, hid, hreach⟩
          refine ⟨.error .illegalDataAddress, ?_, by rintro _ ⟨⟩⟩
          simp only [execute, hcheck, if_neg hid, prepare_of_not_reaches hl hreach, reduceCtorEq,
            if_false]
    · refine ⟨.error .illegalDataValue, ?_, by rintro _ ⟨⟩⟩
      simp only [execute, Request.check_of_not_withinLimits hl]
  · refine ⟨.error .illegalFunction, ?_, by rintro _ ⟨⟩⟩
    simp only [execute, Request.check_of_not_isSupported hs]

end Device

end Modbus

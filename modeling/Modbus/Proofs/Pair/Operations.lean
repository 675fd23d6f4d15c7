import Modbus.Proofs.Client.Operation

/-! Operations on a local device through a client and a server whose links work. They come to what
direct access to the cells of the device comes to, at the addresses that the caller gives. -/

namespace Modbus

theorem Request.size_of_withinLimits {r : Request} (hs : r.IsSupported) (h : r.WithinLimits) :
    r.size ≤ 253 := by
  cases r with
  | custom code data => exact hs.elim
  | writeMultipleCoils a coils =>
    have hmax := h.2
    simp only [size, packedSize]
    omega
  | writeMultipleRegisters a words =>
    have hmax := h.2
    simp only [size]
    omega
  | readWriteRegisters ra n wa words =>
    have hmax := h.2.2
    simp only [size]
    omega
  | _ => simp only [size, Nat.reduceLeDiff]

namespace Pair

variable {interval : Nat} {p : Pair} {unit : UnitId} {d : Device} {α : Type}

theorem ask_of_call {op : Operation α} {request : Request} {answer : Answer Response}
    {result : Answer α} {p p' : Pair} {a : Access Pair}
    (hcall : a.call unit request p = .ok answer p')
    (hresult : op.concluded a.pduAddressing answer = .ok result) :
    a.ask unit request (op.value a.pduAddressing) p = .ok result p' := by
  rw [Access.ask, run_bind hcall]
  rcases answer with e | response
  · cases hresult
    rfl
  · rcases hvalue : op.value a.pduAddressing response with error | v
    · rw [Operation.concluded, hvalue] at hresult
      cases hresult
    · rw [Operation.concluded, hvalue] at hresult
      cases hresult
      simp only [hvalue]
      rfl

/-- An operation on a local device whose addresses its client counts in the same way. If it is
valid, it returns what direct access to the cells returns, and the device has the cells that
direct access leaves. If it is not, it is refused and nothing has happened. -/
theorem run_of_ready (h : p.Ready interval) (hd : p.server.device? unit = some d)
    (hlocal : d.IsLocal) (hunit : unit.isRegistrable = true)
    (hmode : p.client.pduAddressing = d.pduAddressing) (op : Operation α) :
    let direct := op.direct d.map.model d.report
    (op.IsValid d.pduAddressing → ∃ map p', op.run (p.access interval) unit p = .ok direct.1 p' ∧
      map.model = direct.2 ∧ map.shape = d.map.shape ∧ p'.Ready interval ∧ Serves d map p p') ∧
    (¬ op.IsValid d.pduAddressing →
      ∃ e, op.run (p.access interval) unit p = .error (.config e) p) := by
  intro direct
  have hmode' : (p.access interval).pduAddressing = d.pduAddressing := hmode
  constructor
  · intro hvalid
    have hlimits : (op.request d.pduAddressing).WithinLimits :=
      Operation.withinLimits_request hvalid.1
    have hsize := Request.size_of_withinLimits Operation.isSupported_request hlimits
    obtain ⟨hconcluded, hmodel⟩ := Operation.concluded_execute hvalid
    obtain ⟨map, p', hcall, hmap, hshape, hready, hserves⟩ := call_of_ready h hd hlocal
      (UnitId.isBroadcast_of_isRegistrable hunit) Operation.isSupported_request hsize
    refine ⟨map, p', ?_, hmap.trans hmodel, hshape, hready, hserves⟩
    rw [Operation.run_of_isValid (hmode' ▸ hvalid)]
    rw [← hmode'] at hcall hconcluded
    exact ask_of_call hcall hconcluded
  · intro hinvalid
    exact Operation.run_of_not_isValid (hmode' ▸ hinvalid) unit p

/-- Four registers from address 1 on behind a serial line: the second is written, and the first
three are read. -/
theorem run_of_ready_registers :
    let d := (Device.ofId ⟨7⟩).declare .holdingRegister 4 1
    let client := Client.ofTransport ⟨.attached .rtu true, .quiet "client"⟩ .standard false
    let server := Server.ofTransport ⟨.attached .rtu true, .quiet "server"⟩ .standard
    let p : Pair := ⟨client, { server with devices := [d], isOpen := true }, .direct, .direct⟩
    let op := Operation.writeThenRead 2 [5] 1 3
    (p.Ready 20 ∧ p.server.device? ⟨7⟩ = some d ∧ d.IsLocal ∧ op.IsValid d.pduAddressing) ∧
      ∃ p', op.run (p.access 20) ⟨7⟩ p = .ok (.ok [0, 5, 0]) p' ∧ p'.Ready 20 := by
  intro d client server p op
  have hready : p.Ready 20 :=
    ⟨⟨⟨fun _ => rfl, .inr ⟨rfl, rfl⟩⟩, rfl⟩, ⟨⟨fun _ => rfl, .inr ⟨rfl, rfl⟩⟩, rfl⟩, rfl, rfl,
      Pipe.inTime_direct _ _, Pipe.inTime_direct _ _⟩
  have hd : p.server.device? ⟨7⟩ = some d := rfl
  have hlocal : d.IsLocal := ⟨rfl, rfl, rfl⟩
  have hvalid : op.IsValid d.pduAddressing := by
    refine ⟨⟨by decide, by decide⟩, ?_⟩
    intro range hmem
    simp only [op, Operation.ranges, List.mem_cons, List.not_mem_nil, or_false] at hmem
    rcases hmem with rfl | rfl
    · exact .inr (by decide)
    · exact .inr (by decide)
  obtain ⟨map, p', hrun, -, -, hready', -⟩ :=
    (run_of_ready hready hd hlocal (by decide) rfl op).1 hvalid
  have hdirect : (op.direct d.map.model d.report).1 = .ok [0, 5, 0] := by decide
  rw [hdirect] at hrun
  exact ⟨⟨hready, hd, hlocal, hvalid⟩, p', hrun, hready'⟩

end Pair

end Modbus

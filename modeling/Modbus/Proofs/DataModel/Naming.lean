import Modbus.Proofs.DataModel.Process
import Modbus.Proofs.Pdu.Canonical

/-! Answers name the function of their request. Whatever a message asks, whatever the device is, and
whatever comes back to a gateway, a device without callbacks has a reply to it that fits into a
protocol data unit and is about the function of the message. -/

namespace Modbus

namespace Request

variable {r : Request} {response : Response}

theorem function_of_ofPdu {pdu : List UInt8} (h : ofPdu pdu = .ok r) :
    r.function = .ofCode (pdu.headD 0) := by
  have hspelled := toOption_ofPdu pdu
  rw [h] at hspelled
  rcases pdu with _ | ⟨code, fields⟩
  · cases hspelled
  · rw [spelled?] at hspelled
    split at hspelled
    · cases hspelled
    · exact (of_spelledBy? hspelled.symm).1

theorem function_of_echo? (h : r.echo? = some response) : response.function = r.function := by
  cases r with
  | writeMultipleCoils | writeMultipleRegisters =>
    obtain ⟨n, -, rfl⟩ := Option.map_eq_some_iff.mp h
    rfl
  | writeSingleCoil | writeSingleRegister | maskWriteRegister =>
    cases h
    rfl
  | _ => cases h

end Request

namespace Message

/-- An answer that is an exception is marked as one, and no other answer is. -/
theorem isException_answered_error (message : Message) (e : ExceptionResponse) :
    (message.answered (.error e)).isException = true := by
  have hall : ∀ n : Fin 256, 0x80 ≤ UInt8.ofFin n ||| 0x80 := by decide +kernel
  exact decide_eq_true (hall e.function.code.toFin)

theorem isException_answered_ok (message : Message) (response : Response) :
    (message.answered (.ok response)).isException = false :=
  decide_eq_false (UInt8.not_le.mpr response.code_function_lt)

/-- A message that asks for something is not marked as an exception. -/
theorem isException_of_request {message : Message} {r : Request} (h : message.request = .ok r) :
    message.isException = false := by
  have hcode : message.functionCode = r.function.code := by
    rw [Request.function_of_ofPdu h, FunctionCode.code_ofCode]
    rfl
  have hlt := Request.code_function_lt (Request.of_ofPdu h).2.1
  exact decide_eq_false (UInt8.not_le.mpr (hcode ▸ hlt))

end Message

/-- What is carried out is the plan with some answer to what it asks. -/
theorem Plan.exists_result_eq_run {α σ : Type} (plan : Plan α) (note : List String → σ → σ)
    (call : Request → σ → Answer Response × σ) (s : σ) :
    ∃ answer, (plan.run note call s).1 = plan.result answer := by
  cases plan with
  | done result => exact ⟨fun _ => .error .illegalFunction, rfl⟩
  | ask notes request resume => exact ⟨fun request => (call request (note notes s)).1, rfl⟩

namespace Device

variable {d : Device} {map map' : DataMap} {r : Request} {response : Response}

theorem function_of_finish {forwarded : Option Response}
    (h : d.finish map r forwarded = .ok (response, map')) : response.function = r.function := by
  cases r with
  | readCoils a n | readDiscreteInputs a n =>
    rw [finish] at h
    rcases hbits : d.finishBits map _ a n forwarded with e | ⟨bits, map''⟩ <;> rw [hbits] at h <;>
      cases h
    rfl
  | readInputRegisters a n | readHoldingRegisters a n | readWriteRegisters a n w words =>
    rw [finish] at h
    rcases hwords : d.finishRegisters map _ a n forwarded with e | ⟨words, map''⟩ <;>
      rw [hwords] at h <;> cases h
    rfl
  | writeSingleCoil | writeSingleRegister | maskWriteRegister | writeMultipleCoils
  | writeMultipleRegisters | reportId | custom =>
    simp only [finish] at h
    split at h
    · rename_i hecho
      cases h
      exact Request.function_of_echo? hecho
    · cases h

theorem function_of_conclude {forwarded : Option Response}
    (h : (d.conclude map r forwarded).1 = .ok response) : response.function = r.function := by
  rw [conclude] at h
  split at h
  · rename_i hfinish
    cases h
    exact function_of_finish hfinish
  · cases h

theorem function_of_execute {route : Route} {answer : Request → Answer Response}
    (h : ((d.execute map route r).result answer).1 = .ok response) :
    response.function = r.function := by
  rw [execute] at h
  split at h
  · cases h
  · split at h
    · rename_i hid
      cases h
      rw [hid]
      rfl
    · split at h
      · cases h
      · split at h
        · cases h
        · split at h
          · rw [Plan.result] at h
            split at h
            · cases h
            · exact function_of_conclude h
          · exact function_of_conclude h

theorem function_of_executeMessage {route : Route} {answer : Request → Answer Response}
    {message : Message}
    (h : ((d.executeMessage map route message).result answer).1 = .ok response) :
    response.function = .ofCode message.functionCode := by
  rw [executeMessage] at h
  split at h
  · cases h
  · rename_i hrequest
    exact (function_of_execute h).trans (Request.function_of_ofPdu hrequest)

end Device

/-- A device without callbacks has a reply to every message. It fits, and it is about the function
of the message. -/
theorem Device.exists_reply {d : Device} (hd : d.IsPlain) (peer : Peer) (route : Route)
    (message : Message) (answer : Request → Answer Response) :
    ∃ reply : Reply, ((d.process peer route message).result answer).reply =
        some (message.answered reply) ∧
      reply.size ≤ 253 ∧ reply.function = .ofCode message.functionCode := by
  rw [process_of_isPlain hd, Plan.result_map]
  refine ⟨_, rfl, ?_⟩
  rcases hfitted : Answer.fitted ((d.executeMessage d.map route message).result answer).1
    with e | response
  · exact ⟨show 2 ≤ 253 by decide, rfl⟩
  · obtain ⟨hexecuted, hsize⟩ := Answer.of_fitted hfitted
    exact ⟨hsize, function_of_executeMessage hexecuted⟩

end Modbus

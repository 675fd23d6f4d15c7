import Modbus.Proofs.DataModel.Naming
import Modbus.Server.Basic

/-! What a server does about a request: what holds of each of its steps holds of the whole, and the
reply, if there is one, answers the request. -/

namespace Modbus

namespace Server

variable {s : Server} {d : Device} {peer : Peer} {message : Message}

theorem mem_devices_of_target? {unit : UnitId} (h : s.target? unit = some d) : d ∈ s.devices := by
  rw [target?] at h
  split at h
  · rename_i hd
    cases h
    exact List.mem_of_find?_eq_some hd
  · split at h
    · rename_i hdevices
      split at h
      · cases h
        rw [hdevices]
        exact List.mem_singleton_self d
      · cases h
    · cases h

/-! ### Steps -/

section

variable {R : Server → Server → Prop} [IsPreorder Server R] {P : Device → Prop}
  (hforward : ∀ (d : Device) id unit request s, P d → d.forwardsTo = some id →
    R s (forward id unit request s).2)
  (hnote : ∀ notes (s : Server), R s (s.withJournal (s.journal.addNotes notes)))
  (hput : ∀ (s : Server) (d : Device) map, P d → R s (s.putDevice { d with map }))
include hforward hnote hput

theorem related_serve (hd : P d) (s : Server) (peer : Peer) (message : Message) :
    R s (s.serve peer d message).2 := by
  have hrun : ∀ (plan : Plan Served) (call : Request → Server → Answer Response × Server),
      (∀ request s, R s (call request s).2) →
      R s (plan.run (fun notes s => s.withJournal (s.journal.addNotes notes)) call s).2 := by
    intro plan call hcall
    cases plan with
    | done result => exact refl s
    | ask notes request resume => exact IsTrans.trans _ _ _ (hnote notes s) (hcall request _)
  rw [serve]
  refine IsTrans.trans _ _ _ (hrun _ _ fun request s => ?_)
    (IsTrans.trans _ _ _ (hput _ d _ hd) (hnote _ _))
  split
  · exact refl s
  · rename_i id hid
    exact hforward d id _ _ _ hd hid

theorem related_broadcast (hs : ∀ d ∈ s.devices, P d) (peer : Peer) (message : Message) :
    R s (s.broadcast peer message) := by
  rw [broadcast]
  -- The devices that are served are those that were there first.
  generalize s.devices = devices at hs
  induction devices generalizing s with
  | nil => exact refl s
  | cons d rest ih =>
    obtain ⟨hd, hrest⟩ := List.forall_mem_cons.mp hs
    exact IsTrans.trans _ _ _ (related_serve hforward hnote hput hd s peer message) (ih hrest)

theorem related_dispatch (hs : ∀ d ∈ s.devices, P d) (peer : Peer) (message : Message) :
    R s (s.dispatch peer message).2 := by
  rw [dispatch]
  split
  · exact refl s
  · split
    · split
      · split
        · exact related_broadcast hforward hnote hput hs peer message
        · exact refl s
      · exact refl s
    · split
      · rename_i d htarget
        have hserve := related_serve hforward hnote hput (hs d (mem_devices_of_target? htarget)) s
          peer message
        split
        · rename_i heq
          rw [heq] at hserve
          exact hserve
        · rename_i heq
          rw [heq] at hserve
          exact hserve
      · split <;> exact refl s

end

/-! ### Replies -/

/-- A device without callbacks has a reply to every message. -/
theorem exists_reply_serve (hd : d.IsPlain) (s : Server) (peer : Peer) (message : Message) :
    ∃ reply : Reply, (s.serve peer d message).1 = some (message.answered reply) ∧
      reply.size ≤ 253 ∧ reply.function = .ofCode message.functionCode := by
  have hserve : ∃ answer, (s.serve peer d message).1 =
      ((d.process peer (s.route d) message).result answer).reply := by
    rw [serve]
    exact (Plan.exists_result_eq_run _ _ _ s).imp fun _ hrun => congrArg Served.reply hrun
  obtain ⟨answer, hanswer⟩ := hserve
  rw [hanswer]
  exact Device.exists_reply hd peer (s.route d) message answer

/-- A request that is answered is not one that is to be passed over, and its answer is about it. -/
theorem of_dispatch_reply (hs : ∀ d ∈ s.devices, d.IsPlain) {answer : Message}
    (h : (s.dispatch peer message).1 = .reply answer) :
    ∃ reply : Reply, answer = message.answered reply ∧ reply.size ≤ 253 ∧
      reply.function = .ofCode message.functionCode ∧ message.functionCode < 0x80 ∧
      (s.framing = .rtu →
        message.unit.isBroadcast = false ∧ (s.device? message.unit).isSome = true) := by
  rw [dispatch] at h
  split at h
  · cases h
  · rename_i hexception
    have hcode : message.functionCode < 0x80 := by
      rw [Message.isException, decide_eq_true_eq] at hexception
      exact UInt8.not_le.mp hexception
    split at h
    · split at h
      · split at h <;> cases h
      · cases h
    · rename_i hbroadcast
      split at h
      · rename_i d htarget
        obtain ⟨reply, hserve, hsize, hfunction⟩ :=
          exists_reply_serve (hs d (mem_devices_of_target? htarget)) s peer message
        split at h
        · rename_i heq
          rw [heq] at hserve
          cases h
          cases hserve
          refine ⟨reply, rfl, hsize, hfunction, hcode, fun hrtu => ⟨?_, ?_⟩⟩
          · exact Bool.eq_false_iff.mpr fun hunit => hbroadcast ⟨hrtu, hunit⟩
          · rw [target?] at htarget
            split at htarget
            · rename_i hd
              rw [hd]
              rfl
            · rw [hrtu] at htarget
              cases htarget
        · cases h
      · split at h
        · rename_i htcp hrefusal
          cases h
          have hsize : Reply.size (.error ⟨.ofCode message.functionCode, .gatewayTargetDevice⟩) ≤
              253 := show 2 ≤ 253 by decide
          rw [Device.refusal, Message.reply_of_size hsize] at hrefusal
          cases hrefusal
          refine ⟨_, rfl, hsize, rfl, hcode, fun hrtu => ?_⟩
          rw [htcp] at hrtu
          cases hrtu
        · cases h

/-- A unit that no device is there for: none has its identifier, and it is not the one that the only
device answers to as well. -/
structure Unserved (s : Server) (unit : UnitId) : Prop where
  absent : ∀ d ∈ s.devices, d.id ≠ unit
  alone : unit = .tcpDevice → s.devices.length ≠ 1

theorem Unserved.target?_eq_none {unit : UnitId} (h : s.Unserved unit) : s.target? unit = none := by
  have hdevice : s.device? unit = none :=
    List.find?_eq_none.mpr fun d hd => by simpa using h.absent d hd
  rw [target?, hdevice]
  dsimp only
  split
  · rename_i hdevices
    refine if_neg fun hunit => h.alone hunit ?_
    rw [hdevices]
    rfl
  · rfl

/-- On TCP a request for a unit that no device is there for is answered by the server itself. -/
theorem dispatch_of_unserved (htcp : s.framing = .tcp) (hcode : message.functionCode < 0x80)
    (h : s.Unserved message.unit) (peer : Peer) :
    s.dispatch peer message =
      (.reply (message.answered (.error ⟨.ofCode message.functionCode, .gatewayTargetDevice⟩)),
        s) := by
  have hexception : message.isException = false :=
    decide_eq_false (UInt8.not_le.mpr hcode)
  have hsize : Reply.size (.error ⟨.ofCode message.functionCode, .gatewayTargetDevice⟩) ≤ 253 :=
    show 2 ≤ 253 by decide
  simp only [dispatch, hexception, htcp, h.target?_eq_none, Device.refusal,
    Message.reply_of_size hsize, Bool.false_eq_true, reduceCtorEq, false_and, if_false]
  rfl

end Server

end Modbus

import Modbus.Proofs.Client.Work

/-! Runs of a client: any calls, in any state of its link, with whatever happens between them. Each
call makes one header or none, and on TCP the headers are numbered in order. -/

namespace Modbus

/-- A client and the headers of its transactions so far. -/
structure Session where
  client : Client
  made : List Header

namespace Session

open Client (connect disconnect)

/-- The session after a call, which makes one header or none. -/
def call (unit : UnitId) (request : Request) (s : Session) : Session :=
  ⟨after (Client.call unit request) s.client, s.made ++ (s.client.header? unit request).toList⟩

/-- The session of a client after any calls and whatever else can happen: the client is connected
and disconnected, and what is to come of the wire changes as time goes on. -/
inductive Reach : Session → Prop where
  | start (transport : Transport) (settings : LinkSettings) (pduAddressing : Bool) :
    Reach ⟨.ofTransport transport settings pduAddressing, []⟩
  | call {s : Session} (unit : UnitId) (request : Request) : Reach s → Reach (s.call unit request)
  | connect {s : Session} : Reach s → Reach { s with client := after connect s.client }
  | disconnect {s : Session} : Reach s → Reach { s with client := after disconnect s.client }
  | world {s : Session} (transport : Transport) (journal : Journal)
    (h : transport.kind.framing = s.client.link.framing) : Reach s →
      Reach { s with client.link.transport := transport, client.link.journal := journal }

/-- The client reads responses, and on TCP the number of a transaction follows from its place among
all of them. -/
structure Good (s : Session) : Prop where
  isFor : s.client.link.IsFor .response
  transaction : s.client.link.framing = .tcp →
    s.client.transaction = UInt16.ofNat (s.made.length + 1)
  made : s.client.link.framing = .tcp → ∀ (i : Nat) (header : Header), s.made[i]? = some header →
    ∃ unit, header = .tcp (UInt16.ofNat (i + 1)) unit

variable {s : Session} {unit : UnitId} {request : Request}

theorem Good.keeps (h : s.Good) {c : Client} (hc : s.client.Keeps c) :
    Good { s with client := c } := by
  have hframing := hc.link.framing
  refine ⟨hc.link.isFor h.isFor, fun htcp => ?_, fun htcp => ?_⟩
  · rw [hframing] at htcp
    exact hc.transaction.trans (h.transaction htcp)
  · rw [hframing] at htcp
    exact h.made htcp

theorem Good.call (h : s.Good) (unit : UnitId) (request : Request) :
    (s.call unit request).Good := by
  have hkeeps := Client.keeps_after_call unit request s.client
  rcases hheader : s.client.header? unit request with _ | header
  · rw [hheader] at hkeeps
    have hcall : s.call unit request =
        { s with client := after (Client.call unit request) s.client } := by
      rw [Session.call, hheader, Option.toList_none, List.append_nil]
    rw [hcall]
    exact h.keeps hkeeps
  · rw [hheader] at hkeeps
    obtain ⟨c', hannounce, hrest⟩ := hkeeps
    obtain ⟨hlink, hnext⟩ := Client.of_announce hannounce
    have hframing := (hlink.trans hrest.link).framing
    have hmade : (s.call unit request).made = s.made ++ [header] := by
      rw [Session.call, hheader, Option.toList_some]
    refine ⟨(hlink.trans hrest.link).isFor h.isFor, fun htcp => ?_, fun htcp => ?_⟩
    · have htransaction := h.transaction (hframing ▸ htcp)
      have hnumber : UInt16.ofNat ((s.call unit request).made.length + 1) =
          s.client.transaction + 1 := by
        rw [hmade, List.length_append, List.length_singleton, UInt16.ofNat_add, ← htransaction]
        rfl
      rw [hnumber, ← (hnext (hframing ▸ htcp)).2]
      exact hrest.transaction
    · have htcp' : s.client.link.framing = .tcp := hframing ▸ htcp
      intro i header' hi
      rw [hmade, List.getElem?_append] at hi
      split at hi
      · exact h.made htcp' i header' hi
      · rename_i hlast
        have hplace : i = s.made.length := by
          have hlt := (List.getElem?_eq_some_iff.mp hi).1
          rw [List.length_singleton] at hlt
          omega
        rw [hplace, Nat.sub_self] at hi
        cases hi
        exact ⟨unit, by rw [hplace, ← h.transaction htcp', (hnext htcp').1]⟩

theorem Reach.good (h : s.Reach) : s.Good := by
  induction h with
  | start transport settings pduAddressing => exact ⟨nofun, fun _ => rfl, fun _ => nofun⟩
  | call unit request _ ih => exact ih.call unit request
  | connect _ ih => exact ih.keeps (Client.keeps_connect _)
  | disconnect _ ih => exact ih.keeps (Client.keeps_disconnect _)
  | @world s transport journal hsame _ ih =>
    have hframing : s.client.link.framing = transport.kind.framing := hsame.symm
    refine ⟨fun c hc => ?_, fun htcp => ih.transaction (hframing.trans htcp),
      fun htcp => ih.made (hframing.trans htcp)⟩
    rw [ih.isFor c hc, hframing]
    rfl

end Session

end Modbus

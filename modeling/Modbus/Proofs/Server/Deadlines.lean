import Modbus.Proofs.Link.Deadlines
import Modbus.Proofs.Server.Dispatch
import Modbus.Proofs.Server.Upstream

/-! The deadlines of a server. A poll works out when the first bytes of a request are due before it
reads any. None of its deadlines, and none of those that the clients of its gateways set meanwhile,
lies further beyond the end of the poll than the longest of their waits. -/

namespace Modbus

/-! ### Clients -/

namespace SharedClient

/-- No wait of the client is longer than `longest`. Scripted clients never wait. -/
def WaitsAtMost (longest : Nat) : SharedClient → Prop
  | .linked c => c.settings.WaitsAtMost longest
  | .scripted _ => True

/-- A wait that no wait of the client is longer than. -/
def longestWait : SharedClient → Nat
  | .linked c => max c.settings.responseTimeout c.settings.byteTimeout
  | .scripted _ => 0

theorem waitsAtMost_longestWait (client : SharedClient) :
    client.WaitsAtMost client.longestWait := by
  cases client with
  | linked c => exact ⟨Nat.le_max_left _ _, Nat.le_max_right _ _⟩
  | scripted c => trivial

/-- A client keeps its settings, and sets deadlines only for as long as it waits. -/
theorem expects_call {longest : Nat} {client : SharedClient} (h : client.WaitsAtMost longest)
    (unit : UnitId) (request : Request) (j : Journal) :
    let (_, client', j') := client.call unit request j
    client'.WaitsAtMost longest ∧ j.Expects longest j' := by
  cases client with
  | linked c =>
    obtain ⟨hsettings, hexpects⟩ := Client.scheduling_call unit request
      { c with link := { c.link with journal := j } } h
    rw [call, work_linked]
    refine ⟨?_, hexpects⟩
    rw [WaitsAtMost, hsettings]
    exact h
  | scripted c =>
    rcases hanswer : c.answers.headD .timeout with response | exception | kind | _
    all_goals
      simp only [call, work, ScriptedClient.call, run_get_bind, run_set_bind, hanswer]
      exact ⟨trivial, .of_same (Nat.le_refl _) rfl⟩

end SharedClient

namespace Server

variable {s s' : Server} {longest timeout : Nat}

/-- The deadlines that a poll sets. -/
def deadlines (timeout : Nat) (s : Server) : List Nat :=
  s.journal.setSince (after (poll timeout) s).journal

/-- No wait on the stream of the server between two reads is longer than `longest`, and no wait of a
client that one of its gateways forwards to. -/
structure WaitsAtMost (longest : Nat) (s : Server) : Prop where
  byteTimeout : s.settings.byteTimeout ≤ longest
  clients : ∀ d ∈ s.devices, ∀ id, d.forwardsTo = some id →
    ∀ client, s.clients.get? id = some client → client.WaitsAtMost longest

/-! ### Waits of a poll -/

/-- The same as `WaitsAtMost`, where `ids` are the places of the clients that are forwarded to. -/
structure Bounded (longest : Nat) (ids : ClientId → Prop) (s : Server) : Prop where
  byteTimeout : s.settings.byteTimeout ≤ longest
  forwards : ∀ d ∈ s.devices, ∀ id, d.forwardsTo = some id → ids id
  clients : ∀ id, ids id → ∀ client, s.clients.get? id = some client → client.WaitsAtMost longest

/-- A server whose waits are bounded stays so, and sets deadlines only for as long as they are. -/
def Scheduling (longest : Nat) (ids : ClientId → Prop) (s s' : Server) : Prop :=
  s.Bounded longest ids → s'.Bounded longest ids ∧ s.journal.Expects longest s'.journal

instance (longest : Nat) (ids : ClientId → Prop) : IsPreorder Server (Scheduling longest ids) where
  refl _ h := ⟨h, .of_same (Nat.le_refl _) rfl⟩
  trans _ _ _ h h' hs := by
    obtain ⟨hs', hexpects⟩ := h hs
    obtain ⟨hs'', hexpects'⟩ := h' hs'
    exact ⟨hs'', hexpects.trans hexpects'⟩

variable {ids : ClientId → Prop}

theorem scheduling_onLink {α : Type} {work : LinkM α}
    (h : Within (Expecting longest Link.journal) work) :
    Within (Scheduling longest ids) (onLink work) := by
  intro s hs
  rw [after_onLink]
  exact ⟨⟨hs.byteTimeout, hs.forwards, hs.clients⟩, h s.link⟩

theorem scheduling_forward {id : ClientId} (hid : ids id) (unit : UnitId) (request : Request)
    (s : Server) : Scheduling longest ids s (forward id unit request s).2 := by
  intro hs
  rcases hclient : s.clients.get? id with _ | client
  · rw [forward, hclient]
    exact ⟨hs, .of_same (Nat.le_refl _) rfl⟩
  · have hcall :=
      SharedClient.expects_call (hs.clients id hid client hclient) unit request s.journal
    rw [forward_of_get? hclient]
    refine ⟨⟨hs.byteTimeout, hs.forwards, fun id' hid' client' hclient' => ?_⟩, hcall.2⟩
    have hclients : Clients.get? (s.clients.put id (client.call unit request s.journal).2.1) id' =
        some client' := hclient'
    by_cases hsame : id' = id
    · rw [hsame, Clients.get?_put hclient] at hclients
      cases hclients
      exact hcall.1
    · rw [Clients.get?_put_of_ne hsame] at hclients
      exact hs.clients id' hid' client' hclients

theorem scheduling_dispatch (s : Server) (peer : Peer) (message : Message) :
    Scheduling longest ids s (s.dispatch peer message).2 := by
  intro hs
  have hdispatch : Scheduling longest ids s (s.dispatch peer message).2 :=
    related_dispatch (P := fun d => ∀ id, d.forwardsTo = some id → ids id)
      (fun _ id unit request s hd hid => scheduling_forward (hd id hid) unit request s)
      (fun _ s hs => ⟨⟨hs.byteTimeout, hs.forwards, hs.clients⟩, .of_same (Nat.le_refl _) rfl⟩)
      (fun s d map hd hs => by
        refine ⟨⟨hs.byteTimeout, fun e he => ?_, hs.clients⟩, .of_same (Nat.le_refl _) rfl⟩
        obtain ⟨e', he', rfl⟩ := List.mem_map.mp he
        split
        · exact hd
        · exact hs.forwards e' he')
      hs.forwards peer message
  exact hdispatch hs

theorem scheduling_recover (e : Error) : Within (Scheduling longest ids) (recover e) :=
  within_recover (scheduling_onLink Link.expecting_dropChannel)
    (scheduling_onLink (Link.expecting_perform .closing))
    (scheduling_onLink (Link.expecting_perform .opening))
    (fun ms => scheduling_onLink (Link.expecting_sleep ms)) e

theorem scheduling_handle (message : Message) :
    Within (Scheduling longest ids) (handle message) :=
  within_handle scheduling_recover (fun reply => scheduling_onLink (Link.expecting_send reply))
    scheduling_dispatch message

theorem scheduling_poll (htimeout : timeout ≤ longest) :
    Within (Scheduling longest ids) (poll timeout) := by
  have haccept : Within (Scheduling longest ids) (accept timeout) :=
    .bind .get fun _ => scheduling_onLink (Link.expecting_connect _ _ _)
  refine within_poll_of_handle (scheduling_onLink Link.expecting_dropChannel) scheduling_recover
    haccept (fun s hs => ?_) scheduling_handle
  exact scheduling_onLink (Link.expecting_receive htimeout hs.byteTimeout) s hs

theorem WaitsAtMost.bounded (h : s.WaitsAtMost longest) :
    s.Bounded longest fun id => ∃ d ∈ s.devices, d.forwardsTo = some id :=
  ⟨h.byteTimeout, fun d hd _ hid => ⟨d, hd, hid⟩, fun _ ⟨d, hd, hid⟩ => h.clients d hd _ hid⟩

theorem expects_poll (h : s.WaitsAtMost longest) (htimeout : timeout ≤ longest) :
    s.journal.Expects longest (after (poll timeout) s).journal :=
  (scheduling_poll htimeout s h.bounded).2

/-- No deadline of a poll lies further beyond its end than the longest of the waits. -/
theorem deadlines_le (h : s.WaitsAtMost longest) (htimeout : timeout ≤ longest) :
    ∀ t ∈ s.deadlines timeout, t ≤ (after (poll timeout) s).journal.now + longest :=
  (expects_poll h htimeout).forall_le

/-! ### The deadline of a request -/

/-- The deadlines of a server stay set. -/
def Extending (s s' : Server) : Prop := s.journal.Extends s'.journal

instance : IsPreorder Server Extending where
  refl _ := List.prefix_rfl
  trans _ _ _ h h' := List.IsPrefix.trans h h'

theorem extending_onLink (longest : Nat) {α : Type} {work : LinkM α}
    (h : Within (Expecting longest Link.journal) work) : Within Extending (onLink work) := by
  intro s
  rw [after_onLink]
  exact .of_expects (h s.link)

theorem extending_forward (id : ClientId) (unit : UnitId) (request : Request) (s : Server) :
    Extending s (forward id unit request s).2 := by
  rcases hclient : s.clients.get? id with _ | client
  · rw [forward, hclient]
    exact refl s
  · rw [forward_of_get? hclient]
    exact .of_expects
      (SharedClient.expects_call client.waitsAtMost_longestWait unit request s.journal).2

theorem spans_extending : Spans Extending where
  dropChannel := extending_onLink 0 Link.expecting_dropChannel
  perform a := extending_onLink 0 (Link.expecting_perform a)
  sleep ms := extending_onLink 0 (Link.expecting_sleep ms)
  connect debug deadline :=
    extending_onLink 0 (Link.expecting_connect .request debug deadline)
  receive timeout byteTimeout := extending_onLink (max timeout byteTimeout)
    (Link.expecting_receive (Nat.le_max_left timeout byteTimeout) (Nat.le_max_right _ _))
  send message := extending_onLink 0 (Link.expecting_send message)
  dispatch _ peer message := related_dispatch (P := fun _ => True)
    (fun _ id unit request s _ _ => extending_forward id unit request s)
    (fun _ _ => List.prefix_rfl) (fun _ _ _ _ => List.prefix_rfl) (fun _ _ => trivial) peer
    message

/-- A poll on a stream that is connected works out how long the first bytes of a request may take
before it reads any. -/
theorem mem_deadlines (hopen : s.isOpen = true) (hc : s.link.isConnected = true) (timeout : Nat) :
    s.journal.now + timeout ∈ s.deadlines timeout := by
  have hrecover : ∀ e, Within Extending (recover e) := within_recover spans_extending.dropChannel
    (spans_extending.perform .closing) (spans_extending.perform .opening) spans_extending.sleep
  have hrest : Journal.Extends (after (Link.receive timeout s.settings.byteTimeout) s.link).journal
      (after (pollStream timeout) s).journal :=
    related_pollStream spans_extending.dropChannel hrecover
      (within_handle hrecover spans_extending.send spans_extending.dispatch) s
  rw [deadlines, after, poll_of_isConnected hopen hc, ← after]
  exact hrest.mem_setSince (Link.mem_setSince_receive hc timeout s.settings.byteTimeout)

/-! ### Polls on a clock -/

theorem pollOn_of_forall_le {horizon : Nat} (h : ∀ t ∈ s.deadlines timeout, t ≤ horizon) :
    pollOn horizon timeout s = .ok (poll timeout s) :=
  Clock.run_of_forall_le h

theorem pollOn_of_lt {horizon t : Nat} (ht : t ∈ s.deadlines timeout) (hlate : horizon < t) :
    pollOn horizon timeout s = .error .overflow :=
  Clock.run_of_lt ht hlate

end Server

end Modbus

import Modbus.Proofs.Link.Writes
import Modbus.Proofs.Server.Alignment
import Modbus.Proofs.Server.Upstream

/-! Why a poll fails. Devices without callbacks and their clients do nothing on the link of their
server, so whatever requests arrive a poll fails only when the transport does. -/

namespace Modbus

/-! ### Why a poll fails -/

theorem Transport.Fails.of_faults_eq {actions : List Action} {t t₁ t' : Transport} {e : Error}
    (h : t₁.Fails actions t' e) (hsame : ∀ a ∈ actions, t₁.wire.faults a = t.wire.faults a) :
    t.Fails actions t' e := by
  obtain ⟨a, ha, kind, hfaults, he⟩ := h
  exact ⟨a, ha, kind, by rw [← hsame a ha, hfaults], he⟩

theorem Transport.Unreadable.of_arrivals_eq {t t₁ t' : Transport} {e : Error}
    (h : t₁.Unreadable t' e) (hsame : t₁.wire.arrivals = t.wire.arrivals) : t.Unreadable t' e := by
  cases h with
  | failed harrivals => exact .failed (hsame ▸ harrivals)
  | ended harrivals => exact .ended (hsame ▸ harrivals)

/-- What sending a frame tries. -/
def Action.sending : List Action := [beginning, writing, flushing, ending]

/-- What setting up a transport again tries. -/
def Action.reopening : List Action := [closing, opening]

/-- A transport has failed: nobody could be connected to, the stream could not be read or has ended
where no other peer comes, or a frame could not be sent. -/
inductive Transport.Breaks (t t' : Transport) : Error → Prop where
  | unmet {e : Error} (h : t.Unmet t' e) : Breaks t t' e
  | unreadable {e : Error} (h : t.Unreadable t' e)
    (hpeers : e = .transport .closedByPeer → t.kind.acceptsPeers = false) : Breaks t t' e
  | unsent {e : Error} (h : t.Fails Action.sending t' e) : Breaks t t' e

namespace Server

variable {s s' : Server} {α : Type} {timeout : Nat} {e e' : Error}

/-- The transport has failed with `e` on the way from `s` to `s'`: a server that recovers from other
failures fails only when the transport cannot be closed or opened again. -/
def Excuses (s s' : Server) (e : Error) : Prop :=
  if s.settings.recovery then s.link.transport.Fails Action.reopening s'.link.transport e
  else s.link.transport.Breaks s'.link.transport e

theorem honest_onLink {actions : List Action} {work : LinkM α} (h : Honest id actions work) :
    Honest Server.link actions (onLink work) := by
  constructor
  · intro s a ha
    rw [after_onLink]
    exact h.spends s.link a ha
  · intro s e s' he
    rw [onLink] at he
    rcases hwork : work s.link with ⟨a, l⟩ | ⟨e₁, l⟩ <;> rw [hwork] at he <;> cases he
    exact h.fails s.link e l hwork

/-- An error that is not recovered from is passed on, and recovering fails only with the
transport. -/
theorem of_recover_error (h : recover e s = .error e' s') :
    if s.settings.recovery then s.link.transport.Fails Action.reopening s'.link.transport e'
    else e' = e ∧ s'.link.transport = s.link.transport ∧
      (e = .transport .closedByPeer → s.link.transport.kind.acceptsPeers = false) := by
  obtain ⟨left, hrecover, hleft⟩ := recover_eq e s
  have hreopen : Honest Server.link Action.reopening (do
      onLink Link.closeTransport
      onLink (Link.sleep s.settings.responseTimeout)
      onLink Link.openTransport
      return Polled.closed) :=
    .bind (honest_onLink (Link.honest_perform .closing)) (fun _ =>
      .bind (honest_onLink (Link.honest_sleep _)) (fun _ =>
        .bind (honest_onLink (Link.honest_perform .opening)) (fun _ => .pure _) (by decide))
        (by decide)) (by decide)
  rw [hrecover, setRight] at h
  split at h
  · cases h
  · rename_i hnot
    rcases hrecovery : s.settings.recovery with _ | _ <;> rw [hrecovery] at h
    · cases h
      refine ⟨rfl, rfl, fun hended => ?_⟩
      rw [← hleft hended]
      exact Bool.eq_false_iff.mpr hnot
    · exact hreopen.fails { s with link := { s.link with channel := none } } e' s' h

/-! ### Servers that are polled -/

/-- No client of the server is on the wire `wire`. -/
def Shuns (wire : String) (s : Server) : Prop :=
  ∀ client, some client ∈ s.clients → client.wire? ≠ some wire

/-- An open server whose devices have no callbacks. Its stream is read for requests, and its wire
is its own. -/
structure IsSound (s : Server) : Prop where
  isOpen : s.isOpen = true
  isPlain : ∀ d ∈ s.devices, d.IsPlain
  isFor : s.link.IsFor .request
  shuns : s.Shuns s.link.transport.wire.name

/-- The server `s'` comes from `s` by what its devices do about requests: nothing is done on its
link, and nothing is written to a wire that no client is on. -/
structure Serves (s s' : Server) : Prop where
  transport : s'.link.transport = s.link.transport
  channel : s'.link.channel = s.link.channel
  settings : s'.settings = s.settings
  isOpen : s'.isOpen = s.isOpen
  isPlain : (∀ d ∈ s.devices, d.IsPlain) → ∀ d ∈ s'.devices, d.IsPlain
  shuns : ∀ wire, s.Shuns wire → s'.Shuns wire ∧ s.journal.Writes wire [] s'.journal

instance : IsPreorder Server Serves where
  refl _ := ⟨rfl, rfl, rfl, rfl, id, fun _ h => ⟨h, .of_entries_eq rfl⟩⟩
  trans _ _ _ h h' := by
    refine ⟨h'.transport.trans h.transport, h'.channel.trans h.channel,
      h'.settings.trans h.settings, h'.isOpen.trans h.isOpen, fun hs => h'.isPlain (h.isPlain hs),
      fun wire hs => ?_⟩
    obtain ⟨hshuns, hwrites⟩ := h.shuns wire hs
    obtain ⟨hshuns', hwrites'⟩ := h'.shuns wire hshuns
    exact ⟨hshuns', hwrites.trans hwrites'⟩

/-- A server that forwards a request changes one of its clients and the journal. What holds of the
journal of a call by a client that is not on the wire `wire` holds of it, if none is. -/
theorem exists_forward (id : ClientId) (unit : UnitId) (request : Request) (s : Server) :
    ∃ clients journal,
      (forward id unit request s).2 = { s with clients := clients }.withJournal journal ∧
      ∀ (wire : String) (P : Journal → Prop), s.Shuns wire → P s.journal →
        (∀ client : SharedClient, client.wire? ≠ some wire →
          (client.call unit request s.journal).2.1.wire? = client.wire? ∧
            P (client.call unit request s.journal).2.2) →
        Shuns wire { s with clients := clients } ∧ P journal := by
  rcases hclient : s.clients.get? id with _ | client
  · refine ⟨s.clients, s.journal, ?_, fun wire P hs hsame _ => ⟨hs, hsame⟩⟩
    rw [forward, hclient]
    rfl
  · rw [forward_of_get? hclient]
    refine ⟨_, _, rfl, fun wire P hs _ hcall => ?_⟩
    have hmem : some client ∈ s.clients := List.mem_of_getElem? (Option.join_eq_some_iff.mp hclient)
    obtain ⟨hwire, hjournal⟩ := hcall client (hs client hmem)
    refine ⟨fun client' hclient' => ?_, hjournal⟩
    rcases List.mem_or_eq_of_mem_set hclient' with hold | hnew
    · exact hs client' hold
    · cases hnew
      rw [hwire]
      exact hs client hmem

theorem serves_forward (id : ClientId) (unit : UnitId) (request : Request) (s : Server) :
    s.Serves (forward id unit request s).2 := by
  obtain ⟨clients, journal, hforward, hshuns⟩ := exists_forward id unit request s
  rw [hforward]
  refine ⟨rfl, rfl, rfl, rfl, fun h => h, fun wire hs => ?_⟩
  exact hshuns wire (s.journal.Writes wire []) hs (.of_entries_eq rfl)
    fun client h => SharedClient.writes_call h unit request s.journal

theorem serves_dispatch (hs : ∀ d ∈ s.devices, d.IsPlain) (peer : Peer) (message : Message) :
    s.Serves (s.dispatch peer message).2 := by
  refine related_dispatch (fun _ id unit request s _ _ => serves_forward id unit request s)
    (fun notes s => ?_) (fun s d map hd => ?_) hs peer message
  · exact ⟨rfl, rfl, rfl, rfl, id, fun wire h => ⟨h, .addNotes s.journal notes⟩⟩
  · refine ⟨rfl, rfl, rfl, rfl, fun h e he => ?_, fun wire h => ⟨h, .of_entries_eq rfl⟩⟩
    obtain ⟨e', he', rfl⟩ := List.mem_map.mp he
    split
    · exact ⟨hd.before, hd.after⟩
    · exact h e' he'

theorem Serves.isSound (h : s.Serves s') (hs : s.IsSound) : s'.IsSound where
  isOpen := h.isOpen.trans hs.isOpen
  isPlain := h.isPlain hs.isPlain
  isFor c hc := by
    rw [h.channel] at hc
    rw [Link.framing, h.transport]
    exact hs.isFor c hc
  shuns := by
    rw [h.transport]
    exact (h.shuns _ hs.shuns).1

theorem IsSound.withLink {l : Link} (hs : s.IsSound) (hkeeps : s.link.Keeps .request l)
    (hname : l.transport.wire.name = s.link.transport.wire.name) :
    ({ s with link := l } : Server).IsSound :=
  ⟨hs.isOpen, hs.isPlain, hkeeps.isFor hs.isFor, hname ▸ hs.shuns⟩

/-- A server that is sound stays so. -/
def Sustains (s s' : Server) : Prop := s.IsSound → s'.IsSound

instance : IsPreorder Server Sustains where
  refl _ := id
  trans _ _ _ h h' hs := h' (h hs)

theorem sustains_onLink {work : LinkM α} (hkeeps : Within (Keeping .request id) work)
    (hname : ∀ l, (after work l).transport.wire.name = l.transport.wire.name) :
    Within Sustains (onLink work) := by
  intro s hs
  rw [after_onLink]
  exact hs.withLink (hkeeps s.link) (hname s.link)

theorem name_of_silent {work : LinkM α} (h : ∀ wire, Within (Silent wire id) work) (l : Link) :
    (after work l).transport.wire.name = l.transport.wire.name :=
  (h l.transport.wire.name l).name

theorem name_after_send (message : Message) (l : Link) :
    (after (Link.send message) l).transport.wire.name = l.transport.wire.name := by
  have hsend : l.Writes l.transport.wire.name _ _ ∨ l.Writes _ [] _ ∧ _ :=
    Link.writes_send message l
  rcases hsend with h | ⟨h, -⟩
  · exact h.name
  · exact h.name

theorem spans_sustains : Spans Sustains where
  dropChannel := sustains_onLink Link.keeping_dropChannel fun _ => rfl
  perform a := sustains_onLink (Link.keeping_of_sparing (Link.sparing_perform a))
    (name_of_silent fun _ => Link.silent_perform a)
  sleep ms := sustains_onLink (Link.keeping_of_sparing (Link.sparing_sleep ms)) fun _ => rfl
  connect debug deadline := sustains_onLink (Link.keeping_connect debug deadline)
    (name_of_silent fun _ => Link.silent_connect .request debug deadline)
  receive timeout byteTimeout := sustains_onLink (Link.keeping_receive timeout byteTimeout)
    (name_of_silent fun _ => Link.silent_receive timeout byteTimeout)
  send message := sustains_onLink (Link.keeping_of_sparing (Link.sparing_send message))
    (name_after_send message)
  dispatch _ peer message hs := (serves_dispatch hs.isPlain peer message).isSound hs

/-- The server after polls with the time limits `timeouts`, whatever comes of them. -/
def polled (timeouts : List Nat) (s : Server) : Server :=
  timeouts.foldl (fun s timeout => after (poll timeout) s) s

theorem isSound_polled (hs : s.IsSound) (timeouts : List Nat) : (s.polled timeouts).IsSound := by
  induction timeouts generalizing s with
  | nil => exact hs
  | cons timeout rest ih => exact ih (within_poll spans_sustains timeout s hs)

/-! ### Failures of a poll -/

theorem of_onLink_error {work : LinkM α} (h : onLink work s = .error e s') :
    ∃ l, work s.link = .error e l ∧ s' = { s with link := l } := by
  rcases hwork : work s.link with ⟨a, l⟩ | ⟨e', l⟩ <;> rw [onLink, hwork] at h <;> cases h
  exact ⟨l, rfl, rfl⟩

/-- Handling a request fails when its reply cannot be sent. -/
theorem of_handle_error (hs : s.IsSound) {message : Message}
    (h : handle message s = .error e s') :
    if s.settings.recovery then s.link.transport.Fails Action.reopening s'.link.transport e
    else s.link.transport.Fails Action.sending s'.link.transport e := by
  rcases hpeer : s.peer? with _ | peer
  · rw [handle, run_get_bind, hpeer] at h
    cases h
  · have hserves := serves_dispatch hs.isPlain peer message
    rcases hdispatch : s.dispatch peer message with ⟨dispatched, s₁⟩
    rw [hdispatch] at hserves
    by_cases hreply : ∃ reply, dispatched = .reply reply
    · obtain ⟨reply, rfl⟩ := hreply
      rcases hsend : onLink (Link.send reply) s₁ with ⟨_, s₂⟩ | ⟨e₁, s₂⟩
      · rw [handle_of_send hpeer hdispatch hsend] at h
        cases h
      · rw [handle_of_send_error hpeer hdispatch hsend] at h
        have hhonest := honest_onLink (Link.honest_send reply)
        have hfails := hhonest.fails s₁ e₁ s₂ hsend
        have hspends := hhonest.spends.of_error hsend
        obtain ⟨l, -, rfl⟩ := of_onLink_error hsend
        have hrecover := of_recover_error h
        have htransport : s₁.link.transport = s.link.transport := hserves.transport
        have hsettings : s₁.settings = s.settings := hserves.settings
        rcases hrecovery : s.settings.recovery with _ | _
        · rw [hsettings, hrecovery] at hrecover
          obtain ⟨rfl, hsame, -⟩ := hrecover
          rw [htransport] at hfails
          rw [hsame]
          exact hfails
        · rw [hsettings, hrecovery] at hrecover
          refine Transport.Fails.of_faults_eq hrecover fun a ha => ?_
          have hother : a ∉ Action.sending := by
            revert a
            decide
          rw [hspends a hother, htransport]
    · obtain ⟨polled, hhandle⟩ :=
        handle_of_no_reply hpeer hdispatch fun reply hd => hreply ⟨reply, hd⟩
      rw [hhandle] at h
      cases h

/-- A poll on a stream fails when the stream cannot be read or a reply cannot be sent. -/
theorem of_pollStream_error (hs : s.IsSound) (hc : s.link.isConnected = true)
    (h : pollStream timeout s = .error e s') :
    if s.settings.recovery then s.link.transport.Fails Action.reopening s'.link.transport e
    else s.link.transport.Unreadable s'.link.transport e ∧
        (e = .transport .closedByPeer → s.link.transport.kind.acceptsPeers = false) ∨
      s.link.transport.Fails Action.sending s'.link.transport e := by
  have hspends := Link.spending_receive timeout s.settings.byteTimeout
  rcases hreceive : Link.receive timeout s.settings.byteTimeout s.link with ⟨m, l⟩ | ⟨e₁, l⟩
  · rw [pollStream_of_receive hreceive] at h
    have hsound : ({ s with link := l } : Server).IsSound :=
      (spans_sustains.receive timeout _).of_ok (run_onLink hreceive) hs
    have hhandle := of_handle_error hsound h
    have hfaults : ∀ a, l.transport.wire.faults a = s.link.transport.wire.faults a := fun a =>
      hspends.of_ok hreceive a List.not_mem_nil
    rcases hrecovery : s.settings.recovery with _ | _ <;> rw [hrecovery] at hhandle
    · exact .inr (Transport.Fails.of_faults_eq hhandle fun a _ => hfaults a)
    · exact Transport.Fails.of_faults_eq hhandle fun a _ => hfaults a
  · by_cases htimeout : e₁ = .timeout
    · rw [htimeout] at hreceive
      rw [pollStream_of_timeout hreceive] at h
      cases h
    · rw [pollStream_of_error htimeout hreceive] at h
      rcases Link.unreadable_of_receive hc hreceive with hsame | hframing | hunreadable
      · exact (htimeout hsame).elim
      · rw [if_pos hframing, discardFrame, run_get_bind] at h
        split at h <;> cases h
      · split at h
        · rw [discardFrame, run_get_bind] at h
          split at h <;> cases h
        · have hrecover := of_recover_error h
          have hfaults : ∀ a, l.transport.wire.faults a = s.link.transport.wire.faults a := fun a =>
            hspends.of_error hreceive a List.not_mem_nil
          have hkind := (Link.sameAcceptance_receive timeout _).of_error hreceive
          rcases hrecovery : s.settings.recovery with _ | _ <;> rw [hrecovery] at hrecover
          · obtain ⟨rfl, hsame, hpeers⟩ := hrecover
            rw [hsame]
            exact .inl ⟨hunreadable, fun hended => hkind.symm.trans (hpeers hended)⟩
          · exact Transport.Fails.of_faults_eq hrecover fun a _ => hfaults a

/-- A server that has accepted a peer has done so on its link. -/
theorem of_accept (hs : s.IsSound) {accepted : Bool} (h : accept timeout s = .ok accepted s') :
    s'.IsSound ∧ ∃ l, s' = { s with link := l } ∧
      ∃ deadline, Link.connect .request s.settings.debug deadline s.link = .ok accepted l := by
  refine ⟨(within_accept spans_sustains timeout).of_ok h hs, ?_⟩
  rw [accept, run_get_bind, onLink] at h
  split at h <;> cases h
  rename_i hconnect
  exact ⟨_, rfl, _, hconnect⟩

/-- A poll fails only with the transport. -/
theorem excuses_of_poll_error (hs : s.IsSound) (h : poll timeout s = .error e s') :
    s.Excuses s' e := by
  by_cases hc : s.link.isConnected = true
  · rw [poll_of_isConnected hs.isOpen hc] at h
    have hstream := of_pollStream_error hs hc h
    rw [Excuses]
    rcases hrecovery : s.settings.recovery with _ | _ <;> rw [hrecovery] at hstream
    · rcases hstream with ⟨hunreadable, hpeers⟩ | hfails
      · exact .unreadable hunreadable hpeers
      · exact .unsent hfails
    · exact hstream
  · have hnot : s.link.isConnected = false := Bool.eq_false_iff.mpr hc
    rcases haccept : accept timeout s with ⟨_ | _, s₁⟩ | ⟨e₁, s₁⟩
    · rw [poll_of_accept_false hs.isOpen hnot haccept] at h
      cases h
    · obtain ⟨hsound, l, rfl, deadline, hconnect⟩ := of_accept hs haccept
      rw [poll_eq_pollStream hs.isOpen hnot haccept] at h
      obtain ⟨⟨c, hchannel, -⟩, -⟩ := accept_spec haccept
      have hc₁ : l.isConnected = true := by
        rw [Link.isConnected, hchannel]
        rfl
      have hstream := of_pollStream_error hsound hc₁ h
      have hspends := (Link.spending_connect _ _ _).of_ok hconnect
      rw [Excuses]
      rcases hrecovery : s.settings.recovery with _ | _ <;> rw [hrecovery] at hstream
      · rcases hstream with ⟨hunreadable, hpeers⟩ | hfails
        · have hkind := (Link.sameAcceptance_connect _ _ _).of_ok hconnect
          exact .unreadable (hunreadable.of_arrivals_eq (Link.arrivals_of_connect hconnect))
            fun hended => hkind.symm.trans (hpeers hended)
        · refine .unsent (hfails.of_faults_eq fun a ha => hspends a ?_)
          revert a
          decide
      · refine hstream.of_faults_eq fun a ha => hspends a ?_
        revert a
        decide
    · rw [poll_of_accept_error hs.isOpen hnot haccept] at h
      obtain ⟨l, hconnect, rfl⟩ := of_onLink_error haccept
      have hrecover := of_recover_error h
      rw [Excuses]
      rcases hrecovery : s.settings.recovery with _ | _ <;> rw [hrecovery] at hrecover
      · obtain ⟨rfl, hsame, -⟩ := hrecover
        rw [hsame]
        exact .unmet (Link.unmet_of_connect hconnect)
      · have hspends := (Link.spending_connect _ _ _).of_error hconnect
        refine hrecover.of_faults_eq fun a ha => hspends a ?_
        revert a
        decide

end Server

end Modbus

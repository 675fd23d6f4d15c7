import Modbus.Proofs.Link.Work
import Modbus.Server.Poll

/-! Polls, one outcome of their steps at a time, and what a poll does about an error. -/

namespace Modbus

namespace Server

variable {s : Server} {α : Type} {timeout : Nat}

theorem run_onLink {work : LinkM α} {a : α} {l : Link} (h : work s.link = .ok a l) :
    onLink work s = .ok a { s with link := l } := by
  rw [onLink, h]

theorem after_onLink (work : LinkM α) (s : Server) :
    after (onLink work) s = { s with link := after work s.link } := by
  rw [after, after, onLink]
  rcases work s.link with ⟨a, l⟩ | ⟨e, l⟩ <;> rfl

/-! ### Polling -/

theorem after_poll_of_not_isOpen (hopen : ¬ s.isOpen = true) : after (poll timeout) s = s := by
  rw [after, poll, run_get_bind]
  simp only [hopen, Bool.not_false, if_true]
  rfl

theorem poll_of_isConnected (hopen : s.isOpen = true) (hc : s.link.isConnected = true) :
    poll timeout s = pollStream timeout s := by
  rw [poll, run_get_bind]
  simp only [hopen, hc, Bool.not_true, Bool.false_eq_true, if_false, if_true]

/-- A poll that accepts a peer goes on with the stream that it has accepted. -/
theorem poll_eq_pollStream {s' : Server} (hopen : s.isOpen = true)
    (hc : s.link.isConnected = false) (h : accept timeout s = .ok true s') :
    poll timeout s = pollStream timeout s' := by
  rw [poll, run_get_bind]
  simp only [hopen, hc, Bool.not_true, Bool.false_eq_true, if_false]
  rw [run_bind (run_outcome h)]

theorem poll_of_accept_false {s' : Server} (hopen : s.isOpen = true)
    (hc : s.link.isConnected = false) (h : accept timeout s = .ok false s') :
    poll timeout s = .ok .idle s' := by
  rw [poll, run_get_bind]
  simp only [hopen, hc, Bool.not_true, Bool.false_eq_true, if_false]
  rw [run_bind (run_outcome h)]
  rfl

theorem poll_of_accept_error {s' : Server} {e : Error} (hopen : s.isOpen = true)
    (hc : s.link.isConnected = false) (h : accept timeout s = .error e s') :
    poll timeout s = recover e s' := by
  rw [poll, run_get_bind]
  simp only [hopen, hc, Bool.not_true, Bool.false_eq_true, if_false]
  rw [run_bind (run_outcome_of_error h)]

section Handling

variable {s₁ s₂ : Server} {peer : Peer} {message : Message} (hpeer : s.peer? = some peer)
include hpeer

theorem handle_of_no_reply {dispatched : Dispatched}
    (h : s.dispatch peer message = (dispatched, s₁)) (hnone : ∀ reply, dispatched ≠ .reply reply) :
    ∃ polled, handle message s = .ok polled s₁ := by
  rw [handle, run_get_bind, hpeer]
  dsimp only
  rw [h]
  cases dispatched with
  | reply reply => exact (hnone reply rfl).elim
  | noReply => exact ⟨.handled, rfl⟩
  | discarded => exact ⟨.discarded, rfl⟩

theorem handle_of_send {reply : Message} (h : s.dispatch peer message = (.reply reply, s₁))
    (hsend : onLink (Link.send reply) s₁ = .ok () s₂) : handle message s = .ok .handled s₂ := by
  rw [handle, run_get_bind, hpeer]
  dsimp only
  rw [h]
  dsimp only
  rw [run_set_bind, run_bind (run_outcome hsend)]
  rfl

theorem handle_of_send_error {reply : Message} {e : Error}
    (h : s.dispatch peer message = (.reply reply, s₁))
    (hsend : onLink (Link.send reply) s₁ = .error e s₂) : handle message s = recover e s₂ := by
  rw [handle, run_get_bind, hpeer]
  dsimp only
  rw [h]
  dsimp only
  rw [run_set_bind, run_bind (run_outcome_of_error hsend)]

end Handling

theorem pollStream_of_receive {message : Message} {l : Link}
    (h : Link.receive timeout s.settings.byteTimeout s.link = .ok message l) :
    pollStream timeout s = handle message { s with link := l } := by
  have hreceive : onLink (Link.receive timeout s.settings.byteTimeout) s =
      .ok message { s with link := l } := run_onLink h
  rw [pollStream, run_get_bind, run_bind (run_outcome hreceive)]

theorem pollStream_of_timeout {l : Link}
    (h : Link.receive timeout s.settings.byteTimeout s.link = .error .timeout l) :
    pollStream timeout s = .ok .idle { s with link := l } := by
  have hreceive : outcome (onLink (Link.receive timeout s.settings.byteTimeout)) s =
      .ok (.error .timeout) { s with link := l } := by
    rw [outcome, onLink, h]
  rw [pollStream, run_get_bind, run_bind hreceive]
  rfl

theorem pollStream_of_error {e : Error} {l : Link} (he : e ≠ .timeout)
    (h : Link.receive timeout s.settings.byteTimeout s.link = .error e l) :
    pollStream timeout s =
      (if e.isFraming then discardFrame else recover e) { s with link := l } := by
  have hreceive : outcome (onLink (Link.receive timeout s.settings.byteTimeout)) s =
      .ok (.error e) { s with link := l } := by
    rw [outcome, onLink, h]
  rw [pollStream, run_get_bind, run_bind hreceive]
  cases e with
  | timeout => exact (he rfl).elim
  | _ => rfl

/-! ### Errors -/

section Recovery

variable {R : Server → Server → Prop} [IsPreorder Server R]

/-- What is done about an error after the stream has been given up, where `left` tells whether its
peer has made room for the next one. -/
def setRight (left : Bool) (e : Error) (settings : LinkSettings) : ServerM Polled := do
  if left then return .closed
  if !settings.recovery then throw e
  onLink Link.closeTransport
  onLink (Link.sleep settings.responseTimeout)
  onLink Link.openTransport
  return .closed

/-- What is done about an error begins with giving up the stream. -/
theorem recover_eq (e : Error) (s : Server) : ∃ left : Bool,
    recover e s = setRight left e s.settings { s with link := { s.link with channel := none } } ∧
      (e = .transport .closedByPeer → left = s.link.transport.kind.acceptsPeers) := by
  have hdrop : onLink Link.dropChannel s =
      .ok ⟨⟩ { s with link := { s.link with channel := none } } := rfl
  unfold recover
  rw [run_bind hdrop, run_get_bind]
  refine ⟨_, rfl, ?_⟩
  rintro rfl
  rfl

theorem within_setRight (hclose : Within R (onLink Link.closeTransport))
    (hopen : Within R (onLink Link.openTransport))
    (hsleep : ∀ ms, Within R (onLink (Link.sleep ms))) (left : Bool) (e : Error)
    (settings : LinkSettings) : Within R (setRight left e settings) := by
  have hreopen : Within R (do
      onLink Link.closeTransport
      onLink (Link.sleep settings.responseTimeout)
      onLink Link.openTransport
      return Polled.closed) :=
    .bind hclose fun _ => .bind (hsleep _) fun _ => .bind hopen fun _ => .pure _
  rw [setRight]
  split
  · exact .pure _
  · split
    · exact .bind (.throw e) fun _ => hreopen
    · exact hreopen

theorem within_recover (hdrop : Within R (onLink Link.dropChannel))
    (hclose : Within R (onLink Link.closeTransport)) (hopen : Within R (onLink Link.openTransport))
    (hsleep : ∀ ms, Within R (onLink (Link.sleep ms))) (e : Error) : Within R (recover e) := by
  intro s
  obtain ⟨left, hrecover, -⟩ := recover_eq e s
  rw [after, hrecover, ← after]
  exact IsTrans.trans _ _ _ (hdrop s) (within_setRight hclose hopen hsleep left e s.settings _)

theorem within_discardFrame (hdrop : Within R (onLink Link.dropChannel)) :
    Within R discardFrame := by
  refine .bind .get fun s => ?_
  split
  · exact hdrop.bind fun _ => .pure _
  · exact .pure _

/-- After a reply that cannot be sent, what counts is where the recovery ends. -/
theorem within_handle_of_send
    (hdispatch : ∀ (s : Server) peer message, R s (s.dispatch peer message).2)
    (hsent : ∀ reply s s', onLink (Link.send reply) s = .ok () s' → R s s')
    (hunsent : ∀ reply e s s', onLink (Link.send reply) s = .error e s' →
      R s (after (recover e) s')) (message : Message) : Within R (handle message) := by
  intro s
  rcases hpeer : s.peer? with _ | peer
  · rw [after, handle, run_get_bind, hpeer]
    exact refl s
  · have hserved := hdispatch s peer message
    rcases hdispatched : s.dispatch peer message with ⟨dispatched, s₁⟩
    rw [hdispatched] at hserved
    by_cases hreply : ∃ reply, dispatched = .reply reply
    · obtain ⟨reply, rfl⟩ := hreply
      rcases hsend : onLink (Link.send reply) s₁ with ⟨_, s₂⟩ | ⟨e, s₂⟩
      · rw [after, handle_of_send hpeer hdispatched hsend]
        exact IsTrans.trans _ _ _ hserved (hsent reply s₁ s₂ hsend)
      · rw [after, handle_of_send_error hpeer hdispatched hsend, ← after]
        exact IsTrans.trans _ _ _ hserved (hunsent reply e s₁ s₂ hsend)
    · obtain ⟨polled, hhandle⟩ :=
        handle_of_no_reply hpeer hdispatched fun reply h => hreply ⟨reply, h⟩
      rw [after, hhandle]
      exact hserved

theorem within_handle (hrecover : ∀ e, Within R (recover e))
    (hsend : ∀ message, Within R (onLink (Link.send message)))
    (hdispatch : ∀ (s : Server) peer message, R s (s.dispatch peer message).2)
    (message : Message) : Within R (handle message) :=
  within_handle_of_send hdispatch (fun reply _ _ h => (hsend reply).of_ok h)
    (fun reply e _ s' h => IsTrans.trans _ _ _ ((hsend reply).of_error h) (hrecover e s')) message

/-- What a poll does when it has received. -/
theorem related_pollStream (hdrop : Within R (onLink Link.dropChannel))
    (hrecover : ∀ e, Within R (recover e)) (hhandle : ∀ message, Within R (handle message))
    (s : Server) :
    R { s with link := after (Link.receive timeout s.settings.byteTimeout) s.link }
      (after (pollStream timeout) s) := by
  rw [after]
  rcases hrun : Link.receive timeout s.settings.byteTimeout s.link with ⟨message, l⟩ | ⟨e, l⟩
  · rw [after, pollStream_of_receive hrun]
    exact hhandle message _
  · by_cases htimeout : e = .timeout
    · rw [htimeout] at hrun
      rw [after, pollStream_of_timeout hrun]
      exact refl _
    · rw [after, pollStream_of_error htimeout hrun]
      have hrest : Within R (if e.isFraming then discardFrame else recover e) := by
        split
        · exact within_discardFrame hdrop
        · exact hrecover _
      exact hrest _

/-- What holds of the work around the handling of requests, and of that, holds of a poll. -/
theorem within_poll_of_handle (hdrop : Within R (onLink Link.dropChannel))
    (hrecover : ∀ e, Within R (recover e)) (haccept : Within R (accept timeout))
    (hreceive : ∀ s, R s (after (onLink (Link.receive timeout s.settings.byteTimeout)) s))
    (hhandle : ∀ message, Within R (handle message)) : Within R (poll timeout) := by
  have hstream : Within R (pollStream timeout) := by
    intro s
    have hs := hreceive s
    rw [after_onLink] at hs
    exact IsTrans.trans _ _ _ hs (related_pollStream hdrop hrecover hhandle s)
  intro s
  by_cases hopen : s.isOpen = true
  · by_cases hc : s.link.isConnected = true
    · rw [after, poll_of_isConnected hopen hc, ← after]
      exact hstream s
    · have hnot : s.link.isConnected = false := Bool.eq_false_iff.mpr hc
      rcases hrun : accept timeout s with ⟨_ | _, s'⟩ | ⟨e, s'⟩
      · rw [after, poll_of_accept_false hopen hnot hrun]
        exact haccept.of_ok hrun
      · rw [after, poll_eq_pollStream hopen hnot hrun, ← after]
        exact IsTrans.trans _ _ _ (haccept.of_ok hrun) (hstream s')
      · rw [after, poll_of_accept_error hopen hnot hrun, ← after]
        exact IsTrans.trans _ _ _ (haccept.of_error hrun) (hrecover e s')
  · rw [after_poll_of_not_isOpen hopen]
    exact refl s

/-- The relation holds of each piece of work that a poll is made of. -/
structure Spans (R : Server → Server → Prop) : Prop where
  dropChannel : Within R (onLink Link.dropChannel)
  perform : ∀ a, Within R (onLink (Link.perform a))
  sleep : ∀ ms, Within R (onLink (Link.sleep ms))
  connect : ∀ debug deadline, Within R (onLink (Link.connect .request debug deadline))
  receive : ∀ timeout byteTimeout, Within R (onLink (Link.receive timeout byteTimeout))
  send : ∀ message, Within R (onLink (Link.send message))
  dispatch : ∀ (s : Server) peer message, R s (s.dispatch peer message).2

theorem within_accept (h : Spans R) (timeout : Nat) : Within R (accept timeout) :=
  .bind .get fun _ => h.connect _ _

/-- What holds of each piece of a poll holds of the whole of it. -/
theorem within_poll (h : Spans R) (timeout : Nat) : Within R (poll timeout) := by
  have hrecover :=
    within_recover h.dropChannel (h.perform .closing) (h.perform .opening) h.sleep
  exact within_poll_of_handle h.dropChannel hrecover (within_accept h timeout)
    (fun s => h.receive timeout s.settings.byteTimeout s)
    (within_handle hrecover h.send h.dispatch)

end Recovery

end Server

end Modbus

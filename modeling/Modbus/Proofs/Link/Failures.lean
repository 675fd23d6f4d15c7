import Modbus.Proofs.Link.Unread

/-! Why work on a link fails. It fails because an action on the transport has failed, because nobody
could be connected to, or because reading from the stream has failed: the wire says of each failure
that it was to come, and it is used up. -/

namespace Modbus

/-! ### Actions -/

/-- One of the actions has failed with `e`, as the wire said that it would the next time. -/
def Transport.Fails (actions : List Action) (t t' : Transport) (e : Error) : Prop :=
  ∃ a ∈ actions, ∃ kind, t.wire.faults a = some kind :: t'.wire.faults a ∧
    e = .transport (.scripted kind)

/-- What is to come of the actions other than `actions` is still to come. -/
def Spending {σ : Type} (actions : List Action) (link : σ → Link) (s s' : σ) : Prop :=
  ∀ a ∉ actions, (link s').transport.wire.faults a = (link s).transport.wire.faults a

instance {σ : Type} (actions : List Action) (link : σ → Link) :
    IsPreorder σ (Spending actions link) where
  refl _ _ _ := rfl
  trans _ _ _ h h' a ha := (h' a ha).trans (h a ha)

/-- The work fails only with one of the actions, and tries no others. -/
structure Honest {σ α : Type} (link : σ → Link) (actions : List Action)
    (work : EStateM Error σ α) : Prop where
  spends : Within (Spending actions link) work
  fails : ∀ s e s', work s = .error e s' →
    (link s).transport.Fails actions (link s').transport e

namespace Honest

variable {σ α β : Type} {link : σ → Link} {actions later : List Action}
  {x : EStateM Error σ α} {f : α → EStateM Error σ β}

theorem of_silent (hspends : Within (Spending [] link) x)
    (h : ∀ s e s', x s ≠ .error e s') : Honest link [] x :=
  ⟨hspends, fun s e s' he => (h s e s' he).elim⟩

theorem pure (a : α) : Honest link [] (Pure.pure a : EStateM Error σ α) :=
  of_silent (.pure a) fun _ _ _ => by rintro ⟨⟩

theorem get : Honest link [] (MonadState.get : EStateM Error σ σ) :=
  of_silent .get fun _ _ _ => by rintro ⟨⟩

theorem modify {f : σ → σ}
    (h : ∀ s, (link (f s)).transport.wire.faults = (link s).transport.wire.faults) :
    Honest link [] (modify f : EStateM Error σ PUnit) :=
  of_silent (.modify fun s a _ => congrFun (h s) a) fun _ _ _ => by rintro ⟨⟩

/-- Work after work fails with an action of the one or of the other, if they share none. -/
theorem bind (hx : Honest link actions x) (hf : ∀ a, Honest link later (f a))
    (hdisjoint : ∀ a ∈ actions, a ∉ later) : Honest link (actions ++ later) (x >>= f) := by
  constructor
  · refine .bind (fun s a ha => ?_) fun r s a ha => ?_
    · exact hx.spends s a fun hmem => ha (List.mem_append_left later hmem)
    · exact (hf r).spends s a fun hmem => ha (List.mem_append_right actions hmem)
  · intro s e s' h
    rcases hrun : x s with ⟨r, s₁⟩ | ⟨e₁, s₁⟩
    · rw [run_bind hrun] at h
      obtain ⟨a, ha, kind, hfaults, he⟩ := (hf r).fails s₁ e s' h
      refine ⟨a, List.mem_append_right actions ha, kind, ?_, he⟩
      rw [← hfaults, hx.spends.of_ok hrun a fun hmem => hdisjoint a hmem ha]
    · rw [run_bind_of_error hrun] at h
      cases h
      obtain ⟨a, ha, kind, hfaults, he⟩ := hx.fails s e s' hrun
      exact ⟨a, List.mem_append_left later ha, kind, hfaults, he⟩

end Honest

namespace Link

theorem honest_attempt (a : Action) : Honest id [a] (attempt a) := by
  have hrun : ∀ l : Link,
      (∃ faults, attempt a l = .ok () (l.withWire { l.transport.wire with faults }) ∧
        ∀ b, b ≠ a → faults b = l.transport.wire.faults b) ∨
      ∃ kind faults, attempt a l =
          .error (.transport (.scripted kind)) (l.withWire { l.transport.wire with faults }) ∧
        l.transport.wire.faults a = some kind :: faults a ∧
        ∀ b, b ≠ a → faults b = l.transport.wire.faults b := by
    intro l
    rcases hfaults : l.transport.wire.faults a with _ | ⟨_ | kind, rest⟩
    · exact .inl ⟨_, by simp only [attempt, Wire.attempt, hfaults], fun _ _ => rfl⟩
    · exact .inl ⟨fun b => if b = a then rest else l.transport.wire.faults b,
        by simp only [attempt, Wire.attempt, hfaults], fun b hb => if_neg hb⟩
    · exact .inr ⟨kind, fun b => if b = a then rest else l.transport.wire.faults b,
        by simp only [attempt, Wire.attempt, hfaults], by simp only [if_true], fun b hb => if_neg hb⟩
  constructor
  · intro l b hb
    have hne : b ≠ a := fun h => hb (List.mem_singleton.mpr h)
    rcases hrun l with ⟨faults, hok, hothers⟩ | ⟨kind, faults, herror, -, hothers⟩
    · rw [after, hok]
      exact hothers b hne
    · rw [after, herror]
      exact hothers b hne
  · intro l e l' h
    rcases hrun l with ⟨faults, hok, -⟩ | ⟨kind, faults, herror, hfaults, -⟩
    · rw [hok] at h
      cases h
    · rw [herror] at h
      cases h
      exact ⟨a, List.mem_singleton_self a, kind, hfaults, rfl⟩

theorem honest_perform (a : Action) : Honest id [a] (perform a) := by
  constructor
  · exact within_perform (fun _ _ _ => rfl) (honest_attempt a).spends
  · intro l e l' h
    rw [perform, run_get_bind] at h
    split at h
    · rw [run_set_bind] at h
      exact (honest_attempt a).fails (l.record (.did l.transport.wire.name a)) e l' h
    · cases h

/-- Bytes are recorded under the name of the wire, whether or not they go out. -/
theorem write_eq (bytes : List UInt8) (l : Link) :
    write bytes l =
      match attempt .writing l with
      | .ok () l' => .ok () (l'.record (.sent l'.transport.wire.name bytes))
      | .error e l' => .error e (l'.record (.unsent l'.transport.wire.name bytes)) := by
  rcases hattempt : attempt .writing l with ⟨_, l'⟩ | ⟨e, l'⟩
  · rw [write, run_bind (run_outcome hattempt)]
    rfl
  · rw [write, run_bind (run_outcome_of_error hattempt)]
    rfl

theorem honest_write (bytes : List UInt8) : Honest id [.writing] (write bytes) := by
  constructor
  · exact within_write (honest_attempt .writing).spends (fun _ _ _ _ => rfl) bytes
  · intro l e l' h
    rw [write_eq] at h
    rcases hattempt : attempt .writing l with ⟨_, l₁⟩ | ⟨e₁, l₁⟩ <;> rw [hattempt] at h <;> cases h
    exact (honest_attempt .writing).fails l e l₁ hattempt

theorem honest_sleep (ms : Nat) : Honest id [] (sleep ms) := .modify fun _ => rfl

/-- Sending a frame fails with one of the actions that it is made of. -/
theorem honest_send (message : Message) :
    Honest id [.beginning, .writing, .flushing, .ending] (send message) :=
  .bind (honest_perform .beginning) (fun _ => .bind (honest_write _) (fun _ =>
    .bind (honest_attempt .flushing) (fun _ => .bind (honest_perform .ending) (fun _ =>
      .bind .get (fun _ => honest_sleep _) (by decide)) (by decide)) (by decide)) (by decide))
    (by decide)

end Link

/-! ### Connecting -/

/-- Nobody could be connected to: the action has failed, the peer has refused, or the stream that was
there has been taken. -/
inductive Transport.Unmet (t t' : Transport) : Error → Prop where
  | failed {e : Error} (h : t.Fails [.connecting] t' e) : Unmet t t' e
  | refused {kind : FaultKind} (h : t.wire.meetings = .refused kind :: t'.wire.meetings) :
    Unmet t t' (.transport (.scripted kind))
  | detached {framing : Framing} (h : t.kind = .attached framing false) :
    Unmet t t' (.transport .detached)

namespace Link

variable {role : Role} {debug : Bool} {deadline : Option Nat} {l l' : Link} {e : Error}

theorem unmet_of_takeStream (hkind : ∃ framing present, l.transport.kind = .attached framing present)
    (h : takeStream l = .error e l') : l.transport.Unmet l'.transport e := by
  obtain ⟨framing, present, hkind⟩ := hkind
  rw [takeStream, run_get_bind, hkind] at h
  cases present <;> cases h
  exact .detached hkind

/-- The peers to come and the kind of the transport are the same. -/
def SamePeers (l l' : Link) : Prop :=
  l'.transport.wire.meetings = l.transport.wire.meetings ∧ l'.transport.kind = l.transport.kind

instance : IsPreorder Link SamePeers where
  refl _ := ⟨rfl, rfl⟩
  trans _ _ _ h h' := ⟨h'.1.trans h.1, h'.2.trans h.2⟩

theorem samePeers_perform (a : Action) : Within SamePeers (perform a) :=
  within_perform (fun _ => ⟨rfl, rfl⟩) (within_attempt (fun _ _ => ⟨rfl, rfl⟩) a)

theorem unmet_of_meet (h : meet deadline l = .error e l') : l.transport.Unmet l'.transport e := by
  rcases hconnect : perform .connecting l with ⟨_, l₁⟩ | ⟨e₁, l₁⟩
  · obtain ⟨hmeetings, -⟩ := (samePeers_perform .connecting).of_ok hconnect
    rw [meet, run_bind hconnect, run_get_bind, run_set_bind] at h
    rcases hnext : l₁.transport.wire.meetings with _ | ⟨meeting, rest⟩
    · rw [hnext] at h
      rcases hdefault : l₁.transport.kind with _ | ⟨framing, _ | _, silence⟩ | _ | _ <;>
        rw [hdefault] at h <;> cases h
    · rw [hnext] at h
      cases meeting <;> cases h
      refine .refused (hmeetings.symm.trans ?_)
      rw [hnext]
      rfl
  · rw [meet, run_bind_of_error hconnect] at h
    cases h
    exact .failed ((honest_perform .connecting).fails l e l' hconnect)

theorem unmet_of_connect (h : connect role debug deadline l = .error e l') :
    l.transport.Unmet l'.transport e := by
  rw [connect_eq] at h
  rcases hseek : seek deadline l with ⟨peer, l₁⟩ | ⟨e₁, l₁⟩
  · rw [run_bind hseek] at h
    cases peer <;> cases h
  · rw [run_bind_of_error hseek] at h
    cases h
    rw [seek, run_get_bind] at hseek
    rcases hkind : l.transport.kind with ⟨framing, present⟩ | _ | _ | _
    case attached =>
      rw [hkind] at hseek
      rcases htake : takeStream l with ⟨peer, l₂⟩ | ⟨e₂, l₂⟩
      · have hmap : (some <$> takeStream) l = .ok (some peer) l₂ := by
          show EStateM.map some takeStream l = _
          rw [EStateM.map, htake]
        cases hmap.symm.trans hseek
      · have hmap : (some <$> takeStream) l = .error e₂ l₂ := by
          show EStateM.map some takeStream l = _
          rw [EStateM.map, htake]
        cases hmap.symm.trans hseek
        exact unmet_of_takeStream ⟨framing, present, hkind⟩ htake
    all_goals
      rw [hkind] at hseek
      exact unmet_of_meet hseek

theorem spending_connect (role : Role) (debug : Bool) (deadline : Option Nat) :
    Within (Spending [.connecting] id) (connect role debug deadline) := by
  have hmeet : Within (Spending [.connecting] id) (meet deadline) :=
    within_meet (honest_perform .connecting).spends (fun _ _ _ _ => rfl)
      (fun _ => .modify fun _ _ _ => rfl) deadline
  rw [connect_eq]
  refine .bind (within_seek (within_takeStream fun _ _ _ _ _ => rfl) hmeet) fun peer => ?_
  rcases peer with _ | peer
  · exact .pure _
  · exact .bind (.modify fun _ _ _ => rfl) fun _ => .pure _

/-- The link accepts peers as before. -/
def SameAcceptance (l l' : Link) : Prop :=
  l'.transport.kind.acceptsPeers = l.transport.kind.acceptsPeers

instance : IsPreorder Link SameAcceptance where
  refl _ := rfl
  trans _ _ _ h h' := Eq.trans h' h

theorem sameAcceptance_connect (role : Role) (debug : Bool) (deadline : Option Nat) :
    Within SameAcceptance (connect role debug deadline) := by
  have htake : Within SameAcceptance takeStream := by
    apply within_takeStream
    intro l framing hkind
    rw [SameAcceptance, hkind]
    rfl
  have hperform : Within SameAcceptance (perform .connecting) :=
    within_perform (fun _ => rfl) (within_attempt (fun _ _ => rfl) .connecting)
  have hmeet : Within SameAcceptance (meet deadline) :=
    within_meet hperform (fun _ _ => rfl) (fun _ => .modify fun _ => rfl) deadline
  rw [connect_eq]
  refine .bind (within_seek htake hmeet) fun peer => ?_
  rcases peer with _ | peer
  · exact .pure _
  · exact .bind (.modify fun _ => rfl) fun _ => .pure _

end Link

/-! ### Receiving -/

namespace Received

/-- Why a wait for a frame has ended: a split has found one or has found that there is none, the
time is over, or reading has failed. -/
inductive Ends (codec : FrameCodec) (arrivals : List Arrival) (r : Received) : Prop where
  | frame {m : Message} {bytes rest : List UInt8} (hresult : r.result = .ok m)
    (hsplit : codec.split bytes = .frame m rest)
  | noFrame {e : Error} (hresult : r.result = .error e) (he : e.isFraming = true)
  | timeout (hresult : r.result = .error .timeout)
  | failure {kind : FaultKind} (earlier : List Arrival)
    (hresult : r.result = .error (.transport (.scripted kind)))
    (h : arrivals = earlier ++ .failure kind :: r.arrivals)
  | ended (earlier : List Arrival) (hresult : r.result = .error (.transport .closedByPeer))
    (h : arrivals = earlier ++ .bytes [] :: r.arrivals)

variable {codec : FrameCodec} {timeout byteTimeout deadline now : Nat} {buffer left : List UInt8}
  {arrivals : List Arrival} {deadlines : List Nat}

theorem Ends.cons {r : Received} (h : Ends codec arrivals r) (first : Arrival) :
    Ends codec (first :: arrivals) r := by
  cases h with
  | frame hresult hsplit => exact .frame hresult hsplit
  | noFrame hresult he => exact .noFrame hresult he
  | timeout hresult => exact .timeout hresult
  | failure earlier hresult h =>
    exact .failure (first :: earlier) hresult (by rw [h, List.cons_append])
  | ended earlier hresult h =>
    exact .ended (first :: earlier) hresult (by rw [h, List.cons_append])

theorem Ends.setting {r : Received} (h : Ends codec arrivals r) (deadline : Nat) :
    Ends codec arrivals (r.setting deadline) := by
  cases h with
  | frame hresult hsplit => exact .frame hresult hsplit
  | noFrame hresult he => exact .noFrame hresult he
  | timeout hresult => exact .timeout hresult
  | failure earlier hresult h => exact .failure earlier hresult h
  | ended earlier hresult h => exact .ended earlier hresult h

theorem ends_of_outcome? {result : Except Error Message}
    (h : (codec.split buffer).outcome? = some (result, left)) :
    Ends codec arrivals ⟨result, left, now, later, deadlines⟩ := by
  rcases hsplit : codec.split buffer with _ | ⟨m, rest⟩ | _ | _ <;> rw [hsplit] at h <;> cases h
  · exact .frame rfl hsplit
  · exact .noFrame rfl rfl
  · exact .noFrame rfl rfl

theorem ends_await : Ends codec arrivals (await codec byteTimeout deadline buffer now arrivals) := by
  fun_induction await codec byteTimeout deadline buffer now arrivals with
  | case1 | case3 | case5 => exact .timeout rfl
  | case2 _ _ _ _ _ _ ih | case4 _ _ _ _ _ _ ih => exact ih.cons _
  | case6 => exact .failure [] rfl rfl
  | case7 => exact .ended [] rfl rfl
  | case8 _ _ _ _ _ _ _ _ houtcome => exact ends_of_outcome? houtcome
  | case9 _ _ _ _ _ _ _ ih => exact (ih.cons _).setting _

theorem ends_start :
    Ends codec arrivals (start codec timeout byteTimeout buffer now arrivals) := by
  rw [start]
  split
  · rename_i houtcome
    exact ends_of_outcome? houtcome
  · exact (ends_await.setting _).setting _

end Received

/-- Reading from the stream has failed, or the stream has ended. -/
inductive Transport.Unreadable (t t' : Transport) : Error → Prop where
  | failed {kind : FaultKind} {earlier : List Arrival}
    (h : t.wire.arrivals = earlier ++ .failure kind :: t'.wire.arrivals) :
    Unreadable t t' (.transport (.scripted kind))
  | ended {earlier : List Arrival}
    (h : t.wire.arrivals = earlier ++ .bytes [] :: t'.wire.arrivals) :
    Unreadable t t' (.transport .closedByPeer)

namespace Link

variable {l l' : Link} {timeout byteTimeout : Nat}

theorem ends_receive (timeout byteTimeout : Nat) (c : Channel) (l : Link) :
    Received.Ends c.codec l.transport.wire.arrivals (Received.start c.codec timeout byteTimeout
      c.buffer l.journal.now l.transport.wire.arrivals) :=
  Received.ends_start

theorem unreadable_of_receive (hc : l.isConnected = true) {e : Error}
    (h : receive timeout byteTimeout l = .error e l') :
    e = .timeout ∨ e.isFraming = true ∨ l.transport.Unreadable l'.transport e := by
  rcases hchannel : l.channel with _ | c
  · rw [isConnected, hchannel] at hc
    cases hc
  · have hends := ends_receive timeout byteTimeout c l
    rw [receive_eq hchannel] at h
    split at h
    · cases h
    · rename_i hresult
      cases h
      cases hends with
      | frame hresult' => cases hresult.symm.trans hresult'
      | noFrame hresult' he =>
        cases hresult.symm.trans hresult'
        exact .inr (.inl he)
      | timeout hresult' =>
        cases hresult.symm.trans hresult'
        exact .inl rfl
      | failure earlier hresult' harrivals =>
        cases hresult.symm.trans hresult'
        exact .inr (.inr (.failed harrivals))
      | ended earlier hresult' harrivals =>
        cases hresult.symm.trans hresult'
        exact .inr (.inr (.ended harrivals))

/-- A message that is received is one that a split has found. -/
theorem exists_split_of_receive {m : Message} (h : receive timeout byteTimeout l = .ok m l') :
    ∃ c bytes rest, l.channel = some c ∧ c.codec.split bytes = .frame m rest := by
  obtain ⟨c, hc⟩ := channel_of_receive h
  have hends := ends_receive timeout byteTimeout c l
  rw [receive_eq hc] at h
  split at h
  · rename_i hresult
    cases h
    cases hends with
    | frame hresult' hsplit =>
      cases hresult.symm.trans hresult'
      exact ⟨c, _, _, hc, hsplit⟩
    | noFrame hresult' | timeout hresult' | failure _ hresult' | ended _ hresult' =>
      cases hresult.symm.trans hresult'
  · cases h

theorem sameAcceptance_receive (timeout byteTimeout : Nat) :
    Within SameAcceptance (receive timeout byteTimeout) := by
  intro l
  rcases hc : l.channel with _ | c
  · rw [after, receive, hc]
    rfl
  · rw [after_receive hc]
    rfl

theorem spending_receive (timeout byteTimeout : Nat) :
    Within (Spending [] id) (receive timeout byteTimeout) := by
  intro l a _
  rcases hc : l.channel with _ | c
  · rw [after, receive, hc]
  · rw [after_receive hc]
    rfl

end Link

end Modbus

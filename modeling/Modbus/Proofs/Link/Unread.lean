import Modbus.Proofs.Frame.Stream
import Modbus.Proofs.Link.Faultless

/-! The bytes that a link has not used yet. Receiving a frame uses up the bytes of the frame, a read
that times out forgets those that it has found, and no other work on a link touches them unless it
gives up the stream. -/

namespace Modbus

/-- The bytes that arrive, in order. -/
def Arrival.content : List Arrival → List UInt8
  | [] => []
  | .bytes group :: rest => group ++ content rest
  | _ :: rest => content rest

open Arrival (content)

/-! ### Receiving -/

theorem Split.ne_timeout_of_outcome? {s : Split} {result : Except Error Message}
    {left : List UInt8} (h : s.outcome? = some (result, left)) : result ≠ .error .timeout := by
  rintro rfl
  cases s <;> cases h

namespace Mbap

variable {role : Role} {buffer left : List UInt8}

theorem isFrame_of_outcome? {m : Message}
    (h : (split role buffer).outcome? = some (.ok m, left)) :
    IsFrame m.adu ∧ buffer = m.adu ++ left := by
  rcases hsplit : split role buffer with _ | ⟨m', rest⟩ | _ | _ <;> rw [hsplit] at h <;> cases h
  exact isFrame_of_split hsplit

end Mbap

namespace Received

/-- What is received comes from the bytes that are pending, from the first one on. -/
structure Accounts (pending : List UInt8) (r : Received) : Prop where
  taken : ∀ m, r.result = .ok m →
    Mbap.IsFrame m.adu ∧ pending = m.adu ++ (r.buffer ++ content r.arrivals)
  lost : r.result = .error .timeout → r.buffer = [] ∧ content r.arrivals <:+ pending

variable {role : Role} {byteTimeout deadline now : Nat} {buffer pending : List UInt8}

theorem accounts_of_outcome? {result : Except Error Message} {left : List UInt8}
    (h : (Mbap.split role buffer).outcome? = some (result, left)) (arrivals : List Arrival)
    (deadlines : List Nat) :
    Accounts (buffer ++ content arrivals) ⟨result, left, now, arrivals, deadlines⟩ := by
  refine ⟨?_, fun htimeout => (Split.ne_timeout_of_outcome? h htimeout).elim⟩
  rintro m rfl
  obtain ⟨hframe, hbuffer⟩ := Mbap.isFrame_of_outcome? h
  exact ⟨hframe, by rw [hbuffer, List.append_assoc]⟩

theorem Accounts.setting {r : Received} (h : Accounts pending r) (deadline : Nat) :
    Accounts pending (r.setting deadline) :=
  ⟨h.taken, h.lost⟩

theorem accounts_await (arrivals : List Arrival) :
    Accounts (buffer ++ content arrivals)
      (await ⟨.tcp, role⟩ byteTimeout deadline buffer now arrivals) := by
  induction arrivals generalizing buffer deadline now with
  | nil => exact ⟨nofun, fun _ => ⟨rfl, List.suffix_append _ _⟩⟩
  | cons arrival rest ih =>
    cases arrival with
    | pause ms =>
      rw [await]
      split
      · exact ih
      · exact ⟨nofun, fun _ => ⟨rfl, List.suffix_append _ _⟩⟩
    | «until» t =>
      rw [await]
      split
      · exact ih
      · exact ⟨nofun, fun _ => ⟨rfl, List.suffix_append _ _⟩⟩
    | failure kind => exact ⟨nofun, nofun⟩
    | bytes group =>
      rcases group with _ | ⟨b, bs⟩
      · exact ⟨nofun, nofun⟩
      · rw [content, ← List.append_assoc, await]
        split
        · rename_i houtcome
          exact accounts_of_outcome? houtcome rest []
        · exact ih.setting (now + byteTimeout)

theorem accounts_start (timeout : Nat) (arrivals : List Arrival) :
    Accounts (buffer ++ content arrivals)
      (start ⟨.tcp, role⟩ timeout byteTimeout buffer now arrivals) := by
  rw [start]
  split
  · rename_i houtcome
    exact accounts_of_outcome? houtcome arrivals [now + timeout]
  · exact ((accounts_await arrivals).setting _).setting (now + timeout)

end Received

namespace Link

/-- The bytes that have been sent to a link and have not been used. -/
def unread (l : Link) : List UInt8 :=
  ((l.channel.map (·.buffer)).getD []) ++ content l.transport.wire.arrivals

/-- The link carries a TCP stream, if any. -/
structure IsTcp (l : Link) : Prop where
  framing : l.framing = .tcp
  codec : ∀ c, l.channel = some c → c.codec.framing = .tcp

/-- The link after a wait on its stream has ended. -/
def hasReceived (l : Link) (c : Channel) (r : Received) : Link :=
  { transport := (l.withWire { l.transport.wire with arrivals := r.arrivals }).transport
    channel := some { c with buffer := r.buffer }
    journal := { l.journal with now := r.now }.set r.deadlines }

variable {l l' : Link} {c : Channel} {timeout byteTimeout : Nat}

theorem IsTcp.hasReceived (h : l.IsTcp) (hc : l.channel = some c) (r : Received) :
    (l.hasReceived c r).IsTcp := by
  refine ⟨h.framing, ?_⟩
  rintro c' hc'
  cases hc'
  exact h.codec c hc

theorem receive_eq (hc : l.channel = some c) :
    let r := Received.start c.codec timeout byteTimeout c.buffer l.journal.now
      l.transport.wire.arrivals
    receive timeout byteTimeout l =
      match r.result with
      | .ok m => .ok m (l.hasReceived c r)
      | .error e => .error e (l.hasReceived c r) := by
  rw [receive, hc]
  rfl

theorem after_receive (hc : l.channel = some c) (timeout byteTimeout : Nat) :
    after (receive timeout byteTimeout) l = l.hasReceived c (Received.start c.codec timeout
      byteTimeout c.buffer l.journal.now l.transport.wire.arrivals) := by
  rw [after, receive_eq hc]
  generalize Received.start c.codec timeout byteTimeout c.buffer l.journal.now
    l.transport.wire.arrivals = r
  rcases r.result with e | m <;> rfl

theorem accounts_of_isTcp (h : l.IsTcp) (hc : l.channel = some c) (timeout byteTimeout : Nat) :
    Received.Accounts l.unread (Received.start c.codec timeout byteTimeout c.buffer l.journal.now
      l.transport.wire.arrivals) := by
  have hcodec : c.codec = ⟨.tcp, c.codec.role⟩ := by
    rw [← h.codec c hc]
  rw [unread, hc, hcodec]
  exact Received.accounts_start _ _

theorem isTcp_after_receive (h : l.IsTcp) (timeout byteTimeout : Nat) :
    (after (receive timeout byteTimeout) l).IsTcp := by
  rcases hc : l.channel with _ | c
  · rw [after, receive, hc]
    exact h
  · rw [after_receive hc]
    exact h.hasReceived hc _

theorem channel_of_receive {m : Message} (h : receive timeout byteTimeout l = .ok m l') :
    ∃ c, l.channel = some c := by
  rcases hc : l.channel with _ | c
  · rw [receive, hc] at h
    cases h
  · exact ⟨c, rfl⟩

theorem isConnected_of_receive {m : Message} (h : receive timeout byteTimeout l = .ok m l') :
    l'.isConnected = true := by
  obtain ⟨c, hc⟩ := channel_of_receive h
  rw [receive_eq hc] at h
  split at h <;> cases h
  rfl

/-- A frame that is received is the first of what the link had not used. -/
theorem unread_of_receive (h : l.IsTcp) {m : Message}
    (hreceive : receive timeout byteTimeout l = .ok m l') :
    l'.IsTcp ∧ Mbap.IsFrame m.adu ∧ l.unread = m.adu ++ l'.unread := by
  obtain ⟨c, hc⟩ := channel_of_receive hreceive
  have haccounts := accounts_of_isTcp h hc timeout byteTimeout
  rw [receive_eq hc] at hreceive
  split at hreceive
  · rename_i hresult
    cases hreceive
    exact ⟨h.hasReceived hc _, haccounts.taken m hresult⟩
  · cases hreceive

/-- The link has a stream, and nothing is in the buffer of it. -/
def IsFresh (l : Link) : Prop := ∃ c, l.channel = some c ∧ c.buffer = []

theorem IsFresh.unread (h : l.IsFresh) : l.unread = content l.transport.wire.arrivals := by
  obtain ⟨c, hc, hbuffer⟩ := h
  rw [Link.unread, hc, Option.map_some, Option.getD_some, hbuffer, List.nil_append]

/-- A wait that has come to nothing has forgotten what the buffer held. -/
theorem unread_of_timeout (h : l.IsTcp)
    (hreceive : receive timeout byteTimeout l = .error .timeout l') :
    l'.IsTcp ∧ l'.IsFresh ∧ l'.unread <:+ l.unread := by
  rcases hc : l.channel with _ | c
  · rw [receive, hc] at hreceive
    cases hreceive
  · have haccounts := accounts_of_isTcp h hc timeout byteTimeout
    rw [receive_eq hc] at hreceive
    generalize Received.start c.codec timeout byteTimeout c.buffer l.journal.now
      l.transport.wire.arrivals = r at haccounts hreceive
    split at hreceive
    · cases hreceive
    · rename_i hresult
      cases hreceive
      obtain ⟨hbuffer, hsuffix⟩ := haccounts.lost hresult
      have hfresh : (l.hasReceived c r).IsFresh := ⟨_, rfl, hbuffer⟩
      exact ⟨h.hasReceived hc r, hfresh, hfresh.unread ▸ hsuffix⟩

end Link

/-! ### Work that reads nothing -/

/-- The link `l'` comes from `l` by work that reads nothing and connects nothing. -/
structure Link.Spares (l l' : Link) : Prop where
  framing : l'.framing = l.framing
  arrivals : l'.transport.wire.arrivals = l.transport.wire.arrivals
  channel : l'.channel = l.channel ∨ l'.channel = none

namespace Link.Spares

variable {l l' l'' : Link}

theorem refl (l : Link) : l.Spares l := ⟨rfl, rfl, .inl rfl⟩

theorem trans (h : l.Spares l') (h' : l'.Spares l'') : l.Spares l'' := by
  refine ⟨h'.framing.trans h.framing, h'.arrivals.trans h.arrivals, ?_⟩
  rcases h'.channel with hsame | hnone
  · rw [hsame]
    exact h.channel
  · exact .inr hnone

theorem channel_eq_none (h : l.Spares l') (hl : l.channel = none) : l'.channel = none := by
  rcases h.channel with hsame | hnone
  · rw [hsame, hl]
  · exact hnone

theorem isTcp (h : l.Spares l') (hl : l.IsTcp) : l'.IsTcp := by
  refine ⟨h.framing.trans hl.framing, fun c hc => ?_⟩
  rcases h.channel with hsame | hnone
  · exact hl.codec c (hsame ▸ hc)
  · rw [hnone] at hc
    cases hc

/-- As long as the stream is there, nothing of it has been used. -/
theorem unread (h : l.Spares l') (hl' : l'.isConnected = true) : l'.unread = l.unread := by
  rcases h.channel with hsame | hnone
  · rw [Link.unread, hsame, h.arrivals, Link.unread]
  · rw [isConnected, hnone] at hl'
    cases hl'

end Link.Spares

/-- The link of a state is spared. -/
def Sparing {σ : Type} (link : σ → Link) (s s' : σ) : Prop := (link s).Spares (link s')

instance {σ : Type} (link : σ → Link) : IsPreorder σ (Sparing link) where
  refl _ := .refl _
  trans _ _ _ h h' := Link.Spares.trans h h'

namespace Link

theorem sparing_attempt (a : Action) : Within (Sparing id) (attempt a) :=
  within_attempt (fun _ _ => ⟨rfl, rfl, .inl rfl⟩) a

theorem sparing_perform (a : Action) : Within (Sparing id) (perform a) :=
  within_perform (fun _ => ⟨rfl, rfl, .inl rfl⟩) (sparing_attempt a)

theorem sparing_sleep (ms : Nat) : Within (Sparing id) (sleep ms) :=
  .modify fun _ => ⟨rfl, rfl, .inl rfl⟩

theorem sparing_send (message : Message) : Within (Sparing id) (send message) :=
  within_send sparing_attempt (fun _ _ => ⟨rfl, rfl, .inl rfl⟩) sparing_sleep message

theorem sparing_takeStream : Within (Sparing id) takeStream := by
  refine within_takeStream fun l framing hkind => ⟨?_, rfl, .inl rfl⟩
  simp only [id, Link.framing, hkind]
  rfl

theorem sparing_meet (deadline : Option Nat) : Within (Sparing id) (meet deadline) :=
  within_meet (sparing_perform .connecting) (fun _ _ => ⟨rfl, rfl, .inl rfl⟩)
    (fun _ => .modify fun _ => ⟨rfl, rfl, .inl rfl⟩) deadline

/-! ### Connecting -/

/-- The first part of connecting a stream: a peer is found, if one comes. -/
def seek (deadline : Option Nat) : LinkM (Option Peer) := do
  match (← get).transport.kind with
  | .attached .. => some <$> takeStream
  | _ => meet deadline

/-- The second part: the stream to the peer is the channel from then on. -/
def settle (role : Role) (debug : Bool) : Option Peer → LinkM Bool
  | none => return false
  | some peer => do
    modify fun l => { l with channel := some ⟨⟨l.framing, role⟩, [], peer, debug⟩ }
    return true

variable {role : Role} {debug : Bool} {deadline : Option Nat}

theorem connect_eq (role : Role) (debug : Bool) (deadline : Option Nat) :
    connect role debug deadline = seek deadline >>= settle role debug := by
  funext l
  have hseek : ∀ f : Option Peer → LinkM Bool, (seek deadline >>= f) l =
      ((match l.transport.kind with
        | .attached .. => some <$> takeStream
        | _ => meet deadline) >>= f) l := fun _ => rfl
  rw [connect, run_get_bind, hseek]
  rcases l.transport.kind with _ | _ | _ | _ <;> exact run_bind_congr rfl

theorem within_seek {R : Link → Link → Prop} [IsPreorder Link R] (htake : Within R takeStream)
    (hmeet : Within R (meet deadline)) : Within R (seek deadline) := by
  refine .bind .get fun l => ?_
  split
  · exact htake.map some
  · exact hmeet

theorem sparing_seek (deadline : Option Nat) : Within (Sparing id) (seek deadline) :=
  within_seek sparing_takeStream (sparing_meet deadline)

/-- A stream that has been connected has the framing of its link, and nothing in its buffer. -/
theorem connect_spec {l l' : Link} (h : connect role debug deadline l = .ok true l') :
    ∃ peer, l'.channel = some ⟨⟨l.framing, role⟩, [], peer, debug⟩ ∧ l'.framing = l.framing := by
  rw [connect_eq] at h
  obtain ⟨peer, l₁, hseek, hsettle⟩ := of_run_bind h
  have hspares : l.Spares l₁ := (sparing_seek deadline).of_ok hseek
  rcases peer with _ | peer <;> cases hsettle
  refine ⟨peer, ?_, hspares.framing⟩
  rw [← hspares.framing]

theorem arrivals_of_connect {l l' : Link} (h : connect role debug deadline l = .ok true l') :
    l'.transport.wire.arrivals = l.transport.wire.arrivals := by
  rw [connect_eq] at h
  obtain ⟨peer, l₁, hseek, hsettle⟩ := of_run_bind h
  have hspares : l.Spares l₁ := (sparing_seek deadline).of_ok hseek
  rcases peer with _ | peer <;> cases hsettle
  exact hspares.arrivals

end Link

end Modbus

import Modbus.Proofs.Link.Unread
import Modbus.Proofs.Server.Dispatch
import Modbus.Proofs.Server.Poll

/-! Requests that a server takes from a TCP stream. They are the frames of the stream, one after the
other from its first byte on, as long as no wait for the rest of a frame comes to nothing. After one
that does, the part of the frame that has been read is forgotten, the stream goes on in the middle
of the frame, and what is found there is taken for a request. -/

namespace Modbus

open Arrival (content)

namespace Server

variable {s s' : Server} {α : Type} {timeout : Nat}

/-! ### Work between two reads -/

theorem sparing_onLink {work : LinkM α} (h : Within (Sparing id) work) :
    Within (Sparing Server.link) (onLink work) := by
  intro s
  rw [after_onLink]
  exact h s.link

theorem spares_forward (id : ClientId) (unit : UnitId) (request : Request) (s : Server) :
    s.link.Spares (forward id unit request s).2.link := by
  rw [forward]
  split
  · exact .refl _
  · dsimp only
    split <;> exact ⟨rfl, rfl, .inl rfl⟩

theorem spares_dispatch (s : Server) (peer : Peer) (message : Message) :
    s.link.Spares (s.dispatch peer message).2.link := by
  have hdispatch : Sparing Server.link s (s.dispatch peer message).2 :=
    related_dispatch (P := fun _ => True)
      (fun _ id unit request s _ _ => spares_forward id unit request s)
      (fun _ _ => ⟨rfl, rfl, .inl rfl⟩) (fun _ _ _ _ => .refl _) (fun _ _ => trivial) peer message
  exact hdispatch

theorem sparing_dropChannel : Within (Sparing Server.link) (onLink Link.dropChannel) :=
  sparing_onLink (.modify fun _ => ⟨rfl, rfl, .inr rfl⟩)

theorem sparing_perform (a : Action) : Within (Sparing Server.link) (onLink (Link.perform a)) :=
  sparing_onLink (Link.sparing_perform a)

theorem sparing_sleep (ms : Nat) : Within (Sparing Server.link) (onLink (Link.sleep ms)) :=
  sparing_onLink (Link.sparing_sleep ms)

theorem sparing_recover (e : Error) : Within (Sparing Server.link) (recover e) :=
  within_recover sparing_dropChannel (sparing_perform .closing) (sparing_perform .opening)
    sparing_sleep e

theorem channel_after_recover (e : Error) (s : Server) :
    (after (recover e) s).link.channel = none := by
  obtain ⟨left, hrecover, -⟩ := recover_eq e s
  have hspares := within_setRight (sparing_perform .closing) (sparing_perform .opening)
    sparing_sleep left e s.settings { s with link := { s.link with channel := none } }
  rw [after, hrecover, ← after]
  exact hspares.channel_eq_none rfl

theorem sparing_handle (message : Message) : Within (Sparing Server.link) (handle message) :=
  within_handle sparing_recover (fun m => sparing_onLink (Link.sparing_send m)) spares_dispatch
    message

/-! ### Polls on a stream -/

/-- The request that a poll takes from the stream, if it takes one. -/
def taken? (timeout : Nat) (s : Server) : Option Message :=
  if s.isOpen then
    match Link.receive timeout s.settings.byteTimeout s.link with
    | .ok message _ => some message
    | .error .. => none
  else none

/-- A poll times out after it has read a part of a frame. -/
def CutsShort (timeout : Nat) (s : Server) : Prop :=
  s.isOpen = true ∧ ∃ l, Link.receive timeout s.settings.byteTimeout s.link = .error .timeout l ∧
    l.unread ≠ s.link.unread

theorem not_cutsShort_of_taken? (h : (s.taken? timeout).isSome = true) : ¬ s.CutsShort timeout := by
  rintro ⟨hopen, l, hreceive, -⟩
  rw [taken?, if_pos hopen, hreceive] at h
  cases h

/-- A poll that takes a request hands it to the devices. -/
theorem poll_of_taken? (hc : s.link.isConnected = true) {m : Message}
    (h : s.taken? timeout = some m) : ∃ l, poll timeout s = handle m { s with link := l } := by
  rw [taken?] at h
  split at h
  · rename_i hopen
    split at h
    · rename_i l hreceive
      cases h
      exact ⟨l, (poll_of_isConnected hopen hc).trans (pollStream_of_receive hreceive)⟩
    · cases h
  · cases h

theorem channel_after_discardFrame (h : s.framing = .tcp) :
    (after discardFrame s).link.channel = none := by
  rw [after, discardFrame, run_get_bind, if_pos h]
  rfl

/-- The devices are left alone. -/
def KeepsDevices (s s' : Server) : Prop := s'.devices = s.devices

instance : IsPreorder Server KeepsDevices where
  refl _ := rfl
  trans _ _ _ h h' := Eq.trans h' h

theorem keepsDevices_onLink (work : LinkM α) : Within KeepsDevices (onLink work) := by
  intro s
  rw [after_onLink]
  rfl

/-- A poll that takes no request leaves the devices alone. -/
theorem devices_of_taken?_eq_none (hc : s.link.isConnected = true)
    (h : s.taken? timeout = none) : (after (poll timeout) s).devices = s.devices := by
  by_cases hopen : s.isOpen = true
  · rw [taken?, if_pos hopen] at h
    rw [after, poll_of_isConnected hopen hc, ← after]
    rcases hreceive : Link.receive timeout s.settings.byteTimeout s.link with ⟨m, l⟩ | ⟨e, l⟩
    · rw [hreceive] at h
      cases h
    · by_cases he : e = .timeout
      · rw [he] at hreceive
        rw [after, pollStream_of_timeout hreceive]
      · rw [after, pollStream_of_error he hreceive, ← after]
        have hdrop := keepsDevices_onLink Link.dropChannel
        split
        · exact within_discardFrame hdrop { s with link := l }
        · exact within_recover hdrop (keepsDevices_onLink _) (keepsDevices_onLink _)
            (fun _ => keepsDevices_onLink _) e { s with link := l }
  · rw [after_poll_of_not_isOpen hopen]

/-- What a poll on a stream makes of the bytes that have not been used: it takes the first frame of
them, it forgets some, or it leaves them. -/
inductive Effect (timeout : Nat) (s s' : Server) : Prop where
  | takes {m : Message} {rest : List UInt8} (htaken : s.taken? timeout = some m)
    (hframe : Mbap.IsFrame m.adu) (hunread : s.link.unread = m.adu ++ rest)
    (hrest : s'.link.isConnected = true → s'.link.unread = rest)
  | forgets {lost : List UInt8} (htaken : s.taken? timeout = none) (hcut : s.CutsShort timeout)
    (hlost : lost ≠ []) (hunread : s.link.unread = lost ++ s'.link.unread)
  | leaves (htaken : s.taken? timeout = none) (hcut : ¬ s.CutsShort timeout)
    (hrest : s'.link.isConnected = true → s'.link.unread = s.link.unread)

theorem effect_of_receive (htcp : s.link.IsTcp) (hc : s.link.isConnected = true)
    (hopen : s.isOpen = true) {m : Message} {l : Link}
    (hreceive : Link.receive timeout s.settings.byteTimeout s.link = .ok m l) :
    (after (poll timeout) s).link.IsTcp ∧ Effect timeout s (after (poll timeout) s) := by
  obtain ⟨hl, hframe, hunread⟩ := Link.unread_of_receive htcp hreceive
  have hpoll : after (poll timeout) s = after (handle m) { s with link := l } := by
    rw [after, poll_of_isConnected hopen hc, pollStream_of_receive hreceive, ← after]
  have hspares : l.Spares (after (poll timeout) s).link := by
    rw [hpoll]
    exact sparing_handle m { s with link := l }
  have htaken : s.taken? timeout = some m := by
    rw [taken?, if_pos hopen, hreceive]
  exact ⟨hspares.isTcp hl, .takes htaken hframe hunread hspares.unread⟩

theorem effect_of_timeout (htcp : s.link.IsTcp) (hc : s.link.isConnected = true)
    (hopen : s.isOpen = true) {l : Link}
    (hreceive : Link.receive timeout s.settings.byteTimeout s.link = .error .timeout l) :
    (after (poll timeout) s).link.IsTcp ∧ Effect timeout s (after (poll timeout) s) := by
  obtain ⟨hl, -, lost, hlost⟩ := Link.unread_of_timeout htcp hreceive
  have hpoll : after (poll timeout) s = { s with link := l } := by
    rw [after, poll_of_isConnected hopen hc, pollStream_of_timeout hreceive]
  have htaken : s.taken? timeout = none := by
    rw [taken?, if_pos hopen, hreceive]
  rw [hpoll]
  refine ⟨hl, ?_⟩
  by_cases hsame : l.unread = s.link.unread
  · refine .leaves htaken ?_ fun _ => hsame
    rintro ⟨-, l', hreceive', hdiffers⟩
    rw [hreceive] at hreceive'
    cases hreceive'
    exact hdiffers hsame
  · refine .forgets htaken ⟨hopen, l, hreceive, hsame⟩ ?_ hlost.symm
    rintro rfl
    exact hsame hlost

theorem effect_of_error (htcp : s.link.IsTcp) (hc : s.link.isConnected = true)
    (hopen : s.isOpen = true) {e : Error} {l : Link} (he : e ≠ .timeout)
    (hreceive : Link.receive timeout s.settings.byteTimeout s.link = .error e l) :
    (after (poll timeout) s).link.IsTcp ∧ Effect timeout s (after (poll timeout) s) := by
  have hl : l.IsTcp := by
    have hafter := Link.isTcp_after_receive htcp timeout s.settings.byteTimeout
    rwa [after, hreceive] at hafter
  have hpoll : after (poll timeout) s =
      after (if e.isFraming then discardFrame else recover e) { s with link := l } := by
    rw [after, poll_of_isConnected hopen hc, pollStream_of_error he hreceive, ← after]
  have hgone : l.Spares (after (poll timeout) s).link ∧
      (after (poll timeout) s).link.channel = none := by
    rw [hpoll]
    split
    · exact ⟨within_discardFrame sparing_dropChannel { s with link := l },
        channel_after_discardFrame hl.framing⟩
    · exact ⟨sparing_recover e { s with link := l }, channel_after_recover e _⟩
  have htaken : s.taken? timeout = none := by
    rw [taken?, if_pos hopen, hreceive]
  refine ⟨hgone.1.isTcp hl, .leaves htaken ?_ ?_⟩
  · rintro ⟨-, l', hreceive', -⟩
    rw [hreceive] at hreceive'
    cases hreceive'
    exact he rfl
  · intro hconnected
    rw [Link.isConnected, hgone.2] at hconnected
    cases hconnected

theorem effect_of_poll (htcp : s.link.IsTcp) (hc : s.link.isConnected = true) (timeout : Nat) :
    (after (poll timeout) s).link.IsTcp ∧ Effect timeout s (after (poll timeout) s) := by
  by_cases hopen : s.isOpen = true
  · rcases hreceive : Link.receive timeout s.settings.byteTimeout s.link with ⟨m, l⟩ | ⟨e, l⟩
    · exact effect_of_receive htcp hc hopen hreceive
    · cases e with
      | timeout => exact effect_of_timeout htcp hc hopen hreceive
      | _ =>
        refine effect_of_error htcp hc hopen ?_ hreceive
        exact nofun
  · have htaken : s.taken? timeout = none := if_neg hopen
    rw [after_poll_of_not_isOpen hopen]
    exact ⟨htcp, .leaves htaken (fun hcut => hopen hcut.1) fun _ => rfl⟩

/-! ### Runs on a stream -/

/-- Polls a server as long as its stream is there: the requests that it takes from the stream, and
the server after the polls. -/
def converse : List Nat → Server → List Message × Server
  | [], s => ([], s)
  | timeout :: rest, s =>
    if s.link.isConnected then
      let (messages, last) := converse rest (after (poll timeout) s)
      ((s.taken? timeout).toList ++ messages, last)
    else ([], s)

/-- No poll times out after it has read a part of a frame. -/
def Uncut : List Nat → Server → Prop
  | [], _ => True
  | timeout :: rest, s =>
    s.link.isConnected = true → ¬ s.CutsShort timeout ∧ Uncut rest (after (poll timeout) s)

theorem converse_of_not_isConnected (hc : ¬ s.link.isConnected = true) (timeouts : List Nat) :
    s.converse timeouts = ([], s) := by
  cases timeouts with
  | nil => rfl
  | cons timeout rest => rw [converse, if_neg hc]

/-- The requests `messages` are the first frames of the bytes `pending`, and the server `last` has
not used what follows them. -/
structure Aligned (pending : List UInt8) (messages : List Message) (last : Server) : Prop where
  frames : ∀ f ∈ messages.map (·.adu), Mbap.IsFrame f
  unread : ∃ rest, pending = (messages.map (·.adu)).flatten ++ rest ∧
    (last.link.isConnected = true → last.link.unread = rest)

theorem Aligned.cons {pending rest : List UInt8} {m : Message} {messages : List Message}
    {last : Server} (h : Aligned rest messages last) (hframe : Mbap.IsFrame m.adu)
    (hpending : pending = m.adu ++ rest) : Aligned pending (m :: messages) last := by
  obtain ⟨hframes, later, hrest, hlater⟩ := h
  refine ⟨?_, later, ?_, hlater⟩
  · rw [List.map_cons]
    exact List.forall_mem_cons.mpr ⟨hframe, hframes⟩
  · rw [hpending, hrest, List.map_cons, List.flatten_cons, List.append_assoc]

theorem Aligned.prefix_frames {pending : List UInt8} {messages : List Message} {last : Server}
    (h : Aligned pending messages last) : messages.map (·.adu) <+: Mbap.frames pending := by
  obtain ⟨hframes, rest, hrest, -⟩ := h
  rw [hrest, Mbap.frames_flatten_append hframes]
  exact List.prefix_append _ _

theorem aligned_of_uncut {timeouts : List Nat} (htcp : s.link.IsTcp) (h : s.Uncut timeouts) :
    (s.converse timeouts).2.link.IsTcp ∧
      Aligned s.link.unread (s.converse timeouts).1 (s.converse timeouts).2 := by
  induction timeouts generalizing s with
  | nil => exact ⟨htcp, nofun, s.link.unread, rfl, fun _ => rfl⟩
  | cons timeout timeouts ih =>
    by_cases hc : s.link.isConnected = true
    · obtain ⟨hcut, huncut⟩ := h hc
      obtain ⟨htcp', heffect⟩ := effect_of_poll htcp hc timeout
      obtain ⟨hlast, haligned⟩ := ih htcp' huncut
      rw [converse, if_pos hc]
      refine ⟨hlast, ?_⟩
      -- A stream that the poll has ended gives no more requests.
      have hgone : ∀ pending, ¬ (after (poll timeout) s).link.isConnected = true →
          Aligned pending ((after (poll timeout) s).converse timeouts).1
            ((after (poll timeout) s).converse timeouts).2 := by
        intro pending hc'
        rw [converse_of_not_isConnected hc']
        exact ⟨nofun, pending, rfl, fun hconnected => (hc' hconnected).elim⟩
      cases heffect with
      | @takes m rest htaken hframe hunread hrest =>
        rw [htaken]
        refine Aligned.cons ?_ hframe hunread
        by_cases hc' : (after (poll timeout) s).link.isConnected = true
        · rw [← hrest hc']
          exact haligned
        · exact hgone rest hc'
      | forgets htaken hcut' => exact (hcut hcut').elim
      | leaves htaken hcut' hrest =>
        rw [htaken]
        by_cases hc' : (after (poll timeout) s).link.isConnected = true
        · rw [← hrest hc']
          exact haligned
        · exact hgone _ hc'
    · rw [converse, if_neg hc]
      exact ⟨htcp, nofun, s.link.unread, rfl, fun _ => rfl⟩

/-! ### Streams that are accepted -/

theorem accept_spec {s₀ : Server} (h : accept timeout s₀ = .ok true s) :
    s.link.IsFresh ∧ s.isOpen = s₀.isOpen ∧ (s₀.framing = .tcp → s.link.IsTcp) := by
  rw [accept, run_get_bind, onLink] at h
  split at h
  · rename_i hconnect
    cases h
    obtain ⟨peer, hchannel, hframing⟩ := Link.connect_spec hconnect
    refine ⟨⟨_, hchannel, rfl⟩, rfl, fun htcp => ⟨hframing.trans htcp, ?_⟩⟩
    intro c hc
    rw [hchannel] at hc
    cases hc
    exact htcp
  · cases h

/-- A poll that accepts a peer goes on as one of the stream that it has accepted. -/
theorem poll_of_accept {s₀ : Server} (hopen : s₀.isOpen = true)
    (hc : s₀.link.isConnected = false) (h : accept timeout s₀ = .ok true s) :
    poll timeout s₀ = poll timeout s := by
  obtain ⟨⟨c, hchannel, -⟩, hopen', -⟩ := accept_spec h
  have hc' : s.link.isConnected = true := by
    rw [Link.isConnected, hchannel]
    rfl
  rw [poll_of_isConnected (hopen'.trans hopen) hc', poll_eq_pollStream hopen hc h]

/-- The server when the peer sends `more` next, and nothing after it. -/
def hears (more : List UInt8) (s : Server) : Server :=
  { s with link := s.link.withWire { s.link.transport.wire with arrivals := [.bytes more] } }

/-- A frame that arrives at once is taken if nothing is in the buffer. -/
theorem taken?_hears (hopen : s.isOpen = true) (htcp : s.link.IsTcp) (hfresh : s.link.IsFresh)
    {f : List UInt8} (hf : Mbap.IsFrame f) (timeout : Nat) :
    ∃ m, (s.hears f).taken? timeout = some m ∧ m.adu = f := by
  obtain ⟨c, hc, hbuffer⟩ := hfresh
  obtain ⟨m, hsplit, hadu⟩ := hf.split_append c.codec.role []
  obtain ⟨b, bs, rfl⟩ := List.exists_cons_of_ne_nil hf.ne_nil
  rw [List.append_nil] at hsplit
  have hcodec : c.codec = ⟨.tcp, c.codec.role⟩ := by
    rw [← htcp.codec c hc]
  have hsplit' : c.codec.split (b :: bs) = .frame m [] := by
    rw [hcodec]
    exact hsplit
  have hnil : c.codec.split [] = .incomplete := by
    rw [hcodec]
    rfl
  have hopen' : (s.hears (b :: bs)).isOpen = true := hopen
  have hc' : (s.hears (b :: bs)).link.channel = some c := hc
  refine ⟨m, ?_, hadu⟩
  rw [taken?, if_pos hopen', Link.receive_eq hc']
  simp only [hears, Link.withWire, hbuffer, Received.start, hnil, Split.outcome?, Received.await,
    List.nil_append, hsplit', Received.setting_result]

theorem after_poll_of_cutsShort (htcp : s.link.IsTcp) (hcut : s.CutsShort timeout) :
    ∃ l b lost, after (poll timeout) s = { s with link := l } ∧ l.IsTcp ∧ l.IsFresh ∧
      s.link.isConnected = true ∧ s.link.unread = b :: lost ++ l.unread := by
  obtain ⟨hopen, l, hreceive, hdiffers⟩ := hcut
  obtain ⟨hl, hfresh, lost, hlost⟩ := Link.unread_of_timeout htcp hreceive
  have hc : s.link.isConnected = true := by
    rcases hchannel : s.link.channel with _ | c
    · rw [Link.receive, hchannel] at hreceive
      cases hreceive
    · rw [Link.isConnected, hchannel]
      rfl
  rcases lost with _ | ⟨b, lost⟩
  · exact (hdiffers hlost).elim
  · refine ⟨l, b, lost, ?_, hl, hfresh, hc, hlost.symm⟩
    rw [after, poll_of_isConnected hopen hc, pollStream_of_timeout hreceive]

/-- After a poll that times out within a frame, there is a frame that the peer can send next which
is taken and is not the next one of the stream. -/
theorem Aligned.breaks {pending : List UInt8} {messages : List Message} {last : Server}
    (h : Aligned pending messages last) (htcp : last.link.IsTcp) (hcut : last.CutsShort timeout) :
    let cut := after (poll timeout) last
    ∃ heard more, pending = heard ++ content cut.link.transport.wire.arrivals ∧
      ∀ t, ∃ m, (cut.hears more).taken? t = some m ∧
        ¬ (messages ++ [m]).map (·.adu) <+: Mbap.frames (heard ++ more) := by
  intro cut
  obtain ⟨hframes, rest, hpending, hrest⟩ := h
  obtain ⟨l, b, lost, hpoll, hl, hfresh, hc, hlost⟩ := after_poll_of_cutsShort htcp hcut
  have hcut' : cut = { last with link := l } := hpoll
  have hopen : cut.isOpen = true := by
    rw [hcut']
    exact hcut.1
  have hcl : cut.link = l := by
    rw [hcut']
  have hf : Mbap.IsFrame [b + 1, 0, 0, 0, 0, 2, 0, 0] := rfl
  refine ⟨(messages.map (·.adu)).flatten ++ b :: lost, [b + 1, 0, 0, 0, 0, 2, 0, 0], ?_,
    fun t => ?_⟩
  · rw [hpending, ← hrest hc, hlost, hfresh.unread, hcl, List.append_assoc]
  · obtain ⟨m, htaken, hadu⟩ := taken?_hears hopen (hcl ▸ hl) (hcl ▸ hfresh) hf t
    refine ⟨m, htaken, fun hprefix => ?_⟩
    rw [List.append_assoc, Mbap.frames_flatten_append hframes, List.map_append,
      List.prefix_append_right_inj, List.map_singleton, hadu] at hprefix
    obtain ⟨fs, hfs⟩ := hprefix
    have hhead := Mbap.head?_of_frames_eq_cons hfs.symm
    simp only [List.head?_cons, List.cons_append, Option.some.injEq] at hhead
    exact absurd hhead (by simp)

/-- The requests that a server takes from a TCP stream are the first frames of it as long as no poll
times out after it has read a part of a frame. When one does, there is something that the peer can
send next of which the server takes a request that is not the next frame. -/
theorem converse_of_accept {s₀ : Server} {timeout₀ : Nat} (htcp : s₀.framing = .tcp)
    (haccept : accept timeout₀ s₀ = .ok true s) {timeouts : List Nat}
    (huncut : s.Uncut timeouts) :
    let sent := content s.link.transport.wire.arrivals
    let run := s.converse timeouts
    run.1.map (·.adu) <+: Mbap.frames sent ∧
      ∀ t, run.2.CutsShort t →
        let cut := after (poll t) run.2
        ∃ heard more, sent = heard ++ content cut.link.transport.wire.arrivals ∧
          ∀ t', ∃ m, (cut.hears more).taken? t' = some m ∧
            ¬ (run.1 ++ [m]).map (·.adu) <+: Mbap.frames (heard ++ more) := by
  intro sent run
  obtain ⟨hfresh, -, hs⟩ := accept_spec haccept
  obtain ⟨hlast, haligned⟩ := aligned_of_uncut (hs htcp) huncut
  rw [hfresh.unread] at haligned
  exact ⟨haligned.prefix_frames, fun t hcut => haligned.breaks hlast hcut⟩

/-- The first of two frames comes in two parts, the second of them together with the other frame. -/
theorem converse_of_accept_parts :
    let first : List UInt8 := [0, 1, 0, 0, 0, 6, 33, 6, 0, 0, 0, 5]
    let second : List UInt8 := [0, 2, 0, 0, 0, 6, 33, 3, 0, 0, 0, 1]
    let wire := { Wire.quiet "server" with
      arrivals := [.bytes (first.take 4), .pause 40, .bytes (first.drop 4 ++ second)]
      meetings := [.peer .inProcess] }
    let s₀ := { Server.ofTransport ⟨.hooked .tcp true 0, wire⟩
        { LinkSettings.standard with byteTimeout := 50 } with isOpen := true }
    let s := after (accept 100) s₀
    (s₀.framing = .tcp ∧ accept 100 s₀ = .ok true s ∧ s.Uncut [100, 100]) ∧
      (s.converse [100, 100]).1.map (·.adu) = [first, second] ∧
      [first, second] <+: Mbap.frames (first ++ second) := by
  intro first second wire s₀ s
  have huncut : s.Uncut [100, 100] := fun _ =>
    ⟨not_cutsShort_of_taken? (by decide), fun _ => ⟨not_cutsShort_of_taken? (by decide), trivial⟩⟩
  have htaken : (s.converse [100, 100]).1.map (·.adu) = [first, second] := by decide
  have htcp : s₀.framing = .tcp := rfl
  have haccept : accept 100 s₀ = .ok true s := rfl
  have hprefix := (converse_of_accept htcp haccept huncut).1
  refine ⟨⟨htcp, haccept, huncut⟩, htaken, ?_⟩
  rw [htaken] at hprefix
  exact hprefix

/-- A peer sends one frame, a write of six registers, and pauses within it. The values that it
writes are a frame themselves, which is taken for a request and executed. -/
theorem converse_within_frame :
    let start : List UInt8 := [0, 1, 0, 0, 0, 19, 33, 16, 0, 0, 0, 6, 12]
    let values : List UInt8 := [0, 2, 0, 0, 0, 6, 33, 6, 0, 2, 15, 15]
    let wire := { Wire.quiet "server" with
      arrivals := [.bytes start, .pause 60, .bytes values], meetings := [.peer .inProcess] }
    let s₀ := { Server.ofTransport ⟨.hooked .tcp true 0, wire⟩
        { LinkSettings.standard with byteTimeout := 50 } with
      devices := [(Device.ofId ⟨33⟩).declare .holdingRegister 8 1], isOpen := true }
    let s := after (accept 100) s₀
    let run := s.converse [100, 100]
    s₀.framing = .tcp ∧ accept 100 s₀ = .ok true s ∧
      (run.2.device? ⟨33⟩).bind (·.map.holdingRegisters.map (·.cells)) =
        some [0, 0, 3855, 0, 0, 0, 0, 0] ∧
      ¬ run.1.map (·.adu) <+: Mbap.frames (content s.link.transport.wire.arrivals) := by
  intro start values wire s₀ s run
  have hframe : Mbap.IsFrame (start ++ values) := rfl
  have hsent : Mbap.frames (content s.link.transport.wire.arrivals) = [start ++ values] := by
    have hcontent : content s.link.transport.wire.arrivals = start ++ values ++ [] := rfl
    rw [hcontent, hframe.frames_append, Mbap.frames_of_firstSize?_eq_none rfl]
  have htaken : run.1.map (·.adu) = [values] := by decide
  refine ⟨rfl, rfl, by decide, ?_⟩
  rw [htaken, hsent]
  decide

end Server

end Modbus

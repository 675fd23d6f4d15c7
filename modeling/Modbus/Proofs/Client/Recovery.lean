import Modbus.Proofs.Client.Stale
import Modbus.Proofs.Link.Failures

/-! Clients that give up a link when it fails. A failed stream is never used again: the next call
waits until its time has come and connects another one before it does anything else. A client that
does not recover its link keeps the stream whatever its calls come to. -/

namespace Modbus

/-- An answer that has been received is not the answer to the request. -/
def Error.isMismatch : Error → Bool
  | .protocol (.headerMismatch ..) | .protocol (.functionMismatch ..) => true
  | _ => false

theorem Error.isLinkFailure_of_isMismatch {e : Error} (h : e.isMismatch = true) :
    e.isLinkFailure = false := by
  cases e with
  | timeout | transport | config => cases h
  | protocol e => cases e <;> first | rfl | cases h

/-! ### Errors of a link -/

theorem Error.isLinkFailure_of_isFraming {e : Error} (h : e.isFraming = true) :
    e.isLinkFailure = true := by
  cases e with
  | timeout | transport => rfl
  | protocol | config => exact h

theorem Received.Ends.isLinkFailure {codec : FrameCodec} {arrivals : List Arrival} {r : Received}
    {e : Error} (h : Ends codec arrivals r) (hresult : r.result = .error e) :
    e.isLinkFailure = true := by
  cases h with
  | frame hframe => cases hresult.symm.trans hframe
  | noFrame hnone he =>
    cases hresult.symm.trans hnone
    exact Error.isLinkFailure_of_isFraming he
  | timeout hend | failure _ hend | ended _ hend =>
    cases hresult.symm.trans hend
    rfl

theorem Transport.Fails.isLinkFailure {actions : List Action} {t t' : Transport} {e : Error}
    (h : t.Fails actions t' e) : e.isLinkFailure = true := by
  obtain ⟨a, -, kind, -, rfl⟩ := h
  rfl

/-- The work fails with the link alone. -/
abbrev FailsWithLink {σ α : Type} (work : EStateM Error σ α) : Prop :=
  Throws (fun e => e.isLinkFailure = true) work

theorem Honest.failsWithLink {σ α : Type} {link : σ → Link} {actions : List Action}
    {work : EStateM Error σ α} (h : Honest link actions work) : FailsWithLink work :=
  fun s e s' he => (h.fails s e s' he).isLinkFailure

namespace Link

theorem fails_connect (role : Role) (debug : Bool) (deadline : Option Nat) :
    FailsWithLink (connect role debug deadline) := by
  intro l e l' h
  cases unmet_of_connect h with
  | failed hfails => exact hfails.isLinkFailure
  | refused | detached => rfl

theorem fails_receive (timeout byteTimeout : Nat) :
    FailsWithLink (receive timeout byteTimeout) := by
  intro l e l' h
  rcases hc : l.channel with _ | c
  · rw [receive, hc] at h
    cases h
    rfl
  · rw [receive_eq hc] at h
    split at h
    · cases h
    · rename_i hresult
      cases h
      exact (ends_receive timeout byteTimeout c l).isLinkFailure hresult

end Link

/-! ### Work that neither sends nor receives -/

/-- The link `l'` comes from `l` by work that has tried some of the actions `tried`, while time may
have passed. Nothing has been sent, and nothing has been received. -/
structure Link.Tries (tried : List Action) (l l' : Link) : Prop where
  name : l'.transport.wire.name = l.transport.wire.name
  arrivals : l'.transport.wire.arrivals = l.transport.wire.arrivals
  now : l.journal.now ≤ l'.journal.now
  record : ∃ actions ⊆ tried,
    l'.journal.entries = l.journal.entries ++ actions.map (.did l.transport.wire.name)

/-- The actions that have been tried on the link of a state are some of `tried`. -/
def Trying {σ : Type} (tried : List Action) (link : σ → Link) (s s' : σ) : Prop :=
  (link s).Tries tried (link s')

namespace Link

variable {tried : List Action} {l l' l'' : Link}

theorem Tries.of_journal_eq (hname : l'.transport.wire.name = l.transport.wire.name)
    (harrivals : l'.transport.wire.arrivals = l.transport.wire.arrivals)
    (hjournal : l'.journal = l.journal) : Tries tried l l' :=
  ⟨hname, harrivals, Nat.le_of_eq (by rw [hjournal]), [], List.nil_subset _,
    by rw [hjournal, List.map_nil, List.append_nil]⟩

theorem Tries.refl (l : Link) : Tries tried l l := .of_journal_eq rfl rfl rfl

theorem Tries.trans (h : Tries tried l l') (h' : Tries tried l' l'') : Tries tried l l'' := by
  obtain ⟨actions, hactions, hentries⟩ := h.record
  obtain ⟨actions', hactions', hentries'⟩ := h'.record
  refine ⟨h'.name.trans h.name, h'.arrivals.trans h.arrivals, Nat.le_trans h.now h'.now,
    actions ++ actions', List.append_subset.mpr ⟨hactions, hactions'⟩, ?_⟩
  rw [hentries', hentries, h.name, List.map_append, List.append_assoc]

instance {σ : Type} (tried : List Action) (link : σ → Link) :
    IsPreorder σ (Trying tried link) where
  refl _ := .refl _
  trans _ _ _ h h' := Tries.trans h h'

theorem trying_attempt (a : Action) : Within (Trying tried id) (attempt a) :=
  within_attempt (fun _ _ => .of_journal_eq rfl rfl rfl) a

theorem trying_perform {a : Action} (ha : a ∈ tried) : Within (Trying tried id) (perform a) :=
  within_perform (fun _ => ⟨rfl, rfl, Nat.le_refl _, [a], List.cons_subset.mpr
    ⟨ha, List.nil_subset _⟩, rfl⟩) (trying_attempt a)

theorem trying_sleepUntil (t : Nat) : Within (Trying tried id) (sleepUntil t) :=
  .modify fun _ => ⟨rfl, rfl, Nat.le_max_left _ _, [], List.nil_subset _, (List.append_nil _).symm⟩

theorem trying_setDeadline (t : Nat) : Within (Trying tried id) (setDeadline t) :=
  .modify fun _ => ⟨rfl, rfl, Nat.le_refl _, [], List.nil_subset _, (List.append_nil _).symm⟩

theorem trying_connect (hc : .connecting ∈ tried) (role : Role) (debug : Bool)
    (deadline : Option Nat) : Within (Trying tried id) (connect role debug deadline) := by
  have htake : Within (Trying tried id) takeStream :=
    within_takeStream fun _ _ _ => .of_journal_eq rfl rfl rfl
  have hmeet : Within (Trying tried id) (meet deadline) :=
    within_meet (trying_perform hc) (fun _ _ => .of_journal_eq rfl rfl rfl) trying_sleepUntil
      deadline
  rw [connect_eq]
  refine .bind (within_seek htake hmeet) fun peer => ?_
  rcases peer with _ | peer
  · exact .pure _
  · exact .bind (.modify fun _ => .of_journal_eq rfl rfl rfl) fun _ => .pure _

/-! ### What is tried to connect a stream -/

/-- The link `l'` comes from `l` by work that has tried the actions `tried`, in this order. -/
structure Records (tried : List Action) (l l' : Link) : Prop where
  name : l'.transport.wire.name = l.transport.wire.name
  entries : l'.journal.entries =
    l.journal.entries ++ tried.map (.did l.transport.wire.name)

theorem Records.nil (hname : l'.transport.wire.name = l.transport.wire.name)
    (hentries : l'.journal.entries = l.journal.entries) : l.Records [] l' :=
  ⟨hname, by rw [hentries, List.map_nil, List.append_nil]⟩

theorem Records.trans {tried' : List Action} (h : l.Records tried l')
    (h' : l'.Records tried' l'') : l.Records (tried ++ tried') l'' :=
  ⟨h'.name.trans h.name,
    by rw [h'.entries, h.entries, h.name, List.map_append, List.append_assoc]⟩

theorem records_perform (a : Action) (l : Link) :
    l.Records ([a].filter l.transport.kind.does) (after (perform a) l) ∧
      (after (perform a) l).transport.kind = l.transport.kind := by
  by_cases hdoes : l.transport.kind.does a = true
  · have hrun : perform a l = attempt a (l.record (.did l.transport.wire.name a)) := by
      rw [perform, run_get_bind, if_pos hdoes, run_set_bind]
    have hattempt : Within (fun l l' : Link => l.Records [] l' ∧
        l'.transport.kind = l.transport.kind) (attempt a) :=
      within_attempt (fun _ _ => ⟨.nil rfl rfl, rfl⟩) a
    obtain ⟨hnothing, hkind⟩ := hattempt (l.record (.did l.transport.wire.name a))
    have hfirst : l.Records [a] (l.record (.did l.transport.wire.name a)) := ⟨rfl, rfl⟩
    rw [List.filter_cons_of_pos hdoes, List.filter_nil, after, hrun]
    exact ⟨hfirst.trans hnothing, hkind⟩
  · rw [List.filter_cons_of_neg hdoes, List.filter_nil, after, perform, run_get_bind, if_neg hdoes]
    exact ⟨.nil rfl rfl, rfl⟩

/-- The record stays as it is. -/
def Unrecorded (l l' : Link) : Prop := l.Records [] l'

instance : IsPreorder Link Unrecorded where
  refl _ := .nil rfl rfl
  trans _ _ _ h h' := Records.trans h h'

theorem records_bind {α β : Type} {work : LinkM α} {f : α → LinkM β}
    (h : l.Records tried (after work l)) (hf : ∀ a, Within Unrecorded (f a)) :
    l.Records tried (after (work >>= f) l) := by
  rcases hrun : work l with ⟨a, l'⟩ | ⟨e, l'⟩ <;> rw [after, hrun] at h
  · have hrest : l'.Records [] (after (f a) l') := hf a l'
    have htrans := h.trans hrest
    rw [List.append_nil] at htrans
    rw [after_bind hrun]
    exact htrans
  · rw [after, run_bind_of_error hrun]
    exact h

/-- What is tried to find a peer: a stream that is there already is taken as it is. -/
def seeking : TransportKind → List Action
  | .attached .. => []
  | _ => [.connecting]

theorem records_seek (deadline : Option Nat) (l : Link) :
    l.Records (seeking l.transport.kind) (after (seek deadline) l) := by
  have hgreet : Within Unrecorded (greet deadline) :=
    within_greet (fun _ _ => .nil rfl rfl) (fun _ => .modify fun _ => .nil rfl rfl) deadline
  have hmeet : l.transport.kind.does .connecting = true →
      l.Records [.connecting] (after (meet deadline) l) := by
    intro hdoes
    have hconnecting := (records_perform .connecting l).1
    rw [List.filter_cons_of_pos hdoes, List.filter_nil] at hconnecting
    exact records_bind hconnecting fun _ => hgreet
  have htake : Within Unrecorded takeStream := within_takeStream fun _ _ _ => .nil rfl rfl
  rw [after, seek, run_get_bind, ← after]
  rcases hkind : l.transport.kind with _ | _ | _ | _
  · exact htake.map some l
  all_goals exact hmeet (by rw [hkind]; rfl)

theorem records_connect (role : Role) (debug : Bool) (deadline : Option Nat) (l : Link) :
    l.Records (seeking l.transport.kind) (after (connect role debug deadline) l) := by
  rw [connect_eq]
  refine records_bind (records_seek deadline l) fun peer => ?_
  rcases peer with _ | peer
  · exact .pure _
  · exact .bind (.modify fun _ => .nil rfl rfl) fun _ => .pure _

/-- What is tried to connect a stream: the transport is opened and then, unless that fails, a peer
is looked for. -/
def trials (l : Link) : List Action :=
  [.opening].filter l.transport.kind.does ++
    match resultOf openTransport l with
    | .ok _ => seeking l.transport.kind
    | .error _ => []

/-- What is tried does not depend on the time. -/
theorem trials_sleepUntil (l : Link) (t : Nat) :
    trials { l with journal := l.journal.sleepUntil t } = l.trials := by
  have hattempt : ∀ (a : Action) (l₁ l₂ : Link), l₁.transport = l₂.transport →
      resultOf (attempt a) l₁ = resultOf (attempt a) l₂ := by
    intro a l₁ l₂ htransport
    rw [resultOf, resultOf, attempt, attempt, htransport]
    rcases l₂.transport.wire.attempt a with ⟨_ | kind, wire⟩ <;> rfl
  have hopen : resultOf openTransport { l with journal := l.journal.sleepUntil t } =
      resultOf openTransport l := by
    by_cases hdoes : l.transport.kind.does .opening = true
    · rw [resultOf, resultOf, openTransport, perform, run_get_bind, run_get_bind, if_pos hdoes,
        if_pos hdoes]
      exact hattempt .opening _ _ rfl
    · rw [resultOf, resultOf, openTransport, perform, run_get_bind, run_get_bind, if_neg hdoes,
        if_neg hdoes]
      rfl
  rw [trials, hopen, trials]

/-- The stream of the link `l`, if it has one, is the stream of the link `l'`, too. -/
def Stays (l l' : Link) : Prop :=
  ∀ channel, l.channel = some channel → ∃ buffer, l'.channel = some { channel with buffer }

theorem Stays.of_channel_eq (h : l'.channel = l.channel) : l.Stays l' :=
  fun channel hchannel => ⟨channel.buffer, by rw [h, hchannel]⟩

instance : IsPreorder Link Stays where
  refl _ := .of_channel_eq rfl
  trans l l' l'' h h' := by
    intro channel hchannel
    obtain ⟨buffer, hbuffer⟩ := h channel hchannel
    obtain ⟨buffer', hbuffer'⟩ := h' _ hbuffer
    exact ⟨buffer', hbuffer'⟩

theorem stays_attempt (a : Action) : Within Stays (attempt a) :=
  within_attempt (fun _ _ => .of_channel_eq rfl) a

theorem stays_send (message : Message) : Within Stays (send message) :=
  within_send stays_attempt (fun _ _ => .of_channel_eq rfl)
    (fun _ => .modify fun _ => .of_channel_eq rfl) message

theorem stays_clearBuffer : Within Stays clearBuffer :=
  .modify fun l channel hchannel => ⟨[], by simp only [hchannel, Option.map_some]⟩

theorem stays_receive (timeout byteTimeout : Nat) : Within Stays (receive timeout byteTimeout) := by
  intro l channel hchannel
  rw [after_receive hchannel]
  exact ⟨_, rfl⟩

/-- If no stream has been connected, there is one only if there was one before. -/
theorem spares_of_connect (role : Role) (debug : Bool) (deadline : Option Nat)
    (h : resultOf (connect role debug deadline) l ≠ .ok true) :
    l.Spares (after (connect role debug deadline) l) := by
  have hseek := sparing_seek deadline l
  rw [connect_eq] at h ⊢
  rcases hrun : seek deadline l with ⟨_ | peer, l₁⟩ | ⟨e, l₁⟩ <;> rw [after, hrun] at hseek
  · rw [after, run_bind hrun]
    exact hseek
  · rw [resultOf, run_bind hrun] at h
    exact (h rfl).elim
  · rw [after, run_bind_of_error hrun]
    exact hseek

end Link

namespace Client

variable {α : Type} {c c' : Client} {unit : UnitId} {request : Request}

theorem throws_onLink {P : Error → Prop} {work : LinkM α} (h : Throws P work) :
    Throws P (onLink work) := by
  intro c e c' he
  rw [onLink] at he
  rcases hwork : work c.link with ⟨a, l⟩ | ⟨e₁, l⟩ <;> rw [hwork] at he <;> cases he
  exact h c.link e l hwork

theorem trying_onLink {tried : List Action} {work : LinkM α}
    (h : Within (Trying tried id) work) : Within (Trying tried Client.link) (onLink work) :=
  within_onLink (fun _ _ => id) h

/-! ### Connecting -/

theorem fails_connect : FailsWithLink connect := by
  refine .bind .get fun c => ?_
  dsimp only
  split
  · exact .pure _
  · refine .bind (throws_onLink (Link.honest_perform .opening).failsWithLink) fun _ =>
      .bind (throws_onLink (Link.fails_connect _ _ _)) fun connected => ?_
    split
    · exact .modify _
    · exact .bind (.throw rfl) fun _ => .modify _

theorem trying_connect : Within (Trying [.opening, .connecting] Client.link) connect := by
  refine .bind .get fun c => ?_
  dsimp only
  split
  · exact .pure _
  · refine .bind (trying_onLink (Link.trying_perform List.mem_cons_self)) fun _ =>
      .bind (trying_onLink (Link.trying_connect (by decide) _ _ _)) fun connected => ?_
    have hreset : Within (Trying [.opening, .connecting] Client.link)
        (modify fun c => { c with reconnectAt := none } : ClientM PUnit) :=
      .modify fun c => Link.Tries.refl c.link
    split
    · exact hreset
    · exact .bind (.throw _) fun _ => hreset

theorem run_onLink_of_error {work : LinkM α} {e : Error} {l : Link}
    (h : work c.link = .error e l) : onLink work c = .error e { c with link := l } := by
  rw [onLink, h]

/-- A client that could not connect has no stream. -/
theorem isConnected_of_connect_error {e : Error} (h : connect c = .error e c') :
    c'.isConnected = false := by
  rw [connect, run_get_bind] at h
  by_cases hconnected : c.isConnected = true
  · rw [if_pos hconnected] at h
    cases h
  · rw [if_neg hconnected] at h
    have hnone : c.link.channel = none := Option.not_isSome_iff_eq_none.mp hconnected
    suffices hspares : c.link.Spares c'.link by
      rw [isConnected, Link.isConnected, hspares.channel_eq_none hnone]
      rfl
    rcases hopen : Link.openTransport c.link with ⟨_, l₁⟩ | ⟨e₁, l₁⟩
    · have hspares₁ : c.link.Spares l₁ := (Link.sparing_perform .opening).of_ok hopen
      have hseeks := Link.spares_of_connect (l := l₁) .response c.settings.debug none
      rw [run_bind (run_onLink hopen)] at h
      rcases hseek : Link.connect .response c.settings.debug none l₁ with ⟨_ | _, l₂⟩ | ⟨e₂, l₂⟩ <;>
        rw [resultOf, after, hseek] at hseeks
      · rw [run_bind (run_onLink hseek)] at h
        cases h
        exact hspares₁.trans (hseeks (by rintro ⟨⟩))
      · rw [run_bind (run_onLink hseek)] at h
        cases h
      · rw [run_bind_of_error (run_onLink_of_error hseek)] at h
        cases h
        exact hspares₁.trans (hseeks (by rintro ⟨⟩))
    · rw [run_bind_of_error (run_onLink_of_error hopen)] at h
      cases h
      exact (Link.sparing_perform .opening).of_error hopen

/-- The client gets no stream without trying for one: the transport is opened first. -/
theorem records_connect (h : c.isConnected = false) :
    c.link.Records c.link.trials (after connect c).link := by
  have hreset : ∀ c₁ c₂ : Client, c₂.link = c₁.link → c₁.link.Records [] c₂.link :=
    fun c₁ c₂ hlink => hlink ▸ .nil rfl rfl
  rw [after, connect, run_get_bind, if_neg (Bool.not_eq_true _ ▸ h)]
  obtain ⟨hopening, hkind⟩ := Link.records_perform .opening c.link
  rcases hopen : Link.openTransport c.link with ⟨⟨⟩, l₁⟩ | ⟨e, l₁⟩
  · rw [after, ← Link.openTransport, hopen] at hopening hkind
    have hmeet := Link.records_connect .response c.settings.debug none l₁
    have htrials : c.link.trials =
        [Action.opening].filter c.link.transport.kind.does ++
          Link.seeking l₁.transport.kind := by
      rw [Link.trials, resultOf, hopen, hkind]
    rw [run_bind (run_onLink hopen), htrials]
    refine hopening.trans ?_
    rcases hconnect : Link.connect .response c.settings.debug none l₁ with ⟨_ | _, l₂⟩ | ⟨e, l₂⟩ <;>
      rw [after, hconnect] at hmeet
    · rw [run_bind (run_onLink hconnect)]
      exact hmeet
    · rw [run_bind (run_onLink hconnect)]
      exact hmeet
    · rw [run_bind_of_error (run_onLink_of_error hconnect)]
      exact hmeet
  · rw [after, ← Link.openTransport, hopen] at hopening
    have htrials : c.link.trials = [Action.opening].filter c.link.transport.kind.does := by
      rw [Link.trials, resultOf, hopen, List.append_nil]
    rw [run_bind_of_error (run_onLink_of_error hopen), htrials]
    exact hopening

/-! ### The rest of a call -/

/-- The stream of a client, if it has one, is kept. -/
def Staying (c c' : Client) : Prop := c.link.Stays c'.link

instance : IsPreorder Client Staying where
  refl c := refl c.link
  trans c c' c'' h h' := IsTrans.trans c.link c'.link c''.link h h'

theorem staying_onLink {work : LinkM α} (h : Within Link.Stays work) :
    Within Staying (onLink work) :=
  within_onLink (fun _ _ => id) h

theorem run_nextHeader (unit : UnitId) (c : Client) :
    ∃ header transaction, nextHeader unit c = .ok header { c with transaction } := by
  rw [nextHeader, run_get_bind]
  rcases c.link.framing with _ | _
  · exact ⟨.rtu unit, c.transaction, rfl⟩
  · exact ⟨.tcp c.transaction unit, c.transaction + 1, rfl⟩

theorem staying_nextHeader (unit : UnitId) : Within Staying (nextHeader unit) := by
  intro c
  obtain ⟨header, transaction, hheader⟩ := run_nextHeader unit c
  rw [after, hheader]
  exact .of_channel_eq rfl

theorem staying_dispatch (request : Request) (header : Header) :
    Within Staying (dispatch request header) := by
  rw [dispatch]
  split
  · exact .throw _
  · exact .bind (staying_onLink Link.stays_clearBuffer) fun _ =>
      .bind (staying_onLink (Link.stays_send _)) fun _ => .pure _

theorem staying_collect (p : Pending) : Within Staying (collect p) := by
  refine .bind .get fun c => .bind (staying_onLink (Link.stays_receive _ _)) fun message => ?_
  split
  · exact .pure _
  · exact .throw _

theorem staying_unanswered (request : Request) : Within Staying (unanswered request) := by
  rw [unanswered]
  split
  · exact .pure _
  · exact .throw _

/-- What is left of a call when a stream is connected. -/
def exchange (unit : UnitId) (request : Request) (broadcast : Bool) : ClientM (Answer Response) := do
  let header ← nextHeader unit
  let pending ← dispatch request header
  if broadcast then unanswered request else collect pending

theorem staying_exchange (unit : UnitId) (request : Request) (broadcast : Bool) :
    Within Staying (exchange unit request broadcast) := by
  refine .bind (staying_nextHeader unit) fun header =>
    .bind (staying_dispatch request header) fun p => ?_
  split
  · exact staying_unanswered request
  · exact staying_collect p

theorem isLinkFailure_or_isMismatch_of_accept {p : Pending} {message : Message} {e : Error}
    (h : p.accept message = .error e) : e.isLinkFailure = true ∨ e.isMismatch = true := by
  rw [Pending.accept] at h
  split at h
  · cases h
    exact .inl rfl
  · split at h
    · cases h
      exact .inr rfl
    · split at h <;> cases h
      exact .inr rfl

/-- Once a stream is connected, a call fails with the link or on an answer to something else. -/
theorem throws_exchange {broadcast : Bool} (h : broadcast = true → request.isWrite = true) :
    Throws (fun e => e.isLinkFailure = true ∨ e.isMismatch = true)
      (exchange unit request broadcast) := by
  have hfails : ∀ {β : Type} {work : LinkM β}, FailsWithLink work →
      Throws (fun e => e.isLinkFailure = true ∨ e.isMismatch = true) (onLink work) :=
    fun hwork => throws_onLink (hwork.mono fun _ => .inl)
  have hheader : Throws (fun e => e.isLinkFailure = true ∨ e.isMismatch = true)
      (nextHeader unit) := by
    intro c e c' he
    obtain ⟨header, transaction, hheader⟩ := run_nextHeader unit c
    rw [hheader] at he
    cases he
  refine .bind hheader fun header => ?_
  rcases hmessage : Message.ofRequest header request with e | message
  · intro c e' c' he
    have hthrow : dispatch request header c = .error (.transport e) c := by
      rw [dispatch, hmessage]
      rfl
    rw [run_bind_of_error hthrow] at he
    cases he
    exact .inl rfl
  · have hsize : request.size ≤ maxPduSize := by
      rw [Message.ofRequest] at hmessage
      split at hmessage
      · cases hmessage
      · omega
    rw [dispatch, hmessage]
    refine .bind (.bind (.modify _) fun _ => .bind (hfails (Link.honest_send message).failsWithLink) fun _ =>
      .pure _) fun p => ?_
    split
    · rename_i hbroadcast
      obtain ⟨response, hecho⟩ := Request.exists_echo (h hbroadcast) hsize
      rw [unanswered, hecho]
      exact .pure _
    · refine .bind .get fun c => .bind (hfails (Link.fails_receive _ _)) fun message => ?_
      split
      · exact .pure _
      · rename_i haccept
        exact .throw (isLinkFailure_or_isMismatch_of_accept haccept)

theorem transact_eq (unit : UnitId) (request : Request) (c : Client) :
    transact unit request c =
      (ensureConnected >>= fun _ => exchange unit request (c.isBroadcast unit)) c := by
  rw [transact, run_get_bind, submit_eq, announce]
  simp only [bind_assoc]
  rfl

/-! ### Connecting when it is due -/

/-- The client when it connects: not before the time for it has come. -/
def whenDue (c : Client) : Client :=
  match c.reconnectAt with
  | none => c
  | some t => { c with link := { c.link with journal := c.link.journal.sleepUntil t } }

theorem ensureConnected_of_not_isConnected (h : c.isConnected = false) :
    ensureConnected c = connect c.whenDue := by
  obtain ⟨link, settings, pduAddressing, transaction, _ | t⟩ := c <;>
  · rw [ensureConnected, run_get_bind, if_neg (Bool.not_eq_true _ ▸ h)]
    rfl

theorem le_now_whenDue {t : Nat} (h : c.reconnectAt = some t) :
    t ≤ c.whenDue.link.journal.now := by
  rw [whenDue, h]
  exact Nat.le_max_right _ _

/-- Waiting changes nothing but the time. -/
theorem whenDue_spec (c : Client) : ∃ t, c.whenDue =
    { c with link := { c.link with journal := c.link.journal.sleepUntil t } } := by
  rw [whenDue]
  split
  · exact ⟨0, by rw [Journal.sleepUntil, Nat.max_eq_left (Nat.zero_le _)]⟩
  · exact ⟨_, rfl⟩

theorem of_ensureConnected_error {e : Error} (h : ensureConnected c = .error e c') :
    e.isLinkFailure = true ∧ c'.isConnected = false := by
  rcases hconnected : c.isConnected with _ | _
  · rw [ensureConnected_of_not_isConnected hconnected] at h
    exact ⟨fails_connect _ _ _ h, isConnected_of_connect_error h⟩
  · rw [ensureConnected_of_isConnected hconnected] at h
    cases h

/-! ### Giving up a link -/

/-- The settings of a client stay as they are. -/
def SameSettings (c c' : Client) : Prop := c'.settings = c.settings

instance : IsPreorder Client SameSettings where
  refl _ := rfl
  trans _ _ _ h h' := Eq.trans h' h

theorem spans_true : Link.Spans fun _ _ => True :=
  ⟨fun _ _ => trivial, fun _ _ => trivial, fun _ => trivial, fun _ _ => trivial, fun _ _ => trivial,
    fun _ => trivial, fun _ _ => trivial, fun _ _ _ => trivial⟩

theorem spans_sameSettings : Spans SameSettings :=
  .ofLink spans_true (fun _ _ _ => rfl) fun _ _ => rfl

theorem isConnected_after_dropChannel {f : PUnit → ClientM α}
    (h : Within (Sparing Client.link) (f ⟨⟩)) (c : Client) :
    (after (onLink Link.dropChannel >>= f) c).isConnected = false := by
  have hspares : Link.Spares { c.link with channel := none }
      (after (onLink Link.dropChannel >>= f) c).link :=
    h { c with link := { c.link with channel := none } }
  rw [isConnected, Link.isConnected, hspares.channel_eq_none rfl]
  rfl

/-- A client that has disconnected has no stream, however that went. -/
theorem isConnected_after_disconnect (c : Client) : (after disconnect c).isConnected = false := by
  rcases hconnected : c.isConnected with _ | _
  · rw [after, disconnect, run_get_bind, if_neg (Bool.not_eq_true _ ▸ hconnected)]
    exact hconnected
  · have hperform : ∀ a, Within (Sparing Client.link) (onLink (Link.perform a)) :=
      fun a => within_onLink (fun _ _ => id) (Link.sparing_perform a)
    rw [after, disconnect, run_get_bind, if_pos hconnected]
    refine isConnected_after_dropChannel (.bind (.outcome (hperform .shutdown)) fun ended =>
      .bind (hperform .closing) fun _ => ?_) c
    split
    · exact .pure _
    · exact .throw _

/-- The link of the client failed at the time `t`: the client has no stream, and it waits before it
connects another one. -/
structure HasGivenUp (t : Nat) (c : Client) : Prop where
  isConnected : c.isConnected = false
  reconnectAt : c.reconnectAt = some (t + c.settings.responseTimeout)

theorem after_recover (e : Error) (c : Client) :
    after (recover e) c =
      if c.settings.recovery && e.isLinkFailure then (after disconnect c).postponed else c := by
  rw [after, recover, run_get_bind]
  by_cases hrecovers : (c.settings.recovery && e.isLinkFailure) = true
  · rw [if_pos hrecovers, if_pos hrecovers, run_bind (run_discard (run_outcome_eq disconnect c))]
    rfl
  · rw [if_neg hrecovers, if_neg hrecovers]
    rfl

theorem hasGivenUp_after_recover {e : Error} (hrecovery : c.settings.recovery = true)
    (he : e.isLinkFailure = true) :
    HasGivenUp (after (recover e) c).link.journal.now (after (recover e) c) := by
  rw [after_recover, hrecovery, he]
  exact ⟨isConnected_after_disconnect c, rfl⟩

/-- There is no more to give up without a stream. -/
theorem after_recover_of_not_isConnected {e : Error} (hrecovery : c.settings.recovery = true)
    (he : e.isLinkFailure = true) (h : c.isConnected = false) :
    after (recover e) c = c.postponed := by
  have hdisconnect : after disconnect c = c := by
    rw [after, disconnect, run_get_bind, if_neg (Bool.not_eq_true _ ▸ h)]
    rfl
  rw [after_recover, hdisconnect, hrecovery, he]
  rfl

/-! ### What a call leaves -/

theorem isWrite_of_permit (h : c.permit unit request = .ok ()) (hunit : c.isBroadcast unit = true) :
    request.isWrite = true := by
  cases request <;> first | rfl | simp [permit, hunit, Request.isWrite] at h

/-- What a call that has ended in `result` leaves of the link. -/
def Leaves (result : Except Error (Answer Response)) (c c' : Client) : Prop :=
  match result with
  | .ok _ | .error (.protocol (.headerMismatch ..)) | .error (.protocol (.functionMismatch ..)) =>
    c'.isConnected = true
  | .error (.config _) => c' = c
  | .error e =>
    e.isLinkFailure = true ∧
      (c.settings.recovery = true → c'.HasGivenUp c'.link.journal.now)

theorem leaves_of_isLinkFailure {e : Error} (he : e.isLinkFailure = true)
    (h : c.settings.recovery = true → c'.HasGivenUp c'.link.journal.now) :
    Leaves (.error e) c c' := by
  cases e with
  | timeout | transport => exact ⟨he, h⟩
  | config => cases he
  | protocol e => cases e <;> first | exact ⟨he, h⟩ | cases he

theorem leaves_of_isMismatch {e : Error} (he : e.isMismatch = true)
    (h : c'.isConnected = true) : Leaves (.error e) c c' := by
  cases e with
  | timeout | transport | config => cases he
  | protocol e => cases e <;> first | exact h | cases he

theorem Leaves.hasGivenUp {e : Error} (h : Leaves (.error e) c c') (he : e.isLinkFailure = true)
    (hrecovery : c.settings.recovery = true) : c'.HasGivenUp c'.link.journal.now := by
  cases e with
  | timeout | transport => exact h.2 hrecovery
  | config => cases he
  | protocol e => cases e <;> first | exact h.2 hrecovery | cases he

/-- A call without a stream that fails to connect one is at its end. -/
theorem call_of_ensureConnected_error (hpermit : c.permit unit request = .ok ()) {e : Error}
    (h : ensureConnected c = .error e c') :
    call unit request c = .error e (after (recover e) c') := by
  have htransact : transact unit request c = .error e c' := by
    rw [transact_eq, run_bind_of_error h]
  rw [call_of_permit hpermit, recovering_eq, htransact]

theorem call_of_ensureConnected (hpermit : c.permit unit request = .ok ())
    (h : ensureConnected c = .ok () c') :
    call unit request c = recovering (exchange unit request (c.isBroadcast unit)) c' := by
  rw [call_of_permit hpermit, recovering_eq, recovering_eq, transact_eq, run_bind h]

/-- A call that is not refused uses the stream that there is, and otherwise connects one first. -/
theorem call_eq (hpermit : c.permit unit request = .ok ()) :
    call unit request c =
      if c.isConnected then recovering (exchange unit request (c.isBroadcast unit)) c
      else recovering (connect >>= fun _ => exchange unit request (c.isBroadcast unit))
        c.whenDue := by
  rcases hconnected : c.isConnected with _ | _
  · have hensure := ensureConnected_of_not_isConnected hconnected
    rw [call_of_permit hpermit, recovering_eq, transact_eq, run_bind_congr hensure,
      if_neg Bool.false_ne_true, recovering_eq]
  · exact call_of_ensureConnected hpermit (ensureConnected_of_isConnected hconnected)

theorem sameSettings_ensureConnected : Within SameSettings ensureConnected :=
  within_ensureConnected spans_sameSettings

theorem sameSettings_exchange (unit : UnitId) (request : Request) (broadcast : Bool) :
    Within SameSettings (exchange unit request broadcast) := by
  refine .bind (within_nextHeader (fun _ _ => rfl) unit) fun header =>
    .bind (within_dispatch spans_sameSettings request header) fun p => ?_
  split
  · exact within_unanswered request
  · exact within_collect spans_sameSettings p

theorem isConnected_of_staying (h : Staying c c') (hc : c.isConnected = true) :
    c'.isConnected = true := by
  obtain ⟨channel, hchannel⟩ := Option.isSome_iff_exists.mp hc
  obtain ⟨buffer, hbuffer⟩ := h channel hchannel
  rw [isConnected, Link.isConnected, hbuffer]
  rfl

/-- Whatever a call comes to, it leaves the stream if its peer has spoken to it or if it has asked
nothing, and otherwise it leaves the link given up. -/
theorem leaves_call (unit : UnitId) (request : Request) (c : Client) :
    Leaves (resultOf (call unit request) c) c (after (call unit request) c) := by
  rcases hpermit : c.permit unit request with e | _
  · rw [resultOf, after, call_of_permit_error hpermit]
    rfl
  rcases hconnect : ensureConnected c with ⟨⟨⟩, c₁⟩ | ⟨e, c₁⟩
  · have hconnected := isConnected_of_ensureConnected hconnect
    have hsettings := sameSettings_ensureConnected.of_ok hconnect
    have hstays := staying_exchange unit request (c.isBroadcast unit) c₁
    have hsame := sameSettings_exchange unit request (c.isBroadcast unit) c₁
    rw [resultOf, after, call_of_ensureConnected hpermit hconnect, recovering_eq]
    rcases hexchange : exchange unit request (c.isBroadcast unit) c₁ with ⟨answer, c₂⟩ | ⟨e, c₂⟩ <;>
      rw [after, hexchange] at hstays hsame
    · exact isConnected_of_staying hstays hconnected
    · rcases throws_exchange (isWrite_of_permit hpermit) _ _ _ hexchange with hfailure | hmismatch
      · refine leaves_of_isLinkFailure hfailure fun hrecovery => ?_
        exact hasGivenUp_after_recover (by rw [hsame, hsettings, hrecovery]) hfailure
      · refine leaves_of_isMismatch hmismatch ?_
        have hkept : after (recover e) c₂ = c₂ := by
          rw [after_recover, Error.isLinkFailure_of_isMismatch hmismatch, Bool.and_false]
          rfl
        show (after (recover e) c₂).isConnected = true
        rw [hkept]
        exact isConnected_of_staying hstays hconnected
  · obtain ⟨hfailure, -⟩ := of_ensureConnected_error hconnect
    have hsettings := sameSettings_ensureConnected.of_error hconnect
    rw [resultOf, after, call_of_ensureConnected_error hpermit hconnect]
    refine leaves_of_isLinkFailure hfailure fun hrecovery => ?_
    exact hasGivenUp_after_recover (by rw [hsettings, hrecovery]) hfailure

/-- A client that does not recover its link keeps the stream that it has. -/
theorem staying_call (hrecovery : c.settings.recovery = false) :
    Staying c (after (call unit request) c) := by
  intro channel hchannel
  rcases hpermit : c.permit unit request with e | _
  · rw [after, call_of_permit_error hpermit]
    exact ⟨channel.buffer, hchannel⟩
  · have hconnected : c.isConnected = true := by
      rw [isConnected, Link.isConnected, hchannel]
      rfl
    have hconnect := ensureConnected_of_isConnected hconnected
    have hstays := staying_exchange unit request (c.isBroadcast unit) c
    have hsame := sameSettings_exchange unit request (c.isBroadcast unit) c
    rw [after, call_of_ensureConnected hpermit hconnect, recovering_eq]
    rcases hexchange : exchange unit request (c.isBroadcast unit) c with ⟨answer, c₁⟩ | ⟨e, c₁⟩ <;>
      rw [after, hexchange] at hstays hsame
    · exact hstays channel hchannel
    · have hkept : after (recover e) c₁ = c₁ := by
        rw [after_recover, hsame, hrecovery, Bool.false_and]
        rfl
      show ∃ buffer, (after (recover e) c₁).link.channel = some { channel with buffer }
      rw [hkept]
      exact hstays channel hchannel

theorem sameSettings_call (unit : UnitId) (request : Request) :
    Within SameSettings (call unit request) :=
  within_call spans_sameSettings (fun _ _ => rfl) unit request

/-! ### The call after a failure -/

/-- A call that finds the link given up begins with another one: not before the time `t` it opens
the transport and, unless that fails, connects a stream. Nothing is sent or received until it has
one, and what comes then goes over this stream. If it gets none, the call ends there, and the next
one has to wait again. -/
structure Resumes (t : Nat) (unit : UnitId) (request : Request) (c : Client) : Prop where
  call : call unit request c =
    recovering (connect >>= fun _ => exchange unit request (c.isBroadcast unit)) c.whenDue
  time : t ≤ c.whenDue.link.journal.now
  idle : c.link.Tries [.opening, .connecting] (after connect c.whenDue).link
  tried : c.link.Records c.link.trials (after connect c.whenDue).link
  failed : ∀ e c', connect c.whenDue = .error e c' →
    resultOf (Client.call unit request) c = .error e ∧
      after (Client.call unit request) c = c'.postponed
  connected : ∀ c', connect c.whenDue = .ok () c' →
    ∃ peer, c'.link.channel = some ⟨.client c.link.framing, [], peer, c.settings.debug⟩

theorem resumes_of_hasGivenUp {t : Nat} (hrecovery : c.settings.recovery = true)
    (h : c.HasGivenUp t) (hpermit : c.permit unit request = .ok ()) :
    Resumes (t + c.settings.responseTimeout) unit request c := by
  have hensure := ensureConnected_of_not_isConnected h.isConnected
  obtain ⟨due, hdue⟩ := whenDue_spec c
  have hnone : c.whenDue.isConnected = false := by
    rw [hdue]
    exact h.isConnected
  refine ⟨?_, le_now_whenDue h.reconnectAt, ?_, ?_, ?_, ?_⟩
  · rw [call_eq hpermit, if_neg (Bool.not_eq_true _ ▸ h.isConnected)]
  · have hwait : c.link.Tries [.opening, .connecting] c.whenDue.link := by
      rw [hdue]
      exact Link.trying_sleepUntil due c.link
    exact hwait.trans (trying_connect c.whenDue)
  · have htried := records_connect hnone
    have htrials : c.whenDue.link.trials = c.link.trials := by
      rw [hdue, Link.trials_sleepUntil]
    rw [htrials] at htried
    have hwait : c.link.Records [] c.whenDue.link := by
      rw [hdue]
      exact .nil rfl rfl
    exact hwait.trans htried
  · intro e c' hconnect
    rw [← hensure] at hconnect
    obtain ⟨hfailure, hnone'⟩ := of_ensureConnected_error hconnect
    have hsettings := sameSettings_ensureConnected.of_error hconnect
    rw [resultOf, after, call_of_ensureConnected_error hpermit hconnect]
    exact ⟨rfl, after_recover_of_not_isConnected (by rw [hsettings, hrecovery]) hfailure hnone'⟩
  · intro c' hconnect
    obtain ⟨peer, hchannel⟩ := channel_of_connect hnone hconnect
    exact ⟨peer, by rw [hchannel, hdue]; rfl⟩

end Client

/-! ### Runs of calls -/

/-- A client, and what has become of its link in the calls so far. -/
structure LinkHistory where
  client : Client
  /-- How often a call has tried to connect a stream. -/
  attempts : Nat
  /-- For each call that ended with a failure of the link, the number of the last attempt then. -/
  failures : List Nat
  /-- When the last of these calls ended, if each call after it was refused before it was begun. -/
  failedAt : Option Nat

namespace LinkHistory

/-- The history after a call. -/
def call (unit : UnitId) (request : Request) (s : LinkHistory) : LinkHistory :=
  let client := after (Client.call unit request) s.client
  let attempts := if s.client.isConnected then s.attempts else s.attempts + 1
  match s.client.permit unit request, resultOf (Client.call unit request) s.client with
  | .error _, _ => { s with client }
  | .ok (), .ok _ => ⟨client, attempts, s.failures, none⟩
  | .ok (), .error e =>
    if e.isLinkFailure then
      ⟨client, attempts, s.failures ++ [attempts], some client.link.journal.now⟩
    else ⟨client, attempts, s.failures, none⟩

/-- The history of any client after any calls. Between them, what is to come of the wire changes as
time goes on. -/
inductive Reach : LinkHistory → Prop where
  | start (c : Client) : Reach ⟨c, 0, [], none⟩
  | call {s : LinkHistory} (unit : UnitId) (request : Request) :
    Reach s → Reach (s.call unit request)
  | world {s : LinkHistory} (transport : Transport) (journal : Journal) : Reach s →
    Reach { s with client.link.transport := transport, client.link.journal := journal }

/-- No two failures are of one stream: after a failure there is no stream until one is connected. -/
structure Good (s : LinkHistory) : Prop where
  failures : s.failures.Pairwise (· < ·)
  le_attempts : ∀ n ∈ s.failures, n ≤ s.attempts
  isConnected : s.attempts ∈ s.failures → s.client.isConnected = false
  failedAt : ∀ t, s.failedAt = some t → s.client.HasGivenUp t

variable {s : LinkHistory} {unit : UnitId} {request : Request}

/-- All failures so far are of earlier streams than the one that a call uses. -/
theorem Good.lt_attempts (h : s.Good) {n : Nat} (hn : n ∈ s.failures) :
    n < if s.client.isConnected then s.attempts else s.attempts + 1 := by
  have hle := h.le_attempts n hn
  split
  · rename_i hconnected
    refine Nat.lt_of_le_of_ne hle fun hlast => ?_
    rw [h.isConnected (hlast ▸ hn)] at hconnected
    cases hconnected
  · exact Nat.lt_succ_of_le hle

theorem Good.call (h : s.Good) (hrecovery : s.client.settings.recovery = true) (unit : UnitId)
    (request : Request) : (s.call unit request).Good := by
  have hleaves := Client.leaves_call unit request s.client
  have hlt := fun n => h.lt_attempts (n := n)
  rw [LinkHistory.call]
  generalize after (Client.call unit request) s.client = client at hleaves ⊢
  generalize (if s.client.isConnected then s.attempts else s.attempts + 1) = attempts at hlt ⊢
  have hnone : Good ⟨client, attempts, s.failures, none⟩ :=
    ⟨h.failures, fun n hn => Nat.le_of_lt (hlt n hn),
      fun hlast => (Nat.lt_irrefl _ (hlt _ hlast)).elim, nofun⟩
  rcases hpermit : s.client.permit unit request with e | _
  · have hrefused : resultOf (Client.call unit request) s.client = .error (.config e) := by
      rw [resultOf, Client.call_of_permit_error hpermit]
    rw [hrefused] at hleaves
    obtain rfl : client = s.client := hleaves
    exact h
  rcases hresult : resultOf (Client.call unit request) s.client with e | answer
  · dsimp only
    split
    · rename_i hfailure
      have hup : client.HasGivenUp client.link.journal.now := by
        rw [hresult] at hleaves
        exact hleaves.hasGivenUp hfailure hrecovery
      refine ⟨?_, ?_, fun _ => hup.isConnected, ?_⟩
      · rw [List.pairwise_append]
        refine ⟨h.failures, List.pairwise_singleton _ _, fun n hn m hm => ?_⟩
        rw [List.mem_singleton.mp hm]
        exact hlt n hn
      · intro n hn
        rcases List.mem_append.mp hn with hn | hn
        · exact Nat.le_of_lt (hlt n hn)
        · exact Nat.le_of_eq (List.mem_singleton.mp hn)
      · rintro t ⟨⟩
        exact hup
    · exact hnone
  · exact hnone

theorem Reach.good (h : s.Reach) (hrecovery : s.client.settings.recovery = true) : s.Good := by
  induction h with
  | start c => exact ⟨.nil, nofun, nofun, nofun⟩
  | @call s unit request _ ih =>
    have hsettings : (s.call unit request).client.settings = s.client.settings := by
      have hclient : (s.call unit request).client =
          after (Client.call unit request) s.client := by
        rw [LinkHistory.call]
        split
        · rfl
        · rfl
        · split <;> rfl
      rw [hclient]
      exact Client.sameSettings_call unit request s.client
    have hbefore : s.client.settings.recovery = true := by rw [← hsettings, hrecovery]
    exact (ih hbefore).call hbefore unit request
  | world transport journal _ ih =>
    have hgood := ih hrecovery
    exact ⟨hgood.failures, hgood.le_attempts, hgood.isConnected, fun t ht =>
      ⟨(hgood.failedAt t ht).isConnected, (hgood.failedAt t ht).reconnectAt⟩⟩

/-- After any calls, each call leaves the link as its result says. A client that does not recover its
link keeps its stream. One that does has had no two failures on one stream, and the first call that
is not refused after a failure begins with another stream when the time for it has come. -/
theorem recovers_of_reach (h : s.Reach) (unit : UnitId) (request : Request) :
    Client.Leaves (resultOf (Client.call unit request) s.client) s.client
        (after (Client.call unit request) s.client) ∧
      (s.client.settings.recovery = false →
        s.client.Staying (after (Client.call unit request) s.client)) ∧
      (s.client.settings.recovery = true →
        s.failures.Pairwise (· < ·) ∧
        ∀ t, s.failedAt = some t → s.client.permit unit request = .ok () →
          s.client.Resumes (t + s.client.settings.responseTimeout) unit request) := by
  refine ⟨Client.leaves_call unit request s.client, Client.staying_call, fun hrecovery => ?_⟩
  have hgood := h.good hrecovery
  exact ⟨hgood.failures, fun t ht => Client.resumes_of_hasGivenUp hrecovery (hgood.failedAt t ht)⟩

/-- Nobody answers two calls: each waits in vain on a stream of its own. The call after them waits
until the time 2000 and connects a third one. -/
theorem recovers_of_reach_timeouts :
    let request := Request.readHoldingRegisters 0 1
    let transport : Transport := ⟨.hooked .tcp false 0, .quiet "client"⟩
    let settings := { LinkSettings.standard with recovery := true }
    let start : LinkHistory := ⟨.ofTransport transport settings true, 0, [], none⟩
    let s := (start.call ⟨7⟩ request).call ⟨7⟩ request
    (s.Reach ∧ s.client.settings.recovery = true ∧ s.failures = [1, 2] ∧
      s.failedAt = some 1500 ∧ s.client.permit ⟨7⟩ request = .ok ()) ∧
      s.client.Resumes 2000 ⟨7⟩ request := by
  intro request transport settings start s
  have hreach : s.Reach := .call _ _ (.call _ _ (.start _))
  have hrecovery : s.client.settings.recovery = true := rfl
  have hfailedAt : s.failedAt = some 1500 := by decide +kernel
  have hpermit : s.client.permit ⟨7⟩ request = .ok () := rfl
  have htimeout : s.client.settings.responseTimeout = 500 := rfl
  have hresumes := ((recovers_of_reach hreach ⟨7⟩ request).2.2 hrecovery).2 1500 hfailedAt hpermit
  rw [htimeout] at hresumes
  exact ⟨⟨hreach, hrecovery, rfl, hfailedAt, hpermit⟩, hresumes⟩

end LinkHistory

end Modbus

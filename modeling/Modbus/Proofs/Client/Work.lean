import Modbus.Client.Basic
import Modbus.Proofs.Link.Blind

/-! Clients on links that may fail. The codec of a client never changes, its counter of transactions
goes on by one with each header that it makes, and what comes of a call is what comes of submitting
the request and collecting the answer: recovering the link changes the state alone. -/

namespace Modbus

namespace Link

/-- The stream, if there is one, is read for frames to `role` in the framing of the link. -/
def IsFor (role : Role) (l : Link) : Prop :=
  ∀ c, l.channel = some c → c.codec = ⟨l.framing, role⟩

/-- The link `l'` comes from `l` by work that keeps what frames are expected. -/
structure Keeps (role : Role) (l l' : Link) : Prop where
  framing : l'.framing = l.framing
  isFor : l.IsFor role → l'.IsFor role

variable {role : Role} {l l' l'' : Link}

theorem Keeps.refl (l : Link) : Keeps role l l := ⟨rfl, id⟩

theorem Keeps.trans (h : Keeps role l l') (h' : Keeps role l' l'') : Keeps role l l'' :=
  ⟨h'.framing.trans h.framing, fun hl => h'.isFor (h.isFor hl)⟩

theorem Spares.keeps (h : l.Spares l') : Keeps role l l' := by
  refine ⟨h.framing, fun hl c hc => ?_⟩
  rcases h.channel with hsame | hnone
  · rw [h.framing]
    exact hl c (hsame ▸ hc)
  · rw [hnone] at hc
    cases hc

end Link

/-- The link of a state keeps what frames are expected. -/
def Keeping {σ : Type} (role : Role) (link : σ → Link) (s s' : σ) : Prop :=
  (link s).Keeps role (link s')

instance {σ : Type} (role : Role) (link : σ → Link) : IsPreorder σ (Keeping role link) where
  refl _ := .refl _
  trans _ _ _ h h' := Link.Keeps.trans h h'

namespace Link

variable {role : Role}

theorem keeping_of_sparing {α : Type} {work : LinkM α} (h : Within (Sparing id) work) :
    Within (Keeping role id) work := fun l => (h l).keeps

theorem keeping_clearBuffer : Within (Keeping role id) clearBuffer := by
  refine .modify fun l => ⟨rfl, fun hl c hc => ?_⟩
  obtain ⟨c', hc', rfl⟩ := Option.map_eq_some_iff.mp hc
  exact hl c' hc'

theorem keeping_dropChannel : Within (Keeping role id) dropChannel :=
  .modify fun _ => ⟨rfl, fun _ => nofun⟩

theorem keeping_receive (timeout byteTimeout : Nat) :
    Within (Keeping role id) (receive timeout byteTimeout) := by
  intro l
  rcases hc : l.channel with _ | c
  · rw [after, receive, hc]
    exact .refl l
  · rw [after_receive hc]
    refine ⟨rfl, fun hl c' hc' => ?_⟩
    cases hc'
    exact hl c hc

theorem keeping_connect (debug : Bool) (deadline : Option Nat) :
    Within (Keeping role id) (connect role debug deadline) := by
  rw [connect_eq]
  refine .bind (keeping_of_sparing (sparing_seek deadline)) fun peer => ?_
  rcases peer with _ | peer
  · exact .pure _
  · refine .bind (.modify fun l => ⟨rfl, fun _ c hc => ?_⟩) fun _ => .pure _
    cases hc
    rfl

/-- The relation holds of each piece of work that a client does on its link. -/
structure Spans (R : Link → Link → Prop) : Prop where
  perform : ∀ a, Within R (perform a)
  connect : ∀ debug, Within R (connect .response debug none)
  dropChannel : Within R dropChannel
  sleepUntil : ∀ t, Within R (sleepUntil t)
  setDeadline : ∀ t, Within R (setDeadline t)
  clearBuffer : Within R clearBuffer
  send : ∀ message, Within R (send message)
  receive : ∀ timeout byteTimeout, Within R (receive timeout byteTimeout)

theorem spans_keeping : Spans (Keeping .response id) where
  perform a := keeping_of_sparing (sparing_perform a)
  connect debug := keeping_connect debug none
  dropChannel := keeping_dropChannel
  sleepUntil _ := .modify fun _ => ⟨rfl, id⟩
  setDeadline _ := .modify fun _ => ⟨rfl, id⟩
  clearBuffer := keeping_clearBuffer
  send message := keeping_of_sparing (sparing_send message)
  receive := keeping_receive

end Link

namespace Client

/-- The client `c'` comes from `c` by work that makes no header. -/
structure Keeps (c c' : Client) : Prop where
  link : Link.Keeps .response c.link c'.link
  transaction : c'.transaction = c.transaction

instance : IsPreorder Client Keeps where
  refl _ := ⟨.refl _, rfl⟩
  trans _ _ _ h h' := ⟨h.link.trans h'.link, h'.transaction.trans h.transaction⟩

variable {α : Type} {c c' : Client} {unit : UnitId} {request : Request} {p : Pending}

theorem run_onLink {work : LinkM α} {a : α} {l : Link} (h : work c.link = .ok a l) :
    onLink work c = .ok a { c with link := l } := by
  rw [onLink, h]

theorem after_onLink (work : LinkM α) (c : Client) :
    after (onLink work) c = { c with link := after work c.link } := by
  rw [after, after, onLink]
  rcases work c.link with ⟨a, l⟩ | ⟨e, l⟩ <;> rfl

/-- What holds of the link holds of the client, if it says nothing else of it. -/
theorem within_onLink {R : Link → Link → Prop} {Q : Client → Client → Prop} {work : LinkM α}
    (hlift : ∀ c l, R c.link l → Q c { c with link := l }) (h : Within R work) :
    Within Q (onLink work) := by
  intro c
  rw [after_onLink]
  exact hlift c _ (h c.link)

/-- The first part of submitting a request: its header is made once a stream is connected. -/
def announce (unit : UnitId) : ClientM Header := do
  ensureConnected
  nextHeader unit

/-- The second part: the request is sent under its header. -/
def dispatch (request : Request) (header : Header) : ClientM Pending :=
  match Message.ofRequest header request with
  | .error e => throw (.transport e)
  | .ok message => do
    onLink Link.clearBuffer
    onLink (Link.send message)
    return ⟨header, request⟩

theorem submit_eq (unit : UnitId) (request : Request) :
    submit unit request = announce unit >>= dispatch request := by
  funext c
  rcases hconnect : ensureConnected c with ⟨a, c'⟩ | ⟨e, c'⟩
  · have hannounce : ∀ f : Header → ClientM Pending,
        (announce unit >>= f) c = (nextHeader unit >>= f) c' := by
      intro f
      show EStateM.bind (EStateM.bind ensureConnected fun _ => nextHeader unit) f c =
        EStateM.bind (nextHeader unit) f c'
      simp only [EStateM.bind, hconnect]
    rw [hannounce, submit, run_bind hconnect]
    rfl
  · have hannounce : announce unit c = .error e c' := run_bind_of_error hconnect
    rw [run_bind_of_error hannounce, submit, run_bind_of_error hconnect]

/-! ### The work of a client

A relation that holds of each piece of it, on the link and on the client itself, holds of the
whole. -/

/-- The client when it has been told to wait before it connects again. -/
def postponed (c : Client) : Client :=
  let t := c.link.journal.now + c.settings.responseTimeout
  { c with link := { c.link with journal := c.link.journal.set [t] }, reconnectAt := some t }

/-- The relation holds of each piece of work that the calls of a client are made of. -/
structure Spans (Q : Client → Client → Prop) : Prop where
  perform : ∀ a, Within Q (onLink (Link.perform a))
  connect : ∀ debug, Within Q (onLink (Link.connect .response debug none))
  dropChannel : Within Q (onLink Link.dropChannel)
  sleepUntil : ∀ t, Within Q (onLink (Link.sleepUntil t))
  clearBuffer : Within Q (onLink Link.clearBuffer)
  send : ∀ message, Within Q (onLink (Link.send message))
  receive : ∀ c,
    Q c (after (onLink (Link.receive c.settings.responseTimeout c.settings.byteTimeout)) c)
  postpone : ∀ c, Q c c.postponed
  resume : ∀ c, Q c { c with reconnectAt := none }

section

variable {R : Link → Link → Prop} {Q : Client → Client → Prop} [IsPreorder Client Q]

/-- What holds of the work on the link holds of the client, if it says little else of it. -/
theorem Spans.ofLink (hR : Link.Spans R) (hlink : ∀ c l, R c.link l → Q c { c with link := l })
    (hwait : ∀ c reconnectAt, Q c { c with reconnectAt }) : Spans Q where
  perform a := within_onLink hlink (hR.perform a)
  connect debug := within_onLink hlink (hR.connect debug)
  dropChannel := within_onLink hlink hR.dropChannel
  sleepUntil t := within_onLink hlink (hR.sleepUntil t)
  clearBuffer := within_onLink hlink hR.clearBuffer
  send message := within_onLink hlink (hR.send message)
  receive c := within_onLink hlink (hR.receive _ _) c
  postpone c := IsTrans.trans _ _ _ (within_onLink hlink (hR.setDeadline _) c) (hwait _ _)
  resume c := hwait c none

variable (h : Spans Q) (hcount : ∀ c transaction, Q c { c with transaction })

include h in
theorem within_connect : Within Q connect := by
  refine .bind .get fun c => ?_
  dsimp only
  split
  · exact .pure _
  · refine .bind (h.perform .opening) fun _ => .bind (h.connect _) fun connected => ?_
    have hreset : Within Q (modify fun c => { c with reconnectAt := none } : ClientM PUnit) :=
      .modify h.resume
    split
    · exact hreset
    · exact .bind (.throw _) fun _ => hreset

include h in
theorem within_disconnect : Within Q disconnect := by
  refine .bind .get fun c => ?_
  split
  · refine .bind h.dropChannel fun _ => .bind (.outcome (h.perform .shutdown)) fun ended =>
      .bind (h.perform .closing) fun _ => ?_
    split
    · exact .pure _
    · exact .throw _
  · exact .pure _

include h in
theorem within_ensureConnected : Within Q ensureConnected := by
  refine .bind .get fun c => ?_
  dsimp only
  have hconnect := within_connect h
  split
  · exact .pure _
  · split
    · exact .bind (h.sleepUntil _) fun _ => hconnect
    · exact hconnect

include hcount in
theorem within_nextHeader (unit : UnitId) : Within Q (nextHeader unit) := by
  intro c
  rw [after, nextHeader, run_get_bind]
  rcases c.link.framing with _ | _
  · exact refl c
  · exact hcount c (c.transaction + 1)

include h in
theorem within_dispatch (request : Request) (header : Header) :
    Within Q (dispatch request header) := by
  rw [dispatch]
  split
  · exact .throw _
  · exact .bind h.clearBuffer fun _ => .bind (h.send _) fun _ => .pure _

omit [IsPreorder Client Q] in
include h in
theorem within_collect (p : Pending) : Within Q (collect p) := by
  intro c
  have hreceive := h.receive c
  rw [after] at hreceive
  rw [after, collect, run_get_bind]
  rcases hrun : onLink (Link.receive c.settings.responseTimeout c.settings.byteTimeout) c with
    ⟨message, c'⟩ | ⟨e, c'⟩ <;> rw [hrun] at hreceive
  · rw [run_bind hrun]
    rcases p.accept message with e | answer <;> exact hreceive
  · rw [run_bind_of_error hrun]
    exact hreceive

theorem within_unanswered (request : Request) : Within Q (unanswered request) := by
  rw [unanswered]
  split
  · exact .pure _
  · exact .throw _

include h in
theorem within_recover (e : Error) : Within Q (recover e) := by
  have hpostpone : Within Q (do
      let c ← get
      let t := c.link.journal.now + c.settings.responseTimeout
      onLink (Link.setDeadline t)
      modify fun c => { c with reconnectAt := some t } : ClientM PUnit) := fun c => h.postpone c
  refine .bind .get fun c => ?_
  split
  · exact .bind (.map _ (.outcome (within_disconnect h))) fun _ => hpostpone
  · exact .pure _

include h hcount in
/-- What holds of each piece of the work of a client holds of a whole call. -/
theorem within_call (unit : UnitId) (request : Request) : Within Q (call unit request) := by
  have hsubmit : Within Q (submit unit request) := by
    rw [submit_eq, announce]
    exact .bind (.bind (within_ensureConnected h) fun _ => within_nextHeader hcount unit)
      fun header => within_dispatch h request header
  have htransact : Within Q (transact unit request) := by
    refine .bind .get fun c => .bind hsubmit fun p => ?_
    split
    · exact within_unanswered request
    · exact within_collect h p
  refine .bind .get fun c => ?_
  split
  · exact .throw _
  · refine .bind (.outcome htransact) fun result => ?_
    split
    · exact .pure _
    · exact .bind (within_recover h _) fun _ => .throw _

end

theorem Keeps.ofLink (c : Client) (l : Link) (h : Link.Keeps .response c.link l) :
    c.Keeps { c with link := l } :=
  ⟨h, rfl⟩

theorem Keeps.waiting (c : Client) (reconnectAt : Option Nat) : c.Keeps { c with reconnectAt } :=
  ⟨.refl _, rfl⟩

theorem spans_keeps : Spans Keeps := .ofLink Link.spans_keeping .ofLink .waiting

theorem keeps_connect : Within Keeps connect := within_connect spans_keeps

theorem keeps_disconnect : Within Keeps disconnect := within_disconnect spans_keeps

theorem keeps_ensureConnected : Within Keeps ensureConnected := within_ensureConnected spans_keeps

theorem keeps_dispatch (request : Request) (header : Header) :
    Within Keeps (dispatch request header) :=
  within_dispatch spans_keeps request header

theorem keeps_collect (p : Pending) : Within Keeps (collect p) := within_collect spans_keeps p

theorem keeps_recover (e : Error) : Within Keeps (recover e) := within_recover spans_keeps e

theorem ensureConnected_of_isConnected (h : c.isConnected = true) :
    ensureConnected c = .ok () c := by
  rw [ensureConnected, run_get_bind, h]
  rfl

/-! ### Submitting -/

theorem of_onLink {work : LinkM α} {a : α} (h : onLink work c = .ok a c') :
    ∃ l, work c.link = .ok a l ∧ c' = { c with link := l } := by
  rcases hwork : work c.link with ⟨a', l⟩ | ⟨e, l⟩ <;> rw [onLink, hwork] at h <;> cases h
  exact ⟨l, rfl, rfl⟩

/-- When a request is sent, what is left of earlier reads is forgotten. -/
theorem of_dispatch {header : Header} (h : dispatch request header c = .ok p c') :
    p = ⟨header, request⟩ ∧
      c'.link.channel = c.link.channel.map fun channel => { channel with buffer := [] } := by
  rcases hmessage : Message.ofRequest header request with e | message
  · rw [dispatch, hmessage] at h
    cases h
  · rw [dispatch, hmessage] at h
    obtain ⟨_, c₁, hclear, hrest⟩ := of_run_bind h
    obtain ⟨_, c₂, hsend, hend⟩ := of_run_bind hrest
    cases hend
    obtain ⟨l₁, hcleared, rfl⟩ := of_onLink hclear
    obtain ⟨l₂, hsent, rfl⟩ := of_onLink hsend
    cases hcleared
    exact ⟨rfl, (Link.send_spares hsent).1⟩

/-- A header is made for a stream that is connected, and on TCP with the next number. -/
theorem of_announce {header : Header} (h : announce unit c = .ok header c') :
    Link.Keeps .response c.link c'.link ∧
      (c.link.framing = .tcp →
        header = .tcp c.transaction unit ∧ c'.transaction = c.transaction + 1) := by
  obtain ⟨_, c₀, hconnect, hheader⟩ := of_run_bind h
  have hkeeps : Keeps c c₀ := keeps_ensureConnected.of_ok hconnect
  rw [nextHeader, run_get_bind] at hheader
  rcases hframing : c₀.link.framing with _ | _ <;> rw [hframing] at hheader <;> cases hheader
  · refine ⟨hkeeps.link, fun htcp => ?_⟩
    rw [← hkeeps.link.framing, hframing] at htcp
    cases htcp
  · refine ⟨hkeeps.link, fun _ => ⟨by rw [hkeeps.transaction], ?_⟩⟩
    show c₀.transaction + 1 = c.transaction + 1
    rw [hkeeps.transaction]

theorem keeps_of_announce_error {e : Error} (h : announce unit c = .error e c') : Keeps c c' := by
  have hkeeps := keeps_ensureConnected c
  rcases hconnect : ensureConnected c with ⟨a, c₀⟩ | ⟨e', c₀⟩
  · rw [announce, run_bind hconnect, nextHeader, run_get_bind] at h
    rcases hframing : c₀.link.framing with _ | _ <;> rw [hframing] at h <;> cases h
  · rw [announce, run_bind_of_error hconnect] at h
    cases h
    rw [after, hconnect] at hkeeps
    exact hkeeps

/-! ### Calling -/

theorem call_of_permit (h : c.permit unit request = .ok ()) :
    call unit request c = recovering (transact unit request) c := by
  rw [call, run_get_bind, h]

theorem call_of_permit_error {e : ConfigError} (h : c.permit unit request = .error e) :
    call unit request c = .error (.config e) c := by
  rw [call, run_get_bind, h]
  rfl

theorem transact_of_submit_error {e : Error} (h : submit unit request c = .error e c') :
    transact unit request c = .error e c' := by
  rw [transact, run_get_bind, run_bind_of_error h]

theorem transact_of_submit (h : submit unit request c = .ok p c') :
    transact unit request c =
      (if c.isBroadcast unit then unanswered request else collect p) c' := by
  rw [transact, run_get_bind, run_bind h]

theorem run_recover (e : Error) (c : Client) : recover e c = .ok () (after (recover e) c) := by
  by_cases hrecovers : (c.settings.recovery && e.isLinkFailure) = true
  · obtain ⟨ended, c', hended⟩ : ∃ ended c', outcome disconnect c = .ok ended c' := by
      rw [outcome]
      rcases disconnect c with ⟨a, c'⟩ | ⟨e, c'⟩ <;> exact ⟨_, _, rfl⟩
    have hrun : ∀ c'', recover e c = .ok () c'' → recover e c = .ok () (after (recover e) c) := by
      intro c'' h
      rw [after, h]
    apply hrun
    rw [recover, run_get_bind, if_pos hrecovers, run_bind (run_discard hended)]
    rfl
  · rw [after, recover, run_get_bind, if_neg hrecovers]
    rfl

theorem run_recovering {work : ClientM α} {a : α} (h : work c = .ok a c') :
    recovering work c = .ok a c' := by
  rw [recovering, run_bind (run_outcome h)]
  rfl

/-- What comes of work does not depend on whether the link is recovered after it. -/
theorem recovering_eq (work : ClientM α) (c : Client) :
    recovering work c =
      match work c with
      | .ok a c' => .ok a c'
      | .error e c' => .error e (after (recover e) c') := by
  rcases hwork : work c with ⟨a, c'⟩ | ⟨e, c'⟩
  · exact run_recovering hwork
  · rw [recovering, run_bind (run_outcome_of_error hwork)]
    dsimp only
    rw [run_bind (run_recover e c')]
    rfl

theorem keeps_after_recovering (work : ClientM α) (c : Client) :
    Keeps (after work c) (after (recovering work) c) := by
  rw [after, after, recovering_eq]
  rcases work c with ⟨a, c'⟩ | ⟨e, c'⟩
  · exact refl c'
  · exact keeps_recover e c'

/-- An answer is accepted if it is a reply under the header of the request, about its function. -/
theorem accept_eq_ok_iff {m : Message} {answer : Answer Response} :
    p.accept m = .ok answer ↔ m.header = p.header ∧ ∃ reply, m.response = .ok reply ∧
      reply.function = p.request.function ∧ answer = reply.mapError (·.exception) := by
  rw [Pending.accept]
  rcases m.response with fault | reply
  · exact ⟨nofun, fun ⟨_, _, h, _⟩ => by cases h⟩
  · dsimp only
    split
    · rename_i hheader
      exact ⟨nofun, fun ⟨h, _⟩ => (hheader h).elim⟩
    · rename_i hheader
      rw [not_not] at hheader
      split
      · rename_i hfunction
        refine ⟨nofun, ?_⟩
        rintro ⟨-, reply', h, hfunction', -⟩
        cases h
        exact (hfunction hfunction').elim
      · rename_i hfunction
        rw [not_not] at hfunction
        constructor
        · rintro h
          cases h
          exact ⟨hheader, reply, rfl, hfunction, rfl⟩
        · rintro ⟨-, reply', h, -, rfl⟩
          cases h
          rfl

theorem of_collect {answer : Answer Response} (h : collect p c = .ok answer c') :
    ∃ m l, Link.receive c.settings.responseTimeout c.settings.byteTimeout c.link = .ok m l ∧
      c' = { c with link := l } ∧ p.accept m = .ok answer := by
  rw [collect, run_get_bind] at h
  obtain ⟨m, c₁, hreceive, hrest⟩ := of_run_bind h
  obtain ⟨l, hreceived, rfl⟩ := of_onLink hreceive
  refine ⟨m, l, hreceived, ?_⟩
  rcases haccept : p.accept m with e | given <;> rw [haccept] at hrest <;> cases hrest
  exact ⟨rfl, rfl⟩

/-- A call that succeeds has submitted its request and has collected the answer to it, unless
nobody answers it. -/
theorem of_call {answer : Answer Response} (h : call unit request c = .ok answer c') :
    c.permit unit request = .ok () ∧ ∃ p c₁, submit unit request c = .ok p c₁ ∧
      (if c.isBroadcast unit then unanswered request else collect p) c₁ = .ok answer c' := by
  rcases hpermit : c.permit unit request with e | _
  · rw [call_of_permit_error hpermit] at h
    cases h
  · rw [call_of_permit hpermit, recovering_eq] at h
    rcases hsubmit : submit unit request c with ⟨p, c₁⟩ | ⟨e, c₁⟩
    · rw [transact_of_submit hsubmit] at h
      refine ⟨rfl, p, c₁, rfl, ?_⟩
      split at h
      · rename_i hrest
        cases h
        exact hrest
      · cases h
    · rw [transact_of_submit_error hsubmit] at h
      cases h

theorem isBroadcast_of_tcp (h : c.link.framing = .tcp) (unit : UnitId) :
    c.isBroadcast unit = false := by
  rw [isBroadcast, h, show (Framing.tcp == Framing.rtu) = false from rfl, Bool.and_false]

/-- The header that a call makes, if it comes that far. -/
def header? (unit : UnitId) (request : Request) (c : Client) : Option Header :=
  match c.permit unit request, announce unit c with
  | .ok (), .ok header _ => some header
  | _, _ => none

/-- A call makes one header or none, and nothing else counts as a transaction. -/
theorem keeps_after_call (unit : UnitId) (request : Request) (c : Client) :
    match c.header? unit request with
    | some header =>
      ∃ c', announce unit c = .ok header c' ∧ Keeps c' (after (call unit request) c)
    | none => Keeps c (after (call unit request) c) := by
  rcases hpermit : c.permit unit request with e | _
  · rw [header?, hpermit, after, call_of_permit_error hpermit]
    exact refl c
  · have hcall : after (call unit request) c = after (recovering (transact unit request)) c := by
      rw [after, call_of_permit hpermit, ← after]
    have hrecovering := keeps_after_recovering (transact unit request) c
    rw [hcall]
    rcases hannounce : announce unit c with ⟨header, c'⟩ | ⟨e, c'⟩
    · rw [header?, hpermit, hannounce]
      refine ⟨c', rfl, ?_⟩
      have hrest : Within Keeps (dispatch request header >>= fun p =>
          if c.isBroadcast unit then unanswered request else collect p) := by
        refine .bind (keeps_dispatch request header) fun p => ?_
        split
        · exact within_unanswered request
        · exact keeps_collect p
      have htransact : after (transact unit request) c = after (dispatch request header >>= fun p =>
          if c.isBroadcast unit then unanswered request else collect p) c' := by
        have hsubmit : submit unit request c = dispatch request header c' := by
          rw [submit_eq, run_bind hannounce]
        rw [after, after, transact, run_get_bind, run_bind_congr hsubmit]
      exact IsTrans.trans _ _ _ (htransact ▸ hrest c') hrecovering
    · rw [header?, hpermit, hannounce]
      have hsubmit : submit unit request c = .error e c' := by
        rw [submit_eq, run_bind_of_error hannounce]
      rw [after, transact_of_submit_error hsubmit] at hrecovering
      exact IsTrans.trans _ _ _ (keeps_of_announce_error hannounce) hrecovering

end Client

end Modbus

import Modbus.Proofs.Client.Broadcast
import Modbus.Proofs.Client.Stale
import Modbus.Proofs.DataModel.Relay
import Modbus.Proofs.Pair.Operations
import Modbus.Proofs.Sharing.Basic

/-! A line upstream: a client, and whatever is at the other end of it. A call is a course of work on
the line. It comes to what the client makes of the bytes that the other end sends meanwhile, and
when the other end answers what it is asked, it comes to that answer. -/

namespace Modbus

/-! ### Courses of calls -/

namespace Course

variable {σ α β : Type}

def bind : Course σ α → (α → Course σ β) → Course σ β
  | ended result, f => f result
  | piece act next, f => piece act fun s => (next s).bind f

theorem run_bind (x : Course σ α) (f : α → Course σ β) (s : σ) :
    (x.bind f).run s = (f (x.run s).1).run (x.run s).2 := by
  induction x generalizing s with
  | ended result => rfl
  | piece act next ih => exact ih s (act s)

/-- Work that is not left before it ends. -/
def attempt (work : EStateM Error σ α) : Course σ (Except Error α) :=
  piece (after work) fun s => ended (resultOf work s)

end Course

/-- A client and what is at the other end of its line. -/
structure Line (δ : Type) where
  client : Client
  device : δ

/-- What the other end does about bytes that are sent to it: what arrives of its answer. -/
abbrev Reaction (δ : Type) := δ → List UInt8 → List Arrival × δ

namespace Line

variable {δ α : Type} (react : Reaction δ)

/-- Lets the other end react to what has been sent. -/
def deliver : List (List UInt8) → Line δ → Line δ
  | [], l => l
  | bytes :: rest, ⟨c, d⟩ =>
    let (arrivals, d) := react d bytes
    deliver rest ⟨{ c with link := c.link.withWire (c.link.transport.wire.feed arrivals) }, d⟩

def sentSince (before after : Client) : List (List UInt8) :=
  Pair.sentBytes (Pair.since after.link.journal before.link.journal.entries.length)

/-- Work of the client, after which the other end reacts to what it has sent. -/
def onClient (work : ClientM α) : EStateM Error (Line δ) α := fun l =>
  match work l.client with
  | .ok a client => .ok a (deliver react (sentSince l.client client) { l with client })
  | .error e client => .error e (deliver react (sentSince l.client client) { l with client })

/-- A call comes to its answer, but after a failure to an exception of the gateway. -/
def concluded : Except Error (Answer Response) → Course (Line δ) (Answer Response)
  | .ok answer => .ended answer
  | .error e =>
    (Course.attempt (onClient react (Client.recover e))).bind fun _ =>
      .ended (.error .serverDeviceFailure)

/-- A call of a unit on behalf of a gateway. -/
def course (unit : UnitId) (request : Request) : Course (Line δ) (Answer Response) :=
  .piece id fun l =>
    match l.client.permit unit request with
    | .error _ => .ended (.error .serverDeviceFailure)
    | .ok () =>
      (Course.attempt (onClient react (Client.submit unit request))).bind fun
        | .error e => concluded react (.error e)
        | .ok pending =>
          (Course.attempt (onClient react
            (if l.client.isBroadcast unit then Client.unanswered request
              else Client.collect pending))).bind (concluded react)

/-- What has been written to the line. -/
def written (l : Line δ) : List (List UInt8) := Pair.sentBytes l.client.link.journal.entries

variable {react} {l : Line δ}

/-! ### Courses and calls -/

theorem client_deliver (groups : List (List UInt8)) (l : Line δ) :
    (deliver react groups l).client =
      l.client.given id (deliver react groups l).client.link.transport.wire.arrivals := by
  induction groups generalizing l with
  | nil => rfl
  | cons bytes rest ih => exact ih _

/-- The other end learns nothing of work that writes nothing. -/
theorem run_attempt_of_silent {work : ClientM α} (h : ∀ wire, Within (Silent wire Client.link) work)
    (l : Line δ) :
    (Course.attempt (onClient react work)).run l =
      (resultOf work l.client, { l with client := after work l.client }) := by
  have hsent : sentSince l.client (after work l.client) = [] :=
    Pair.sentBytes_eq_nil fun wire => (h wire l.client).journal.since
  simp only [Course.attempt, Course.run, resultOf, after, onClient] at hsent ⊢
  rcases hwork : work l.client with ⟨a, c⟩ | ⟨e, c⟩ <;> rw [hwork] at hsent <;>
    simp only [hsent, deliver]

theorem silent_collect {wire : String} (p : Client.Pending) :
    Within (Silent wire Client.link) (Client.collect p) := by
  refine .bind .get fun c =>
    .bind (Client.within_onLink (fun _ _ => id) (Link.silent_receive _ _)) fun message => ?_
  split
  · exact .pure _
  · exact .throw _

theorem run_concluded (result : Except Error (Answer Response)) (l : Line δ) :
    (concluded react result).run l = (Device.heardFrom result,
      match result with
      | .ok _ => l
      | .error e => { l with client := after (Client.recover e) l.client }) := by
  rcases result with e | answer
  · have hsilent : ∀ wire, Within (Silent wire Client.link) (Client.recover e) := fun wire c =>
      (Client.trying_recover e c).silent wire
    rw [concluded, Course.run_bind, run_attempt_of_silent hsilent]
    rfl
  · rfl

/-- The line after the request has been sent, as far as it can be, and the other end has reacted. -/
def submitted (react : Reaction δ) (unit : UnitId) (request : Request) (l : Line δ) : Line δ :=
  let client := after (Client.submit unit request) l.client
  deliver react (sentSince l.client client) { l with client }

theorem run_attempt_submit (unit : UnitId) (request : Request) (l : Line δ) :
    (Course.attempt (onClient react (Client.submit unit request))).run l =
      (resultOf (Client.submit unit request) l.client, l.submitted react unit request) := by
  simp only [submitted, Course.attempt, Course.run, resultOf, after, onClient]
  rcases Client.submit unit request l.client with ⟨p, c⟩ | ⟨e, c⟩ <;> rfl

/-- The course of a call is the call of the client, with all that the other end sends meanwhile on
its way from the beginning. -/
theorem run_course {unit : UnitId} {request : Request}
    (hpermit : l.client.permit unit request = .ok ()) :
    let there := l.submitted react unit request
    let early := l.client.given id there.client.link.transport.wire.arrivals
    (course react unit request).run l =
      (Device.heardFrom (resultOf (Client.call unit request) early),
        ⟨after (Client.call unit request) early, there.device⟩) := by
  intro there early
  have hpermit' : early.permit unit request = .ok () := hpermit
  have hbroadcast : early.isBroadcast unit = l.client.isBroadcast unit := rfl
  have hthere : there.client = (after (Client.submit unit request) l.client).given id
      there.client.link.transport.wire.arrivals := client_deliver _ _
  have hearly : Client.submit unit request early = _ := Client.blind_submit unit request l.client
  simp only [course, Course.run, id, hpermit]
  rw [Course.run_bind, run_attempt_submit, resultOf, resultOf, after,
    Client.call_of_permit hpermit', Client.recovering_eq]
  rcases hsubmit : Client.submit unit request l.client with ⟨p, c⟩ | ⟨e, c⟩ <;>
    rw [after, hsubmit] at hthere <;> rw [hsubmit] at hearly
  · replace hearly : Client.submit unit request early = .ok p there.client :=
      hearly.trans (congrArg _ hthere.symm)
    have hsilent : ∀ wire, Within (Silent wire Client.link)
        (if early.isBroadcast unit then Client.unanswered request else Client.collect p) := by
      intro wire
      split
      · exact Client.within_unanswered request
      · exact silent_collect p
    rw [Client.transact_of_submit hearly]
    dsimp only
    rw [← hbroadcast, Course.run_bind, run_attempt_of_silent hsilent, run_concluded, resultOf,
      after]
    rcases (if early.isBroadcast unit then Client.unanswered request else Client.collect p)
      there.client with ⟨answer, c'⟩ | ⟨e, c'⟩ <;> rfl
  · replace hearly : Client.submit unit request early = .error e there.client :=
      hearly.trans (congrArg _ hthere.symm)
    rw [Client.transact_of_submit_error hearly]
    dsimp only
    rw [run_concluded]

/-! ### Lines whose other end answers -/

variable (react) in
/-- The other end answers each request to one of the units, as `answer` says and in time: after the
frame of the request, the frame of a reply about the same function arrives. -/
structure Answers (answer : UnitId → Request → δ → Answer Response × δ) (units : UnitId → Prop)
    (framing : Framing) (settings : LinkSettings) : Prop where
  sendable : ∀ unit r d, units unit → r.IsSupported → r.WithinLimits →
    Reply.IsSendable ((answer unit r d).1.mapError (⟨r.function, ·⟩))
  function : ∀ unit r d response, units unit → r.IsSupported → r.WithinLimits →
    (answer unit r d).1 = .ok response → response.function = r.function
  brings : ∀ (header : Header) (r : Request) (d : δ), header.framing = framing →
    units header.unit → r.IsSupported → r.WithinLimits →
    Brings settings.byteTimeout settings.responseTimeout
      (header.frame .response
        (Reply.pdu ((answer header.unit r d).1.mapError (⟨r.function, ·⟩)))).adu
      (react d (header.frame .request r.pdu).adu).1
  leaves : ∀ (header : Header) (r : Request) (d : δ), header.framing = framing →
    units header.unit → r.IsSupported → r.WithinLimits →
    (react d (header.frame .request r.pdu).adu).2 = (answer header.unit r d).2

/-- The answer as a client learns it, and what it leaves at the other end. -/
def ask (answer : UnitId → Request → δ → Answer Response × δ) (unit : UnitId) (r : Request)
    (d : δ) : Answer Response × δ :=
  ((answer unit r d).1.padded, (answer unit r d).2)

/-- The client's link works, and nothing is on its way. -/
structure IsReady (framing : Framing) (settings : LinkSettings) (l : Line δ) : Prop where
  ready : l.client.link.Ready .response
  framing : l.client.link.framing = framing
  settings : l.client.settings = settings

variable {answer : UnitId → Request → δ → Answer Response × δ} {units : UnitId → Prop}
  {framing : Framing} {settings : LinkSettings}

/-- A client whose link works gets the answer to what it asks, and the next one will find it as it
has been. -/
theorem run_course_of_answers (h : Answers react answer units framing settings)
    (hready : l.IsReady framing settings) {unit : UnitId} (hunits : units unit)
    (hunit : unit.isBroadcast = false) {r : Request} (hs : r.IsSupported) (hl : r.WithinLimits) :
    ∃ l', (course react unit r).run l = ((ask answer unit r l.device).1, l') ∧
      l'.device = (ask answer unit r l.device).2 ∧ l'.IsReady framing settings := by
  obtain ⟨header, c₁, hsubmit, hheader, rfl, hjoined₁, harrivals₁, hsends₁⟩ :=
    Client.submit_of_ready hready.ready unit (Request.size_of_withinLimits hs hl)
  have hheader' : header.framing = framing := hheader.trans hready.framing
  have hsent : sentSince l.client c₁ = [(header.frame .request r.pdu).adu] := hsends₁.link.since
  let reaction := react l.device (header.frame .request r.pdu).adu
  let c₂ : Client := { c₁ with
    link := c₁.link.withWire (c₁.link.transport.wire.feed reaction.1) }
  have hsettings₁ : c₁.settings = settings := hsends₁.settings.trans hready.settings
  obtain ⟨c₃, hcollect, hjoined₃, harrivals₃, hsends₃⟩ := Client.collect_frame (c := c₂) header
    ⟨hjoined₁.faultless, hjoined₁.channel⟩ (hheader.trans hsends₁.link.framing.symm) hs
    (h.sendable header.unit r l.device hunits hs hl)
    (fun response => h.function header.unit r l.device response hunits hs hl) <| by
      intro bytes _ hbytes
      have hbrings := h.brings header r l.device hheader' hunits hs hl
      show Brings c₁.settings.byteTimeout c₁.settings.responseTimeout _
        (c₁.link.transport.wire.arrivals ++ reaction.1)
      rw [harrivals₁, List.nil_append, hsettings₁, hbytes]
      exact hbrings
  refine ⟨⟨c₃, reaction.2⟩, ?_, h.leaves header r l.device hheader' hunits hs hl,
    hjoined₃.ready harrivals₃, ?_, hsends₃.settings.trans hsettings₁⟩
  · have hpermit : l.client.permit header.unit r = .ok () := Pair.permit_of_isSupported hs hunit
    have hbroadcast : l.client.isBroadcast header.unit = false := by
      rw [Client.isBroadcast, hunit, Bool.false_and]
    have hsubmitted : l.submitted react header.unit r = ⟨c₂, reaction.2⟩ := by
      simp only [submitted, after, hsubmit, hsent]
      rfl
    simp only [course, Course.run, id, hpermit]
    rw [Course.run_bind, run_attempt_submit, hsubmitted, resultOf, hsubmit]
    simp only [hbroadcast, Bool.false_eq_true, if_false]
    rw [Course.run_bind, run_attempt_of_silent (fun _ => silent_collect _), resultOf, after,
      hcollect]
    rfl
  · exact (hsends₃.link.framing.trans hsends₁.link.framing).trans hready.framing

end Line

end Modbus

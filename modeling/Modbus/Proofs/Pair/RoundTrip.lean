import Modbus.Proofs.Client.Recovery
import Modbus.Proofs.Client.Stale
import Modbus.Proofs.Pair.Call

/-! Round trips. A call over a pair is a call of its client, for which all that the server answers
is on its way from the beginning. That the client reads it on a clock of its own makes no difference
as long as a request and the first bytes of its answer take no more time together than the client
waits for an answer. -/

namespace Modbus

/-! ### Calls of a pair and calls of its client -/

/-- There is nothing to recover from when a broadcast is confirmed. -/
theorem Client.recovering_unanswered (r : Request) (c : Client) :
    recovering (unanswered r) c = unanswered r c := by
  rw [recovering_eq, unanswered]
  rcases r.echo? with _ | response
  · have hlink : (Error.config (.broadcast r.function)).isLinkFailure = false := rfl
    have hkept : after (recover (.config (.broadcast r.function))) c = c := by
      rw [after_recover, hlink, Bool.and_false, if_neg Bool.false_ne_true]
    exact congrArg (EStateM.Result.error _) hkept
  · rfl

namespace Pipe

/-- What is delivered to a link is added to what is to arrive on it. -/
theorem deliver_eq (p : Pipe) (l : Link) (groups : List (List UInt8)) :
    (p.deliver l groups).2 =
      l.given id (p.deliver l groups).2.transport.wire.arrivals := by
  induction groups generalizing p l with
  | nil => rfl
  | cons bytes rest ih => exact ih _ _

end Pipe

namespace Pair

variable {interval : Nat} {p : Pair} {unit : UnitId} {r : Request}

/-- The pair with groups of bytes on their way to the server. -/
def asked (p : Pair) (groups : List (List UInt8)) : Pair :=
  let delivery := p.toServer.deliver p.server.link groups
  { p with toServer := delivery.1, server := { p.server with link := delivery.2 } }

/-- The pair with groups of bytes on their way to the client. -/
def answered (p : Pair) (groups : List (List UInt8)) : Pair :=
  let delivery := p.toClient.deliver p.client.link groups
  { p with toClient := delivery.1, client := { p.client with link := delivery.2 } }

/-- The pair after bytes have been carried to the server and its answers back. -/
def exchanged (interval n : Nat) (p : Pair) : Pair :=
  let asking := p.asked (sentBytes (since p.client.link.journal n))
  let settled := after (onServer (settle interval asking.server.link.workload)) asking
  settled.answered (sentBytes (since settled.server.journal asking.server.journal.entries.length))

/-- Answers are carried whatever comes of what the server does. -/
theorem run_exchange (interval n : Nat) (p : Pair) :
    exchange interval n p = .ok () (exchanged interval n p) := by
  let asking := p.asked (sentBytes (since p.client.link.journal n))
  have hsettle := run_discard
    (run_outcome_eq (onServer (settle interval asking.server.link.workload)) asking)
  rw [exchange, run_get_bind]
  exact run_bind hsettle

/-- The client notices nothing of it but what arrives. -/
theorem client_exchanged (interval n : Nat) (p : Pair) :
    (exchanged interval n p).client = p.client.given id
      (exchanged interval n p).client.link.transport.wire.arrivals := by
  let asking := p.asked (sentBytes (since p.client.link.journal n))
  let work := onServer (settle interval asking.server.link.workload)
  have hclient : (after work asking).client = p.client := by
    simp only [work, after, onServer]
    rcases settle interval asking.server.link.workload asking.server with ⟨a, s⟩ | ⟨e, s⟩ <;> rfl
  rw [← hclient]
  exact congrArg (fun link => { (after work asking).client with link }) (Pipe.deliver_eq _ _ _)

/-- Once the request has been sent, the answer is made of what arrives after the exchange. -/
theorem call_of_submit (hpermit : p.client.permit unit r = .ok ()) {pending : Client.Pending}
    {c : Client} (hsubmit : Client.submit unit r p.client = .ok pending c) :
    call interval unit r p =
      onClient (Client.recovering
          (if p.client.isBroadcast unit then Client.unanswered r else Client.collect pending))
        (exchanged interval p.client.link.journal.entries.length { p with client := c }) := by
  rw [call, run_get_bind, hpermit]
  dsimp only
  rw [run_bind (run_onClient (Client.run_recovering hsubmit)), run_bind (run_exchange _ _ _)]
  by_cases hall : p.client.isBroadcast unit = true
  · have hunanswered : Client.recovering (Client.unanswered r) = Client.unanswered r :=
      funext (Client.recovering_unanswered r)
    rw [if_pos hall, if_pos hall, hunanswered]
  · rw [if_neg hall, if_neg hall]

/-- A request that cannot be sent is not carried anywhere. -/
theorem call_of_submit_error (hpermit : p.client.permit unit r = .ok ()) {e : Error} {c : Client}
    (hsubmit : Client.submit unit r p.client = .error e c) :
    call interval unit r p = .error e { p with client := after (Client.recover e) c } := by
  have hfailed : onClient (Client.recovering (Client.submit unit r)) p =
      .error e { p with client := after (Client.recover e) c } := by
    rw [onClient, Client.recovering_eq, hsubmit]
  rw [call, run_get_bind, hpermit]
  exact run_bind_of_error hfailed

/-- The pair once the client has sent the request and what the server answers is on its way. If the
request has not been sent, nothing is. -/
def submitted (interval : Nat) (unit : UnitId) (r : Request) (p : Pair) : Pair :=
  match Client.submit unit r p.client with
  | .ok _ client =>
    exchanged interval p.client.link.journal.entries.length { p with client }
  | .error _ client => { p with client }

/-- The call of a pair is the call of its client, with all that the server answers on its way from
the beginning. -/
theorem call_eq (hpermit : p.client.permit unit r = .ok ()) :
    let there := p.submitted interval unit r
    let early := p.client.given id there.client.link.transport.wire.arrivals
    call interval unit r p = onClient (Client.call unit r) { there with client := early } := by
  intro there early
  have hbroadcast : early.isBroadcast unit = p.client.isBroadcast unit := rfl
  have hcall : Client.call unit r early = Client.recovering (Client.transact unit r) early :=
    Client.call_of_permit hpermit
  have hearly : Client.submit unit r early = _ := Client.blind_submit unit r p.client
  rcases hsubmit : Client.submit unit r p.client with ⟨pending, c⟩ | ⟨e, c⟩ <;>
    rw [hsubmit] at hearly
  · have hthere : there =
        exchanged interval p.client.link.journal.entries.length { p with client := c } := by
      simp only [there, submitted, hsubmit]
    have hclient : there.client = c.given id there.client.link.transport.wire.arrivals := by
      rw [hthere]
      exact client_exchanged _ _ _
    replace hearly : Client.submit unit r early = .ok pending there.client :=
      hearly.trans (congrArg _ hclient.symm)
    rw [call_of_submit hpermit hsubmit, ← hthere, onClient, onClient, hcall,
      Client.recovering_eq, Client.recovering_eq, Client.transact_of_submit hearly, hbroadcast]
  · have hthere : there = { p with client := c } := by
      simp only [there, submitted, hsubmit]
    have hclient : there.client = c := congrArg Pair.client hthere
    replace hearly : Client.submit unit r early = .error e c := by
      rw [hearly, hclient]
      rfl
    rw [call_of_submit_error hpermit hsubmit, onClient, hcall, Client.recovering_eq,
      Client.transact_of_submit_error hearly, hthere]

end Pair

/-! ### Time -/

section

variable {byteTimeout within within' : Nat} {bytes : List UInt8} {arrivals : List Arrival}

theorem Brings.mono (h : Brings byteTimeout within bytes arrivals) (hle : within ≤ within') :
    Brings byteTimeout within' bytes arrivals := by
  induction h generalizing within' with
  | last b bs => exact .last b bs
  | more b bs hlater ih => exact .more b bs hlater
  | pause hms hlater ih => exact .pause (Nat.le_trans hms hle) (ih (Nat.sub_le_sub_right hle _))

/-- A frame is received at the time at which the last byte of it arrives. -/
theorem Link.now_receive_of_brings {role : Role} {l : Link} {message : Message}
    (hl : l.Joined role) (h : Brings byteTimeout within bytes l.transport.wire.arrivals)
    (hframe : FrameCodec.Delimits ⟨l.framing, role⟩ bytes message) :
    (after (receive within byteTimeout) l).journal.now =
      l.journal.now + Arrival.delay l.transport.wire.arrivals := by
  obtain ⟨peer, debug, hchannel⟩ := hl.channel
  obtain ⟨deadlines, hstart⟩ := Received.start_of_brings h l.journal.now hframe
  rw [after_receive hchannel, hstart]
  rfl

end

namespace Pipe

variable {byteTimeout within ms : Nat} {p : Pipe}

/-- The pipe by which everything arrives `ms` milliseconds later. -/
def delayed (ms : Nat) (p : Pipe) : Pipe :=
  { p with carry := fun n bytes => .pause ms :: p.carry n bytes }

theorem inTime_of_delayed (h : (p.delayed ms).InTime byteTimeout within) :
    p.InTime byteTimeout within := by
  intro n bytes hbytes
  have hlate : Brings byteTimeout within bytes (.pause ms :: p.carry n bytes) := h n bytes hbytes
  cases hlate with
  | pause hms hlater => exact hlater.mono (Nat.sub_le within ms)

/-- Later is still in time if there is as much time left. -/
theorem inTime_delayed (hms : ms ≤ within) (h : p.InTime byteTimeout (within - ms)) :
    (p.delayed ms).InTime byteTimeout within :=
  fun n bytes hbytes => .pause hms (h n bytes hbytes)

end Pipe

namespace Pair

variable {interval : Nat} {p : Pair}

/-- The pair where the client gets each answer `ms` milliseconds later. -/
def delayed (ms : Nat) (p : Pair) : Pair := { p with toClient := p.toClient.delayed ms }

/-- A pair whose links work, on which nothing is pending, and where a request and the first bytes of
its answer take no more time together than the client waits. -/
structure RoundTrip (interval : Nat) (p : Pair) : Prop where
  client : p.client.link.Ready .response
  server : p.server.link.Ready .request
  framing : p.client.link.framing = p.server.link.framing
  isOpen : p.server.isOpen = true
  toServer : p.toServer.InTime p.server.settings.byteTimeout interval
  /-- On the clock of the client, an answer is on its way once the request has come. -/
  toClient : ∀ n asked, asked ≠ [] →
    (p.toClient.delayed (Arrival.delay (p.toServer.carry n asked))).InTime
      p.client.settings.byteTimeout p.client.settings.responseTimeout

/-- The pair is ready, whether the clock of the client starts when the request is sent or when it
has come. -/
theorem RoundTrip.ready_delayed (h : p.RoundTrip interval) {asked : List UInt8}
    (hasked : asked ≠ []) (n : Nat) :
    (p.delayed (Arrival.delay (p.toServer.carry n asked))).Ready interval :=
  ⟨h.client, h.server, h.framing, h.isOpen, h.toServer, h.toClient n asked hasked⟩

theorem RoundTrip.ready (h : p.RoundTrip interval) : p.Ready interval :=
  ⟨h.client, h.server, h.framing, h.isOpen, h.toServer,
    Pipe.inTime_of_delayed (h.toClient 0 [0] (List.cons_ne_nil _ _))⟩

/-- The client waits for the whole way if it waits for the longest way of a request and that of the
first bytes of an answer. -/
theorem Ready.roundTrip (h : p.Ready interval) (there : Nat)
    (hthere : ∀ n asked, asked ≠ [] → Arrival.delay (p.toServer.carry n asked) ≤ there)
    (hle : there ≤ p.client.settings.responseTimeout)
    (hback : p.toClient.InTime p.client.settings.byteTimeout
      (p.client.settings.responseTimeout - there)) : p.RoundTrip interval := by
  refine ⟨h.client, h.server, h.framing, h.isOpen, h.toServer, fun n asked hasked => ?_⟩
  have hdelay := hthere n asked hasked
  exact Pipe.inTime_delayed (Nat.le_trans hdelay hle) fun n' answer hanswer =>
    (hback n' answer hanswer).mono (Nat.sub_le_sub_left hdelay _)

/-- Nothing more is to be bounded if requests take no time. -/
theorem Ready.roundTrip_of_direct (h : p.Ready interval)
    (hdirect : p.toServer.carry = Pipe.direct.carry) : p.RoundTrip interval := by
  refine h.roundTrip 0 (fun n asked _ => ?_) (Nat.zero_le _) h.toClient
  rw [hdirect]
  exact Nat.le_refl 0

/-- A call ends with the same answer in both cases. -/
theorem call_of_roundTrip (h : p.RoundTrip interval) {unit : UnitId} {d : Device} {r : Request}
    (hd : p.server.device? unit = some d) (hlocal : d.IsLocal)
    (hunit : unit.isBroadcast = false) (hs : r.IsSupported) (hsize : r.size ≤ 253)
    {asked : List UInt8} (hasked : asked ≠ []) (n : Nat) :
    let late := p.delayed (Arrival.delay (p.toServer.carry n asked))
    let answer := (d.map.model.execute d.pduAddressing d.report r).1.padded
    resultOf (call interval unit r) p = .ok answer ∧
      resultOf (call interval unit r) late = .ok answer := by
  intro late answer
  obtain ⟨map, p', hcall, -⟩ := call_of_ready h.ready hd hlocal hunit hs hsize
  obtain ⟨map', p'', hlate, -⟩ :=
    call_of_ready (h.ready_delayed hasked n) hd hlocal hunit hs hsize
  rw [resultOf, resultOf, hcall, hlate]
  exact ⟨rfl, rfl⟩

end Pair

end Modbus

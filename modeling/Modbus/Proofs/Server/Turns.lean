import Modbus.Proofs.Frame.Messages
import Modbus.Proofs.Link.Timely
import Modbus.Proofs.Server.Deadlines
import Modbus.Proofs.Server.Serve

/-! Requests that arrive one after the other at a server whose link works. Whenever the server is
polled, and however long each poll may wait, the requests are answered in order, each by one poll,
and a frame that has been damaged costs one poll and nothing else. A poll that may wait until a time
that the clock cannot tell is the end of this. -/

namespace Modbus

/-- The frame of a request, and what has come instead of it if it has been damaged. -/
structure Query where
  header : Header
  code : UInt8
  fields : List UInt8
  damaged? : Option (List UInt8)

namespace Query

def message (q : Query) : Message := q.header.frame .request (q.code :: q.fields)

def bytes (q : Query) : List UInt8 := q.damaged?.getD q.message.adu

/-- The request is for a device of the server. On a serial line its length is the one that receivers
work out, and up to two adjacent bytes of it may have been damaged. -/
structure IsFor (s : Server) (q : Query) : Prop where
  framing : q.header.framing = s.framing
  unit : (s.device? q.header.unit).isSome = true
  code : q.code < 0x80
  fits : q.fields.length ≤ 252
  sized : s.framing = .rtu → Rtu.requestLength q.code q.fields = .known q.fields.length
  damage : ∀ damaged, q.damaged? = some damaged →
    s.framing = .rtu ∧ Rtu.Damages q.code q.message.adu damaged

variable {s : Server} {q : Query}

/-- Every request of a function that devices execute is such a request, unless it is too long. -/
theorem IsFor.of_request {header : Header} {r : Request} {damaged? : Option (List UInt8)}
    (hframing : header.framing = s.framing) (hunit : (s.device? header.unit).isSome = true)
    (hs : r.IsSupported) (hsize : r.size ≤ 253)
    (hdamage : ∀ damaged, damaged? = some damaged → s.framing = .rtu ∧
      Rtu.Damages r.function.code (header.frame .request r.pdu).adu damaged) :
    IsFor s ⟨header, r.function.code, r.payload, damaged?⟩ := by
  have hlength : r.payload.length + 1 = r.size := r.length_pdu
  have hcode : r.function.code < 0x80 :=
    UInt8.lt_of_le_of_lt (Request.code_function_of_isSupported hs).2 (by decide)
  refine ⟨hframing, hunit, hcode, ?_, fun _ => ?_, hdamage⟩
  · show r.payload.length ≤ 252
    omega
  · have hwhole := (Request.sized hs hsize).whole []
    rw [List.append_nil] at hwhole
    exact hwhole

theorem IsFor.yields_of_sound (h : q.IsFor s) (hsound : q.damaged? = none) :
    (FrameCodec.server s.framing).Yields q.bytes (.ok q.message) := by
  have hfits := h.fits
  have hsized := h.sized
  rw [bytes, hsound, Option.getD_none, message, ← h.framing]
  rw [← h.framing] at hsized
  cases hheader : q.header with
  | tcp transaction unit =>
    have hpos : 0 < (q.code :: q.fields).length := Nat.succ_pos _
    exact (Mbap.delimits hpos (Nat.succ_le_succ hfits)).yields
  | rtu unit =>
    rw [hheader] at hsized
    exact (Rtu.delimits (Rtu.sized_of_requestLength (hsized rfl)) hfits).yields

theorem IsFor.yields_of_damaged (h : q.IsFor s) {damaged : List UInt8}
    (hdamaged : q.damaged? = some damaged) : ∃ expected actual,
      (FrameCodec.server s.framing).Yields q.bytes (.error (.ofChecksum expected actual)) := by
  obtain ⟨hrtu, hdamage⟩ := h.damage damaged hdamaged
  have hsized := h.sized hrtu
  have hfits := h.fits
  have hframing := h.framing
  rw [bytes, hdamaged, Option.getD_some]
  rw [message] at hdamage
  rw [hrtu] at hframing ⊢
  cases hheader : q.header with
  | tcp transaction unit =>
    rw [hheader] at hframing
    cases hframing
  | rtu unit =>
    rw [hheader] at hdamage
    exact Rtu.yields_of_damages hsized hfits hdamage

theorem IsFor.exists_yields (h : q.IsFor s) :
    ∃ result, (FrameCodec.server s.framing).Yields q.bytes result := by
  rcases hdamaged : q.damaged? with _ | damaged
  · exact ⟨_, h.yields_of_sound hdamaged⟩
  · obtain ⟨expected, actual, hyields⟩ := h.yields_of_damaged hdamaged
    exact ⟨_, hyields⟩

theorem IsFor.of_same {s' : Server} (h : q.IsFor s) (hframing : s'.framing = s.framing)
    (hdevice : ∀ id, (s'.device? id).isSome = (s.device? id).isSome) : q.IsFor s' := by
  refine ⟨h.framing.trans hframing.symm, ?_, h.code, h.fits, ?_, ?_⟩
  · rw [hdevice]
    exact h.unit
  · rw [hframing]
    exact h.sized
  · rw [hframing]
    exact h.damage

/-! ### Turns -/

/-- The device that the request is for answers it from its map: `frame` is what it sends, and in
`devices'` it has its map after the request. -/
def Answers (q : Query) (devices : List Device) (frame : List UInt8) (devices' : List Device) :
    Prop :=
  ∃ d map, devices.find? (·.id = q.header.unit) = some d ∧
    let answer := d.map.model.answer d.pduAddressing d.report q.message.pdu
    frame = FrameCodec.encode (q.message.answered answer.1) ∧
    map.model = answer.2 ∧ map.shape = d.map.shape ∧
    devices' = devices.map fun e => if e.id = d.id then { d with map } else e

end Query

/-- What one poll of a server has come to: its result, the groups of bytes that have been sent, and
the devices after it. -/
structure Turn where
  result : Except Error Polled
  sent : List (List UInt8)
  devices : List Device

/-- A turn attends to the first of the requests: it is answered, or its frame has been damaged and
is discarded. If it has not come yet, the turn does nothing. -/
inductive Turn.Attends (devices : List Device) : List Query → Turn → List Query → Prop where
  | idle (queries : List Query) : Attends devices queries ⟨.ok .idle, [], devices⟩ queries
  | handled {q : Query} {frame : List UInt8} {devices' : List Device} (queries : List Query) :
    q.damaged? = none → q.Answers devices frame devices' →
      Attends devices (q :: queries) ⟨.ok .handled, [frame], devices'⟩ queries
  | discarded {q : Query} {damaged : List UInt8} (queries : List Query) :
    q.damaged? = some damaged →
      Attends devices (q :: queries) ⟨.ok .discarded, [], devices⟩ queries

theorem Turn.Attends.eq_nil {devices : List Device} {turn : Turn} {left : List Query}
    (h : turn.Attends devices [] left) : left = [] := by
  cases h
  rfl

/-- The turns attend to the requests one after the other, and those in `left` are left. -/
inductive Turn.AttendAll : List Device → List Query → List Turn → List Query → Prop where
  | nil (devices : List Device) (queries : List Query) : AttendAll devices queries [] queries
  | cons {devices : List Device} {queries next left : List Query} {turn : Turn}
    {turns : List Turn} : turn.Attends devices queries next →
      AttendAll turn.devices next turns left → AttendAll devices queries (turn :: turns) left

/-- A poll after a pause. -/
structure Visit where
  pause : Nat
  timeout : Nat

/-- The poll takes time, unless there is something to do. -/
def Visit.takesTime (v : Visit) : Bool := 0 < v.pause + v.timeout

namespace Server

def visit (v : Visit) : ServerM Polled := do
  onLink (Link.sleep v.pause)
  poll v.timeout

def turn (v : Visit) (s : Server) : Turn :=
  let s' := after (visit v) s
  let sent := Pair.sentBytes (Pair.since s'.journal s.journal.entries.length)
  ⟨resultOf (visit v) s, sent, s'.devices⟩

/-- Polls a server again and again. -/
def visits : List Visit → Server → List Turn × Server
  | [], s => ([], s)
  | v :: rest, s =>
    let (turns, last) := visits rest (after (visit v) s)
    (turn v s :: turns, last)

/-- Polls a server again and again on a clock that tells no time after `horizon`. There are no more
turns once a poll has overflowed. -/
def visitsOn (horizon : Nat) : List Visit → Server → List Turn × Except ClockFault Server
  | [], s => ([], .ok s)
  | v :: rest, s =>
    match Clock.run horizon journal (visit v) s with
    | .error fault => ([], .error fault)
    | .ok _ =>
      let (turns, last) := visitsOn horizon rest (after (visit v) s)
      (turn v s :: turns, last)

/-- The deadlines that the polls set. -/
def visitDeadlines (vs : List Visit) (s : Server) : List Nat :=
  s.journal.setSince (visits vs s).2.journal

end Server

/-! ### One turn -/

namespace Server

/-- The server is open, and the stream of its link carries the frames of the requests in time. They
are for its devices, which answer from their maps alone. -/
structure Receiving (queries : List Query) (s : Server) : Prop where
  isOpen : s.isOpen = true
  devices : ∀ d ∈ s.devices, d.IsLocal ∧ d.id.isRegistrable = true
  isFor : ∀ q ∈ queries, q.IsFor s
  carries : s.link.Carries s.settings.byteTimeout (queries.map Query.bytes)

/-- What is left to be done: the time that the arrivals take and the number of the requests. -/
def load (queries : List Query) (before : Nat) (s : Server) : Nat :=
  s.link.span before + queries.length

variable {s s' : Server} {q : Query} {queries left : List Query}

/-- Work on the link alone, which has used up the frames of the requests before `left`. -/
theorem Receiving.withLink {l : Link} (h : s.Receiving queries) (hleft : left ⊆ queries)
    (hframing : l.framing = s.link.framing)
    (hcarries : l.Carries s.settings.byteTimeout (left.map Query.bytes)) :
    ({ s with link := l } : Server).Receiving left :=
  ⟨h.isOpen, h.devices, fun q hq => (h.isFor q (hleft hq)).of_same hframing fun _ => rfl,
    hcarries⟩

theorem Receiving.putDevice {d : Device} (h : s.Receiving queries) (hd : d ∈ s.devices)
    (map : DataMap) : (s.putDevice { d with map }).Receiving queries := by
  refine ⟨h.isOpen, ?_, fun q hq => (h.isFor q hq).of_same rfl fun id => ?_, h.carries⟩
  · intro e he
    obtain ⟨e₀, he₀, rfl⟩ := List.mem_map.mp he
    by_cases hid : e₀.id = d.id
    · obtain ⟨hlocal, hunit⟩ := h.devices d hd
      rw [if_pos hid]
      exact ⟨⟨hlocal.forwardsTo, hlocal.before, hlocal.after⟩, hunit⟩
    · rw [if_neg hid]
      exact h.devices e₀ he₀
  · rw [device?_putDevice, Option.isSome_map]

/-- A request is answered by the device that it is for, and what comes after it is still in time. -/
theorem handle_of_receiving (h : s.Receiving queries) (hq : q.IsFor s) :
    ∃ s' frame, handle q.message s = .ok .handled s' ∧ Link.Sends [frame] s.link s'.link ∧
      q.Answers s.devices frame s'.devices ∧ s'.Receiving queries ∧
      s'.link.transport = s.link.transport ∧ s.link.Aging s'.link := by
  obtain ⟨d, hd⟩ := Option.isSome_iff_exists.mp hq.unit
  have hmem : d ∈ s.devices := List.mem_of_find?_eq_some hd
  obtain ⟨hlocal, hregistrable⟩ := h.devices d hmem
  have hheader : q.message.header = q.header := Header.header_frame
  have hunit : q.message.unit = q.header.unit := congrArg Header.unit hheader
  have hid : d.id = q.message.unit := by
    rw [hunit]
    simpa using List.find?_some hd
  have hbroadcast : q.message.unit.isBroadcast = false := by
    rw [← hid]
    exact UnitId.isBroadcast_of_isRegistrable hregistrable
  have hexception : q.message.isException = false := decide_eq_false (UInt8.not_le.mpr hq.code)
  rw [← hunit] at hd
  obtain ⟨c, hc, -⟩ := h.carries.stream
  have hpeer : s.peer? = some c.peer := by
    rw [peer?, hc, Option.map_some]
  obtain ⟨map, hprocess, hmodel, hshape⟩ := Device.process_of_isLocal hlocal c.peer q.message
  obtain ⟨l, hhandle, hsend, htransport, hchannel, hsends⟩ := handle_of_process
    h.carries.faultless hpeer hd hlocal hexception hbroadcast hprocess
  have haging : s.link.Aging l := (Link.aging_send _).of_ok hsend
  refine ⟨_, _, hhandle, hsends, ?_, ?_, htransport, haging⟩
  · exact ⟨d, map, hunit ▸ hd, rfl, hmodel, hshape, rfl⟩
  · exact (h.putDevice hmem map).withLink (List.Subset.refl _) hsends.framing
      (h.carries.later hsends htransport hchannel haging)

/-- On a serial line nothing but the frame is given up. -/
theorem discardFrame_of_rtu (h : s.framing = .rtu) : discardFrame s = .ok .discarded s := by
  have hne : ¬ s.framing = .tcp := by
    rw [h]
    decide
  rw [discardFrame, run_get_bind, if_neg hne]
  rfl

/-- The first of the requests is attended to, so there is less to be done. -/
theorem load_lt (s' : Server) {l : Link} {before : Nat} (htransport : s'.link.transport = l.transport)
    (hnow : l.Aging s'.link) (hspan : l.span l.journal.now ≤ s.link.span before) :
    load left s'.journal.now s' < load (q :: left) before s := by
  have hlater : s'.link.span s'.journal.now ≤ l.span l.journal.now := by
    rw [Link.span, Link.span, htransport]
    exact Arrival.span_le hnow _
  simp only [load, List.length_cons]
  omega

/-- A poll attends to the first of the requests. Nothing is left undone that was not before, and if
time passes, something is done. -/
theorem poll_of_receiving (h : s.Receiving queries) (timeout : Nat) :
    ∃ polled s' sent left, poll timeout s = .ok polled s' ∧ Link.Sends sent s.link s'.link ∧
      Turn.Attends s.devices queries ⟨.ok polled, sent, s'.devices⟩ left ∧ s'.Receiving left ∧
      ∀ before ≤ s.journal.now, load left s'.journal.now s' ≤ load queries before s ∧
        (queries ≠ [] → before < s.journal.now + timeout →
          load left s'.journal.now s' < load queries before s) := by
  have hyields : ∀ bytes ∈ queries.map Query.bytes,
      ∃ result, (FrameCodec.server s.link.framing).Yields bytes result := by
    intro bytes hbytes
    obtain ⟨q, hq, rfl⟩ := List.mem_map.mp hbytes
    exact (h.isFor q hq).exists_yields
  obtain ⟨l, hfetches, hsends, hspan⟩ := Link.fetches_of_carries h.carries hyields timeout
  rw [poll_of_isConnected h.isOpen h.carries.isConnected]
  generalize hframes : queries.map Query.bytes = frames at hfetches
  cases hfetches with
  | waits hreceive hcarries hlt =>
    rw [← hframes] at hcarries
    refine ⟨.idle, { s with link := l }, [], queries, pollStream_of_timeout hreceive, hsends,
      .idle queries, h.withLink (List.Subset.refl _) hsends.framing hcarries, ?_⟩
    intro before hbefore
    refine ⟨Nat.add_le_add_right (hspan before hbefore) _, fun hqueries hpast => ?_⟩
    have hne : frames ≠ [] := by
      rw [← hframes]
      simpa using hqueries
    exact Nat.add_lt_add_right (hlt hne before hbefore hpast) _
  | takes hreceive hresult hcarries =>
    obtain ⟨q, left, rfl, rfl, rfl⟩ := List.map_eq_cons_iff.mp hframes
    have hq : q.IsFor s := h.isFor q List.mem_cons_self
    rcases hdamaged : q.damaged? with _ | damaged
    · cases (hq.yields_of_sound hdamaged).unique hresult
      have hrest := h.withLink (List.subset_cons_self q left) hsends.framing hcarries
      have hq₁ : q.IsFor { s with link := l } := hq.of_same hsends.framing fun _ => rfl
      obtain ⟨s', frame, hhandle, hsent, hanswers, hreceiving, htransport, haging⟩ :=
        handle_of_receiving hrest hq₁
      refine ⟨.handled, s', [frame], left, ?_, hsends.trans hsent,
        .handled left hdamaged hanswers, hreceiving, fun before hbefore => ?_⟩
      · rw [pollStream_of_receive hreceive, hhandle]
      · have hlt : load left s'.journal.now s' < load (q :: left) before s :=
          load_lt s' htransport haging (hspan before hbefore)
        exact ⟨Nat.le_of_lt hlt, fun _ _ => hlt⟩
    · obtain ⟨expected, actual, hyields'⟩ := hq.yields_of_damaged hdamaged
      cases hyields'.unique hresult
  | loses hreceive hresult hcarries =>
    obtain ⟨q, left, rfl, rfl, rfl⟩ := List.map_eq_cons_iff.mp hframes
    have hq : q.IsFor s := h.isFor q List.mem_cons_self
    rcases hdamaged : q.damaged? with _ | damaged
    · cases (hq.yields_of_sound hdamaged).unique hresult
    · obtain ⟨expected, actual, hyields'⟩ := hq.yields_of_damaged hdamaged
      cases hyields'.unique hresult
      have hrtu : ({ s with link := l } : Server).framing = .rtu :=
        hsends.framing.trans (hq.damage damaged hdamaged).1
      refine ⟨.discarded, { s with link := l }, [], left, ?_, hsends, .discarded left hdamaged,
        h.withLink (List.subset_cons_self q left) hsends.framing hcarries, fun before hbefore => ?_⟩
      · rw [pollStream_of_error (by rintro ⟨⟩) hreceive]
        exact discardFrame_of_rtu hrtu
      · have hlt : load left l.journal.now { s with link := l } < load (q :: left) before s :=
          load_lt { s with link := l } rfl (Nat.le_refl _) (hspan before hbefore)
        exact ⟨Nat.le_of_lt hlt, fun _ _ => hlt⟩

/-- A pause before a poll makes no difference, except that time passes. -/
theorem visit_of_receiving (h : s.Receiving queries) (v : Visit) :
    ∃ polled s' sent left, visit v s = .ok polled s' ∧ Link.Sends sent s.link s'.link ∧
      Turn.Attends s.devices queries ⟨.ok polled, sent, s'.devices⟩ left ∧ s'.Receiving left ∧
      load left s'.journal.now s' ≤ load queries s.journal.now s ∧
        (queries ≠ [] → 0 < v.pause + v.timeout →
          load left s'.journal.now s' < load queries s.journal.now s) := by
  let l : Link := { s.link with journal := s.link.journal.sleep v.pause }
  have hsends : Link.Sends [] s.link l := ⟨rfl, rfl, [], (List.append_nil _).symm, rfl⟩
  have haging : s.link.Aging l := Nat.le_add_right _ _
  have hl := h.withLink (List.Subset.refl _) hsends.framing (h.carries.later hsends rfl rfl haging)
  obtain ⟨polled, s', sent, left, hpoll, hsent, hattends, hreceiving, hload⟩ :=
    poll_of_receiving hl v.timeout
  have hsleep : onLink (Link.sleep v.pause) s = .ok ⟨⟩ { s with link := l } := rfl
  obtain ⟨hle, hlt⟩ := hload s.journal.now haging
  refine ⟨polled, s', sent, left, ?_, hsends.trans hsent, hattends, hreceiving, hle,
    fun hqueries htime => hlt hqueries ?_⟩
  · rw [visit, run_bind hsleep, hpoll]
  · show s.link.journal.now < s.link.journal.now + v.pause + v.timeout
    omega

/-! ### Any number of turns -/

theorem visits_cons {v : Visit} {polled : Polled} {sent : List (List UInt8)}
    (h : visit v s = .ok polled s') (hsends : Link.Sends sent s.link s'.link) (vs : List Visit) :
    visits (v :: vs) s =
      (⟨.ok polled, sent, s'.devices⟩ :: (visits vs s').1, (visits vs s').2) := by
  have hafter : after (visit v) s = s' := by rw [after, h]
  have hresult : resultOf (visit v) s = .ok polled := by rw [resultOf, h]
  have hsent : Pair.sentBytes (Pair.since s'.journal s.journal.entries.length) = sent :=
    hsends.since
  simp only [visits, turn, hafter, hresult, hsent]

/-- Requests are attended to in order as long as the server is polled, and none is left once as many
polls have taken time as there were milliseconds and requests to come. -/
theorem exists_attendAll (h : s.Receiving queries) (vs : List Visit) :
    ∃ left, Turn.AttendAll s.devices queries (visits vs s).1 left ∧
      (visits vs s).2.Receiving left ∧
      (queries = [] ∨ load queries s.journal.now s ≤ vs.countP Visit.takesTime → left = []) := by
  induction vs generalizing s queries with
  | nil =>
    refine ⟨queries, .nil s.devices queries, h, fun hdone => ?_⟩
    rcases hdone with hnone | hload
    · exact hnone
    · rw [List.countP_nil, load] at hload
      exact List.eq_nil_of_length_eq_zero (by omega)
  | cons v vs ih =>
    obtain ⟨polled, s', sent, left, hvisit, hsends, hattends, hreceiving, hle, hlt⟩ :=
      visit_of_receiving h v
    obtain ⟨last, hattendAll, hlast, hrest⟩ := ih hreceiving
    rw [visits_cons hvisit hsends]
    refine ⟨last, .cons hattends hattendAll, hlast, fun hdone => hrest ?_⟩
    by_cases hnone : queries = []
    · rw [hnone] at hattends
      exact .inl hattends.eq_nil
    · have hload := hdone.resolve_left hnone
      rw [List.countP_cons] at hload
      by_cases htime : v.takesTime = true
      · have hless := hlt hnone (of_decide_eq_true htime)
        rw [if_pos htime] at hload
        exact .inr (by omega)
      · rw [if_neg htime] at hload
        exact .inr (Nat.le_trans hle hload)

/-! ### Turns on a clock -/

section

variable {v : Visit} {vs : List Visit} {horizon longest t : Nat} {ids : ClientId → Prop}

theorem extending_visit (v : Visit) : Within Extending (visit v) :=
  .bind (spans_extending.sleep v.pause) fun _ => within_poll spans_extending v.timeout

theorem extending_visits (vs : List Visit) (s : Server) : Extending s (visits vs s).2 := by
  induction vs generalizing s with
  | nil => exact refl s
  | cons v vs ih => exact IsTrans.trans _ _ _ (extending_visit v s) (ih (after (visit v) s))

theorem scheduling_visit (hv : v.timeout ≤ longest) :
    Within (Scheduling longest ids) (visit v) :=
  .bind (scheduling_onLink (Link.expecting_sleep v.pause)) fun _ => scheduling_poll hv

theorem scheduling_visits (hvs : ∀ v ∈ vs, v.timeout ≤ longest) (s : Server) :
    Scheduling longest ids s (visits vs s).2 := by
  induction vs generalizing s with
  | nil => exact refl s
  | cons v vs ih =>
    obtain ⟨hv, hrest⟩ := List.forall_mem_cons.mp hvs
    exact IsTrans.trans _ _ _ (scheduling_visit hv s) (ih hrest (after (visit v) s))

theorem visitDeadlines_nil (s : Server) : s.visitDeadlines [] = [] :=
  List.drop_length

theorem visitDeadlines_cons (v : Visit) (vs : List Visit) (s : Server) :
    s.visitDeadlines (v :: vs) = s.journal.setSince (after (visit v) s).journal ++
      (after (visit v) s).visitDeadlines vs :=
  (extending_visit v s).setSince_append (extending_visits vs (after (visit v) s))

/-- On a clock that can tell all deadlines everything goes on. -/
theorem visitsOn_of_forall_le (h : ∀ t ∈ s.visitDeadlines vs, t ≤ horizon) :
    visitsOn horizon vs s = ((visits vs s).1, .ok (visits vs s).2) := by
  induction vs generalizing s with
  | nil => rfl
  | cons v vs ih =>
    rw [visitDeadlines_cons, List.forall_mem_append] at h
    rw [visitsOn, Clock.run_of_forall_le h.1]
    simp only [ih h.2, visits]

/-- Otherwise the first poll that sets a deadline too late for the clock is the end. -/
theorem exists_visitsOn_of_lt (ht : t ∈ s.visitDeadlines vs) (hlate : horizon < t) :
    ∃ n < vs.length,
      visitsOn horizon vs s = ((visits (vs.take n) s).1, .error .overflow) ∧
      (∀ t ∈ s.visitDeadlines (vs.take n), t ≤ horizon) ∧
      ∃ t ∈ s.visitDeadlines (vs.take (n + 1)), horizon < t := by
  induction vs generalizing s with
  | nil =>
    rw [visitDeadlines_nil] at ht
    cases ht
  | cons v vs ih =>
    rw [visitDeadlines_cons, List.mem_append] at ht
    by_cases hfirst : ∀ t ∈ s.journal.setSince (after (visit v) s).journal, t ≤ horizon
    · have hrest := ht.resolve_left fun ht => Nat.not_lt.mpr (hfirst t ht) hlate
      obtain ⟨n, hn, hvisits, hearly, t', ht', hlate'⟩ := ih hrest
      refine ⟨n + 1, Nat.succ_lt_succ hn, ?_, ?_, t', ?_, hlate'⟩
      · rw [visitsOn, Clock.run_of_forall_le hfirst]
        simp only [hvisits, List.take_succ_cons, visits]
      · rw [List.take_succ_cons, visitDeadlines_cons, List.forall_mem_append]
        exact ⟨hfirst, hearly⟩
      · rw [List.take_succ_cons, visitDeadlines_cons]
        exact List.mem_append_right _ ht'
    · obtain ⟨t', ht', hlate'⟩ : ∃ t' ∈ s.journal.setSince (after (visit v) s).journal,
          horizon < t' := by
        simpa using hfirst
      refine ⟨0, Nat.succ_pos _, ?_, ?_, t', ?_, hlate'⟩
      · rw [visitsOn, Clock.run_of_lt ht' hlate']
        rfl
      · rw [List.take_zero, visitDeadlines_nil]
        nofun
      · rw [List.take_succ_cons, List.take_zero, visitDeadlines_cons]
        exact List.mem_append_left _ ht'

end

/-- Each poll of a server works out how long the first bytes of a request may take. -/
theorem mem_visitDeadlines (h : s.Receiving queries) (before : List Visit) (v : Visit)
    (later : List Visit) :
    (visits before s).2.journal.now + v.pause + v.timeout ∈
      s.visitDeadlines (before ++ v :: later) := by
  induction before generalizing s queries with
  | nil =>
    rw [List.nil_append, visitDeadlines_cons]
    refine List.mem_append_left _ ?_
    exact mem_deadlines (s := { s with link.journal := s.link.journal.sleep v.pause }) h.isOpen
      h.carries.isConnected v.timeout
  | cons u before ih =>
    obtain ⟨polled, s', sent, left, hvisit, -, -, hreceiving, -⟩ := visit_of_receiving h u
    have hafter : after (visit u) s = s' := by rw [after, hvisit]
    rw [List.cons_append, visitDeadlines_cons, visits, hafter]
    exact List.mem_append_right _ (ih hreceiving)

/-- Polls of a server on a clock. If it can tell all their deadlines, they come to what they come to
anyway, and otherwise to as much of it as there is before the first poll that overflows. -/
structure KeepsTime (vs : List Visit) (s : Server) : Prop where
  inTime : ∀ horizon, (∀ t ∈ s.visitDeadlines vs, t ≤ horizon) →
    visitsOn horizon vs s = ((visits vs s).1, .ok (visits vs s).2)
  overflows : ∀ horizon, ∀ t ∈ s.visitDeadlines vs, horizon < t → ∃ n < vs.length,
    visitsOn horizon vs s = ((visits (vs.take n) s).1, .error .overflow) ∧
    (∀ t ∈ s.visitDeadlines (vs.take n), t ≤ horizon) ∧
    ∃ t ∈ s.visitDeadlines (vs.take (n + 1)), horizon < t
  /-- The time until which each poll may wait for a request is one of the deadlines. -/
  due : ∀ before v later, vs = before ++ v :: later →
    (visits before s).2.journal.now + v.pause + v.timeout ∈ s.visitDeadlines vs
  /-- A clock that goes on after the last poll for the longest wait can tell the deadlines. -/
  near : ∀ longest, s.settings.byteTimeout ≤ longest → (∀ v ∈ vs, v.timeout ≤ longest) →
    ∀ t ∈ s.visitDeadlines vs, t ≤ (visits vs s).2.journal.now + longest

theorem keepsTime_of_receiving (h : s.Receiving queries) (vs : List Visit) : s.KeepsTime vs := by
  refine ⟨fun _ => visitsOn_of_forall_le, fun _ _ => exists_visitsOn_of_lt, ?_, ?_⟩
  · rintro before v later rfl
    exact mem_visitDeadlines h before v later
  · intro longest hbyteTimeout hvs
    have hbounded : s.Bounded longest fun _ => False := by
      refine ⟨hbyteTimeout, fun d hd id hid => ?_, fun _ => False.elim⟩
      rw [(h.devices d hd).1.forwardsTo] at hid
      cases hid
    exact (scheduling_visits hvs s hbounded).2.forall_le

/-- A server whose link carries requests for its devices in time attends to them in order, however
often and however long it is polled: each is answered once, by the device that it is for, each
damaged frame is discarded by one poll, and nothing else is sent or changed. All of them have been
attended to once enough polls have taken time. A clock ends this just where a poll sets a deadline
that it cannot tell. -/
theorem attendAll_of_receiving (h : s.Receiving queries) :
    (∀ vs, ∃ left, Turn.AttendAll s.devices queries (visits vs s).1 left ∧
      (visits vs s).2.Receiving left) ∧
    (∃ n, ∀ vs : List Visit, n ≤ vs.countP Visit.takesTime →
      Turn.AttendAll s.devices queries (visits vs s).1 []) ∧
    ∀ vs, s.KeepsTime vs := by
  refine ⟨fun vs => ?_, ?_, keepsTime_of_receiving h⟩
  · obtain ⟨left, hattendAll, hreceiving, -⟩ := exists_attendAll h vs
    exact ⟨left, hattendAll, hreceiving⟩
  · refine ⟨load queries s.journal.now s, fun vs hload => ?_⟩
    obtain ⟨left, hattendAll, -, hdone⟩ := exists_attendAll h vs
    rw [hdone (.inr hload)] at hattendAll
    exact hattendAll

/-- Three frames on a serial line, of which the second has been damaged, come in three reads, none of
which ends where a frame ends. -/
theorem attendAll_of_receiving_damaged :
    let sent : List UInt8 := [1, 6, 0, 10, 0, 5, 105, 203]
    let damaged : List UInt8 := [1, 6, 0, 10, 1, 7, 105, 203]
    let asked : List UInt8 := [1, 3, 0, 9, 0, 2, 20, 9]
    let write := Request.writeSingleRegister 10 5
    let read := Request.readHoldingRegisters 9 2
    let queries : List Query := [⟨.rtu ⟨1⟩, write.function.code, write.payload, none⟩,
      ⟨.rtu ⟨1⟩, write.function.code, write.payload, some damaged⟩,
      ⟨.rtu ⟨1⟩, read.function.code, read.payload, none⟩]
    let wire := { Wire.quiet "server" with
      arrivals := [.pause 200, .bytes (sent.take 3), .pause 40,
        .bytes (sent.drop 3 ++ damaged ++ asked.take 1), .pause 50, .bytes (asked.drop 1)] }
    let s : Server :=
      { link := ⟨⟨.attached .rtu false, wire⟩, some ⟨.server .rtu, [], .inProcess, false⟩, .start⟩
        settings := { LinkSettings.standard with byteTimeout := 50 }
        devices := [(Device.ofId ⟨1⟩).declare .holdingRegister 2 10], clients := [], isOpen := true }
    let vs := List.replicate 5 ⟨10, 100⟩
    let turns := (visits vs s).1
    s.Receiving queries ∧ turns.map (·.sent) =
      [[], [[1, 6, 0, 10, 0, 5, 105, 203]], [], [[1, 3, 4, 0, 0, 0, 5, 58, 48]], []] ∧
      (∃ left, Turn.AttendAll s.devices queries turns left) ∧
      (∃ n, ∀ vs : List Visit, n ≤ vs.countP Visit.takesTime →
        Turn.AttendAll s.devices queries (visits vs s).1 []) ∧
      visitsOn 550 vs s = (turns, .ok (visits vs s).2) := by
  intro sent damaged asked write read queries wire s vs turns
  have hbytes : queries.map Query.bytes = [sent, damaged, asked] := by decide +kernel
  have hsound : ∀ (r : Request) bytes, none = some bytes → s.framing = .rtu ∧
      Rtu.Damages r.function.code ((Header.rtu ⟨1⟩).frame .request r.pdu).adu bytes := by
    rintro r bytes ⟨⟩
  have hdamaged : ∀ bytes, some damaged = some bytes → s.framing = .rtu ∧
      Rtu.Damages write.function.code ((Header.rtu ⟨1⟩).frame .request write.pdu).adu bytes := by
    rintro bytes ⟨⟩
    have hframe : ((Header.rtu ⟨1⟩).frame .request write.pdu).adu = sent := by decide +kernel
    rw [hframe]
    exact ⟨rfl, ⟨[1, 6, 0, 10], 0, 5, 1, 7, [105, 203], rfl, rfl⟩, by decide, rfl, by decide⟩
  have hreceiving : s.Receiving queries := by
    refine ⟨rfl, ?_, ?_, ⟨fun _ => rfl, _, rfl, rfl, ?_⟩⟩
    · intro d hd
      rw [List.mem_singleton.mp hd]
      exact ⟨by decide, rfl⟩
    · simp only [queries, List.forall_mem_cons]
      exact ⟨.of_request rfl rfl trivial (by decide) (hsound write),
        .of_request rfl rfl trivial (by decide) hdamaged,
        .of_request rfl rfl trivial (by decide) (hsound read), by simp⟩
    · rw [hbytes]
      exact ⟨by decide, .inl ⟨0, rfl⟩, by decide, .inr (by decide), by decide, .inr (by decide), rfl⟩
  obtain ⟨hall, hdone, htime⟩ := attendAll_of_receiving hreceiving
  obtain ⟨left, hleft, -⟩ := hall vs
  exact ⟨hreceiving, by decide +kernel, ⟨left, hleft⟩, hdone,
    (htime vs).inTime 550 (by decide +kernel)⟩

/-- A request has come, but the poll that it waits for may wait longer than the clock goes on. The
request is not attended to. -/
theorem visitsOn_longest :
    let read := Request.readHoldingRegisters 9 2
    let queries : List Query := [⟨.rtu ⟨1⟩, read.function.code, read.payload, none⟩]
    let wire := { Wire.quiet "server" with arrivals := [.bytes [1, 3, 0, 9, 0, 2, 20, 9]] }
    let s : Server :=
      { link := ⟨⟨.attached .rtu false, wire⟩, some ⟨.server .rtu, [], .inProcess, false⟩, .start⟩
        settings := .standard
        devices := [(Device.ofId ⟨1⟩).declare .holdingRegister 2 10], clients := [], isOpen := true }
    s.Receiving queries ∧
      visitsOn Clock.lastTime [⟨0, Clock.longest⟩] s = ([], .error .overflow) := by
  intro read queries wire s
  have hbytes : queries.map Query.bytes = [[1, 3, 0, 9, 0, 2, 20, 9]] := by decide +kernel
  have hreceiving : s.Receiving queries := by
    refine ⟨rfl, fun d hd => ?_, fun q hq => ?_, ⟨fun _ => rfl, _, rfl, rfl, ?_⟩⟩
    · rw [List.mem_singleton.mp hd]
      exact ⟨by decide, rfl⟩
    · rw [List.mem_singleton.mp hq]
      exact .of_request rfl rfl trivial (by decide) (by rintro damaged ⟨⟩)
    · rw [hbytes]
      exact ⟨by decide, .inl ⟨0, rfl⟩, rfl⟩
  have hlate : Clock.lastTime < Clock.longest := by decide +kernel
  refine ⟨hreceiving, ?_⟩
  generalize Clock.longest = timeout at hlate ⊢
  obtain ⟨n, hn, hvisits, -⟩ := exists_visitsOn_of_lt
    (mem_visitDeadlines hreceiving [] ⟨0, timeout⟩ [])
    (Nat.lt_of_lt_of_le hlate (Nat.le_add_left timeout _))
  rw [Nat.lt_one_iff.mp hn] at hvisits
  exact hvisits

end Server

end Modbus

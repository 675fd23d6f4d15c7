import Modbus.Proofs.Frame.Damage
import Modbus.Proofs.Link.Unread

/-! Frames that arrive in time, one after the other. However they are divided into reads, as long as
no gap inside a frame is longer than the byte timeout, each wait takes the first frame that is left,
or ends between two frames. -/

namespace Modbus

open Arrival (content)

/-- What has come of the frames ends where one of them ends. -/
def Whole (frames : List (List UInt8)) (seen : List UInt8) : Prop :=
  ∃ n, seen = (frames.take n).flatten

/-- The arrivals bring the rest of the frames, of which `seen` has come, the last of it at the time
`since`. Inside a frame no more than `byteTimeout` milliseconds pass from one read to the next,
between two frames any time. -/
def Timely (byteTimeout : Nat) (frames : List (List UInt8)) :
    List UInt8 → Nat → Nat → List Arrival → Prop
  | seen, _, _, [] => seen = frames.flatten
  | seen, since, now, .pause ms :: rest => Timely byteTimeout frames seen since (now + ms) rest
  | seen, since, now, .until t :: rest => Timely byteTimeout frames seen since (max now t) rest
  | _, _, _, .failure _ :: _ => False
  | seen, since, now, .bytes group :: rest =>
    group ≠ [] ∧ (Whole frames seen ∨ now ≤ since + byteTimeout) ∧
      Timely byteTimeout frames (seen ++ group) now now rest

section

variable {byteTimeout : Nat} {bytes : List UInt8} {frames : List (List UInt8)}

theorem whole_cons_append {seen : List UInt8} (h : Whole (bytes :: frames) (bytes ++ seen)) :
    Whole frames seen := by
  obtain ⟨n, hn⟩ := h
  cases n with
  | zero =>
    rw [List.take_zero, List.flatten_nil] at hn
    exact ⟨0, (List.append_eq_nil_iff.mp hn).2⟩
  | succ n =>
    rw [List.take_succ_cons, List.flatten_cons] at hn
    exact ⟨n, List.append_cancel_left hn⟩

namespace Timely

variable {seen : List UInt8} {since now : Nat} {arrivals : List Arrival}

/-- The arrivals bring what has not come yet, and nothing else. -/
theorem append_content (h : Timely byteTimeout frames seen since now arrivals) :
    seen ++ content arrivals = frames.flatten := by
  induction arrivals generalizing seen since now with
  | nil =>
    rw [content, List.append_nil]
    exact h
  | cons arrival rest ih =>
    cases arrival with
    | pause ms => exact ih h
    | «until» t => exact ih h
    | failure kind => exact h.elim
    | bytes group =>
      rw [content, ← List.append_assoc]
      exact ih h.2.2

/-- After the first frame has been taken, the others still arrive in time. -/
theorem tail (h : Timely byteTimeout (bytes :: frames) (bytes ++ seen) since now arrivals) :
    Timely byteTimeout frames seen since now arrivals := by
  induction arrivals generalizing seen since now with
  | nil =>
    rw [Timely, List.flatten_cons] at h
    exact List.append_cancel_left h
  | cons arrival rest ih =>
    cases arrival with
    | pause ms => exact ih h
    | «until» t => exact ih h
    | failure kind => exact h.elim
    | bytes group =>
      obtain ⟨hgroup, hgap, hrest⟩ := h
      rw [List.append_assoc] at hrest
      exact ⟨hgroup, hgap.imp_left whole_cons_append, ih hrest⟩

/-- If what has come so far is looked at later, the rest is still in time. -/
theorem later {since' now' : Nat} (h : Timely byteTimeout frames seen since now arrivals)
    (hsince : since ≤ since') (hnow : now ≤ now') (hgap : now' + since ≤ now + since') :
    Timely byteTimeout frames seen since' now' arrivals := by
  induction arrivals generalizing seen since now since' now' with
  | nil => exact h
  | cons arrival rest ih =>
    cases arrival with
    | pause ms =>
      refine ih h hsince ?_ ?_
      all_goals omega
    | «until» t =>
      refine ih h hsince ?_ ?_
      all_goals omega
    | failure kind => exact h.elim
    | bytes group =>
      obtain ⟨hgroup, hin, hrest⟩ := h
      refine ⟨hgroup, hin.imp_right fun hle => ?_, ih hrest hnow hnow (Nat.le_of_eq ?_)⟩
      · omega
      · exact Nat.add_comm now' now

/-- Inside a frame the next bytes are due. -/
theorem le_of_not_whole (h : Timely byteTimeout frames seen since now arrivals)
    (hseen : ¬ Whole frames seen) : now ≤ since + byteTimeout := by
  induction arrivals generalizing now with
  | nil =>
    refine (hseen ⟨frames.length, ?_⟩).elim
    rw [List.take_length]
    exact h
  | cons arrival rest ih =>
    cases arrival with
    | pause ms => exact Nat.le_trans (Nat.le_add_right now ms) (ih h)
    | «until» t => exact Nat.le_trans (Nat.le_max_left now t) (ih h)
    | failure kind => exact h.elim
    | bytes group => exact h.2.1.resolve_left hseen

end Timely

end

/-! ### Waiting for a frame -/

namespace FrameCodec

variable {codec : FrameCodec} {frames : List (List UInt8)} {buffer : List UInt8}
  (hyields : ∀ bytes ∈ frames, ∃ result, codec.Yields bytes result)
include hyields

/-- If nothing is found at the front of what has come of the frames, then it ends inside one. -/
theorem eq_nil_of_whole (hsplit : codec.split buffer = .incomplete) (h : Whole frames buffer) :
    buffer = [] := by
  obtain ⟨n, rfl⟩ := h
  cases n with
  | zero => rfl
  | succ n =>
    cases frames with
    | nil => rfl
    | cons bytes frames =>
      obtain ⟨result, hresult⟩ := hyields bytes List.mem_cons_self
      rw [List.take_succ_cons, List.flatten_cons] at hsplit
      have hwhole := hresult.whole (frames.take n).flatten
      rw [hsplit] at hwhole
      cases hwhole

/-- What has come of the frames is a part of the first one, or begins with it. -/
theorem split_of_append_eq {more : List UInt8} (h : buffer ++ more = frames.flatten) :
    codec.split buffer = .incomplete ∨ ∃ bytes later left result, frames = bytes :: later ∧
      buffer = bytes ++ left ∧ codec.Yields bytes result := by
  cases frames with
  | nil =>
    rw [List.flatten_nil, List.append_eq_nil_iff] at h
    rw [h.1]
    exact .inl codec.split_nil
  | cons bytes later =>
    obtain ⟨result, hresult⟩ := hyields bytes List.mem_cons_self
    rw [List.flatten_cons] at h
    rcases List.append_eq_append_iff.mp h with ⟨rest, hbytes, -⟩ | ⟨left, hbuffer, -⟩
    · by_cases hpart : buffer = bytes
      · exact .inr ⟨bytes, later, [], result, rfl, by rw [hpart, List.append_nil], hresult⟩
      · exact .inl (hresult.part buffer (hbytes ▸ List.prefix_append _ _) hpart)
    · exact .inr ⟨bytes, later, left, result, rfl, hbuffer, hresult⟩

end FrameCodec

/-- What comes of waiting for the first of the frames, where `idle` says whether it may be that none
has begun. The first one is taken, or none until the deadline; the others still arrive in time. -/
inductive Received.Progress (codec : FrameCodec) (byteTimeout deadline : Nat) (idle : Prop) :
    List (List UInt8) → Received → Prop where
  | waits {frames : List (List UInt8)} {arrivals : List Arrival} {deadlines : List Nat} :
    idle → Timely byteTimeout frames [] deadline deadline arrivals →
      Progress codec byteTimeout deadline idle frames
        ⟨.error .timeout, [], deadline, arrivals, deadlines⟩
  | takes {bytes : List UInt8} {later : List (List UInt8)} {r : Received} :
    codec.Yields bytes r.result → Timely byteTimeout later r.buffer r.now r.now r.arrivals →
      Progress codec byteTimeout deadline idle (bytes :: later) r

namespace Received

variable {codec : FrameCodec} {byteTimeout deadline since now : Nat} {frames : List (List UInt8)}
  {buffer : List UInt8} {arrivals : List Arrival}

/-- The deadline of a frame that has begun is not passed before more of the frame comes. -/
theorem eq_nil_of_late {t : Nat} (hyields : ∀ bytes ∈ frames, ∃ result, codec.Yields bytes result)
    (h : Timely byteTimeout frames buffer since t arrivals)
    (hsplit : codec.split buffer = .incomplete)
    (hdeadline : buffer ≠ [] → since + byteTimeout ≤ deadline) (ht : deadline < t) :
    buffer = [] := by
  by_contra hbuffer
  have hwhole : ¬ Whole frames buffer := fun hwhole =>
    hbuffer (FrameCodec.eq_nil_of_whole hyields hsplit hwhole)
  have hdue := h.le_of_not_whole hwhole
  have hin := hdeadline hbuffer
  omega

namespace Progress

variable {idle idle' : Prop} {r : Received}

/-- The deadline does not matter once a frame has begun. -/
theorem of_not {deadline' : Nat} (h : Progress codec byteTimeout deadline' idle frames r)
    (hidle : ¬ idle) : Progress codec byteTimeout deadline idle' frames r := by
  cases h with
  | waits h htimely => exact (hidle h).elim
  | takes hresult htimely => exact .takes hresult htimely

theorem setting (h : Progress codec byteTimeout deadline idle frames r) (t : Nat) :
    Progress codec byteTimeout deadline idle frames (r.setting t) := by
  cases h with
  | waits h htimely => exact .waits h htimely
  | takes hresult htimely => exact .takes hresult htimely

/-- A wait that ends when nothing has begun leaves what is to come in time. -/
theorem of_late {t : Nat} (hidle : idle) (h : Timely byteTimeout frames [] since t arrivals)
    (hsince : since ≤ deadline) (ht : deadline < t) :
    Progress codec byteTimeout deadline idle frames
      ⟨.error .timeout, [], deadline, .until t :: arrivals, []⟩ := by
  have hmax : max deadline t = t := Nat.max_eq_right (Nat.le_of_lt ht)
  refine .waits hidle ?_
  rw [Timely, hmax]
  exact h.later hsince (Nat.le_refl t) (by omega)

end Progress

theorem progress_await (hyields : ∀ bytes ∈ frames, ∃ result, codec.Yields bytes result)
    (h : Timely byteTimeout frames buffer since now arrivals)
    (hsplit : codec.split buffer = .incomplete) (hsince : since ≤ now) (hnow : now ≤ deadline)
    (hdeadline : buffer ≠ [] → since + byteTimeout ≤ deadline) :
    Progress codec byteTimeout deadline (buffer = []) frames
      (await codec byteTimeout deadline buffer now arrivals) := by
  have hmax : max now deadline = deadline := Nat.max_eq_right hnow
  induction arrivals generalizing buffer since now deadline with
  | nil =>
    have hwhole : Whole frames buffer := ⟨frames.length, by rw [List.take_length]; exact h⟩
    have hbuffer := FrameCodec.eq_nil_of_whole hyields hsplit hwhole
    rw [await, hmax]
    exact .waits hbuffer (hbuffer.symm.trans h)
  | cons arrival rest ih =>
    cases arrival with
    | pause ms =>
      rw [await]
      split
      · rename_i hin
        exact ih h hsplit (Nat.le_trans hsince (Nat.le_add_right now ms)) hin hdeadline
          (Nat.max_eq_right hin)
      · rename_i hlate
        have ht : deadline < now + ms := Nat.lt_of_not_le hlate
        have hrest : Timely byteTimeout frames buffer since (now + ms) rest := h
        have hbuffer := eq_nil_of_late hyields hrest hsplit hdeadline ht
        rw [hbuffer] at hrest
        rw [hmax]
        exact .of_late hbuffer hrest (Nat.le_trans hsince hnow) ht
    | «until» t =>
      rw [await, hmax]
      split
      · rename_i hin
        have hnow' : max now t ≤ deadline := Nat.max_le.mpr ⟨hnow, hin⟩
        exact ih h hsplit (Nat.le_trans hsince (Nat.le_max_left now t)) hnow' hdeadline
          (Nat.max_eq_right hnow')
      · rename_i hlate
        have ht : deadline < t := Nat.lt_of_not_le hlate
        have hmax' : max now t = t := Nat.max_eq_right (Nat.le_trans hnow (Nat.le_of_lt ht))
        rw [Timely, hmax'] at h
        have hbuffer := eq_nil_of_late hyields h hsplit hdeadline ht
        rw [hbuffer] at h
        exact .of_late hbuffer h (Nat.le_trans hsince hnow) ht
    | failure kind => exact h.elim
    | bytes group =>
      obtain ⟨hgroup, -, hrest⟩ := h
      obtain ⟨b, bs, rfl⟩ := List.exists_cons_of_ne_nil hgroup
      have hbegun : ¬ buffer ++ b :: bs = [] := by simp
      rw [await]
      rcases FrameCodec.split_of_append_eq hyields hrest.append_content with
        hpart | ⟨bytes, later, left, result, rfl, hbuffer, hresult⟩
      · rw [hpart]
        have hprogress := ih hrest hpart (Nat.le_refl now) (Nat.le_add_right now byteTimeout)
          (fun _ => Nat.le_refl _) (Nat.max_eq_right (Nat.le_add_right now byteTimeout))
        exact (hprogress.of_not hbegun).setting _
      · rw [hbuffer] at hrest ⊢
        rw [hresult.whole left]
        exact .takes hresult hrest.tail

/-- What comes of looking for the first of the frames in what has come of them, and of waiting for
it if it is not there. -/
theorem progress_start {timeout : Nat}
    (hyields : ∀ bytes ∈ frames, ∃ result, codec.Yields bytes result)
    (h : Timely byteTimeout frames buffer now now arrivals) :
    Progress codec byteTimeout (now + timeout) (buffer = []) frames
      (start codec timeout byteTimeout buffer now arrivals) := by
  rw [start]
  rcases FrameCodec.split_of_append_eq hyields h.append_content with
    hpart | ⟨bytes, later, left, result, rfl, hbuffer, hresult⟩
  · rw [hpart, Split.outcome?]
    dsimp only
    by_cases hbuffer : buffer = []
    · have hempty : buffer.isEmpty = true := List.isEmpty_iff.mpr hbuffer
      rw [if_pos hempty]
      have hprogress := progress_await hyields h hpart (Nat.le_refl now)
        (Nat.le_add_right now timeout) fun hne => (hne hbuffer).elim
      exact (hprogress.setting _).setting _
    · have hempty : ¬ buffer.isEmpty = true := fun hempty => hbuffer (List.isEmpty_iff.mp hempty)
      rw [if_neg hempty]
      have hprogress := progress_await hyields h hpart (Nat.le_refl now)
        (Nat.le_add_right now byteTimeout) fun _ => Nat.le_refl _
      exact ((hprogress.of_not hbuffer).setting _).setting _
  · rw [hbuffer] at h ⊢
    rw [hresult.whole left]
    exact .takes hresult h.tail

end Received

/-! ### Time that a wait uses up -/

/-- How long the arrivals take, looked at from the time `now` on. A pause counts for one more, since
it begins only when it is found. -/
def Arrival.span : Nat → List Arrival → Nat
  | _, [] => 0
  | now, .pause ms :: rest => ms + 1 + span (now + ms) rest
  | now, .until t :: rest => t - now + span (max now t) rest
  | now, _ :: rest => span now rest

open Arrival (span)

/-- Arrivals that are looked at later take no longer. -/
theorem Arrival.span_le {now now' : Nat} (h : now ≤ now') (arrivals : List Arrival) :
    span now' arrivals ≤ span now arrivals := by
  induction arrivals generalizing now now' with
  | nil => exact Nat.le_refl 0
  | cons arrival rest ih =>
    cases arrival with
    | pause ms => exact Nat.add_le_add_left (ih (Nat.add_le_add_right h ms)) (ms + 1)
    | «until» t =>
      have hrest := ih (show max now t ≤ max now' t by omega)
      simp only [span]
      omega
    | failure kind => exact ih h
    | bytes group => exact ih h

namespace Received

/-- A wait that began after `before` leaves arrivals that take no longer, and less long if the time
has passed while nothing came. -/
structure Advances (before : Nat) (arrivals : List Arrival) (r : Received) : Prop where
  le : span r.now r.arrivals ≤ span before arrivals
  lt : r.result = .error .timeout → r.arrivals ≠ [] → before < r.now →
    span r.now r.arrivals < span before arrivals

variable {codec : FrameCodec} {byteTimeout deadline before now : Nat} {buffer : List UInt8}

theorem advances_of_result {result : Except Error Message} {left : List UInt8}
    {arrivals rest : List Arrival} {deadlines : List Nat} (hresult : result ≠ .error .timeout)
    (h : span now rest ≤ span before arrivals) :
    Advances before arrivals ⟨result, left, now, rest, deadlines⟩ :=
  ⟨h, fun htimeout => (hresult htimeout).elim⟩

theorem Advances.setting {arrivals : List Arrival} {r : Received} (h : Advances before arrivals r)
    (t : Nat) : Advances before arrivals (r.setting t) :=
  ⟨h.le, h.lt⟩

theorem advances_await (h : before ≤ now) (arrivals : List Arrival) :
    Advances before arrivals (await codec byteTimeout deadline buffer now arrivals) := by
  induction arrivals generalizing buffer deadline before now with
  | nil => exact ⟨Nat.le_refl 0, fun _ hne => (hne rfl).elim⟩
  | cons arrival rest ih =>
    cases arrival with
    | pause ms =>
      rw [await]
      split
      · have hrest : Advances (now + ms) rest
            (await codec byteTimeout deadline buffer (now + ms) rest) := ih (Nat.le_refl _)
        have hle := hrest.le
        have hstart := Arrival.span_le (Nat.add_le_add_right h ms) rest
        constructor
        all_goals
          simp only [span]
          omega
      · have hle : before + ms ≤ max (max now deadline) (now + ms) := by omega
        have hstart := Arrival.span_le hle rest
        constructor
        all_goals
          simp only [span]
          omega
    | «until» t =>
      rw [await]
      split
      · have hnow : max before t ≤ max now t := by omega
        have hrest : Advances (max before t) rest
            (await codec byteTimeout deadline buffer (max now t) rest) := ih hnow
        have hle := hrest.le
        refine ⟨Nat.le_trans hle (Nat.le_add_left _ (t - before)), fun htimeout hne hpast => ?_⟩
        have hlt := hrest.lt htimeout hne
        rw [span]
        omega
      · have hle : max before t ≤ max (max now deadline) t := by omega
        have hstart := Arrival.span_le hle rest
        constructor
        all_goals
          simp only [span]
          omega
    | failure kind =>
      rw [await]
      exact advances_of_result (by simp) (Arrival.span_le h rest)
    | bytes group =>
      rcases group with _ | ⟨b, bs⟩
      · rw [await]
        exact advances_of_result (by simp) (Arrival.span_le h rest)
      · rw [await]
        split
        · rename_i houtcome
          exact advances_of_result (Split.ne_timeout_of_outcome? houtcome) (Arrival.span_le h rest)
        · obtain ⟨hle, hlt⟩ := ih h
          exact ⟨hle, hlt⟩

theorem advances_start {timeout : Nat} (h : before ≤ now) (arrivals : List Arrival) :
    Advances before arrivals (start codec timeout byteTimeout buffer now arrivals) := by
  rw [start]
  split
  · rename_i houtcome
    exact advances_of_result (Split.ne_timeout_of_outcome? houtcome) (Arrival.span_le h arrivals)
  · exact ((advances_await h arrivals).setting _).setting _

end Received

/-! ### Streams -/

/-- Time may have passed. -/
def Link.Aging (l l' : Link) : Prop := l.journal.now ≤ l'.journal.now

instance : IsPreorder Link Link.Aging where
  refl _ := Nat.le_refl _
  trans _ _ _ h h' := Nat.le_trans h h'

namespace Link

variable {l l' : Link} {byteTimeout : Nat} {frames : List (List UInt8)}

theorem aging_send (message : Message) : Within Aging (send message) :=
  within_send (within_attempt fun _ _ => Nat.le_refl _) (fun _ _ => Nat.le_refl _)
    (fun _ => .modify fun _ => Nat.le_add_right _ _) message

/-- A stream is connected on which nothing fails, and the frames arrive on it in time. -/
structure Carries (byteTimeout : Nat) (frames : List (List UInt8)) (l : Link) : Prop where
  faultless : l.Faultless
  stream : ∃ c, l.channel = some c ∧ c.codec = .server l.framing ∧
    Timely byteTimeout frames c.buffer l.journal.now l.journal.now l.transport.wire.arrivals

theorem Carries.isConnected (h : l.Carries byteTimeout frames) : l.isConnected = true := by
  obtain ⟨c, hc, -⟩ := h.stream
  rw [Link.isConnected, hc]
  rfl

/-- Work that does not touch the stream leaves the frames on it in time. -/
theorem Carries.later {groups : List (List UInt8)} (h : l.Carries byteTimeout frames)
    (hsends : Sends groups l l') (htransport : l'.transport = l.transport)
    (hchannel : l'.channel = l.channel) (hnow : l.Aging l') : l'.Carries byteTimeout frames := by
  obtain ⟨c, hc, hcodec, htimely⟩ := h.stream
  refine ⟨hsends.faultless h.faultless, c, hchannel.trans hc, ?_, ?_⟩
  · rw [hcodec, hsends.framing]
  · rw [htransport]
    exact htimely.later hnow hnow (Nat.le_of_eq (Nat.add_comm _ _))

/-- How long what is still to arrive takes, looked at from the time `before` on. -/
def span (before : Nat) (l : Link) : Nat := Arrival.span before l.transport.wire.arrivals

/-- What receiving comes to on a stream that carries frames: none has come in time, or the first one
is used up, and the rest of them still arrives in time. -/
inductive Fetches (timeout byteTimeout : Nat) (l l' : Link) : List (List UInt8) → Prop where
  | waits {frames : List (List UInt8)} (hreceive : receive timeout byteTimeout l = .error .timeout l')
    (hcarries : l'.Carries byteTimeout frames)
    (hspan : frames ≠ [] → ∀ before ≤ l.journal.now, before < l.journal.now + timeout →
      l'.span l'.journal.now < l.span before) :
    Fetches timeout byteTimeout l l' frames
  | takes {bytes : List UInt8} {later : List (List UInt8)} {m : Message}
    (hreceive : receive timeout byteTimeout l = .ok m l')
    (hyields : (FrameCodec.server l.framing).Yields bytes (.ok m))
    (hcarries : l'.Carries byteTimeout later) : Fetches timeout byteTimeout l l' (bytes :: later)
  | loses {bytes : List UInt8} {later : List (List UInt8)} {e : Error}
    (hreceive : receive timeout byteTimeout l = .error e l')
    (hyields : (FrameCodec.server l.framing).Yields bytes (.error e))
    (hcarries : l'.Carries byteTimeout later) : Fetches timeout byteTimeout l l' (bytes :: later)

theorem fetches_of_carries (h : l.Carries byteTimeout frames)
    (hyields : ∀ bytes ∈ frames, ∃ result, (FrameCodec.server l.framing).Yields bytes result)
    (timeout : Nat) :
    ∃ l', Fetches timeout byteTimeout l l' frames ∧ Sends [] l l' ∧
      ∀ before ≤ l.journal.now, l'.span l'.journal.now ≤ l.span before := by
  obtain ⟨c, hc, hcodec, htimely⟩ := h.stream
  have hreceive : receive timeout byteTimeout l = _ := receive_eq hc
  have hprogress : Received.Progress c.codec byteTimeout (l.journal.now + timeout) (c.buffer = [])
      frames (Received.start c.codec timeout byteTimeout c.buffer l.journal.now
        l.transport.wire.arrivals) := by
    rw [hcodec]
    exact Received.progress_start hyields htimely
  have hadvances : ∀ before ≤ l.journal.now, Received.Advances before l.transport.wire.arrivals
      (Received.start c.codec timeout byteTimeout c.buffer l.journal.now
        l.transport.wire.arrivals) := fun before hbefore =>
    Received.advances_start hbefore l.transport.wire.arrivals
  generalize Received.start c.codec timeout byteTimeout c.buffer l.journal.now
    l.transport.wire.arrivals = r at hreceive hprogress hadvances
  have hcarries : ∀ later, Timely byteTimeout later r.buffer r.now r.now r.arrivals →
      (l.hasReceived c r).Carries byteTimeout later := fun later hlater =>
    ⟨h.faultless, _, rfl, hcodec, hlater⟩
  refine ⟨l.hasReceived c r, ?_, ⟨rfl, rfl, [], (List.append_nil _).symm, rfl⟩,
    fun before hbefore => (hadvances before hbefore).le⟩
  cases hprogress with
  | waits hidle hlater =>
    refine .waits hreceive (hcarries _ hlater) fun hframes before hbefore hpast => ?_
    refine (hadvances before hbefore).lt rfl ?_ hpast
    -- Frames of which nothing has come are still to arrive.
    rintro rfl
    have hflatten : frames.flatten = [] := hlater.symm
    obtain ⟨bytes, later, rfl⟩ := List.exists_cons_of_ne_nil hframes
    obtain ⟨result, hresult⟩ := hyields bytes List.mem_cons_self
    rw [List.flatten_cons, List.append_eq_nil_iff] at hflatten
    exact hresult.ne_nil hflatten.1
  | takes hresult hlater =>
    rcases hm : r.result with e | m
    · rw [hm] at hresult hreceive
      rw [hcodec] at hresult
      exact .loses hreceive hresult (hcarries _ hlater)
    · rw [hm] at hresult hreceive
      rw [hcodec] at hresult
      exact .takes hreceive hresult (hcarries _ hlater)

end Link

end Modbus

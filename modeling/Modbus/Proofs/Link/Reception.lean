import Modbus.Proofs.Frame.Accounting
import Modbus.Proofs.Link.Unread

/-! What receiving reads, and how it ends. Bytes are read as they come, each time for as long as it
is undecided what those so far are. Few bytes are undecided, so receiving ends after few reads and
in bounded time, whatever the stream does. -/

namespace Modbus

/-! ### What happens next on a stream -/

namespace Arrival

/-- What happens next on a stream that is silent at the time `now`: when it happens, and what comes
after it. On a stream that stays silent nothing does. -/
def next? (now : Nat) : List Arrival → Option (Nat × Arrival × List Arrival)
  | [] => none
  | .pause ms :: rest => next? (now + ms) rest
  | .until t :: rest => next? (max now t) rest
  | arrival :: rest => some (now, arrival, rest)

/-- Nothing happens on the stream up to the time `deadline`. -/
def IsSilent (now deadline : Nat) (arrivals : List Arrival) : Prop :=
  ∀ t arrival rest, next? now arrivals = some (t, arrival, rest) → deadline < t

/-- The groups of bytes that arrive, in order. -/
def groups : List Arrival → List (List UInt8)
  | [] => []
  | .bytes group :: rest => group :: groups rest
  | _ :: rest => groups rest

variable {now t : Nat} {arrival : Arrival} {arrivals rest : List Arrival}

theorem le_of_next? (h : next? now arrivals = some (t, arrival, rest)) : now ≤ t := by
  fun_induction next? now arrivals with
  | case1 => cases h
  | case2 now ms later ih => exact Nat.le_trans (Nat.le_add_right now ms) (ih h)
  | case3 now t' later ih => exact Nat.le_trans (Nat.le_max_left now t') (ih h)
  | case4 => cases h; exact Nat.le_refl _

theorem length_of_next? (h : next? now arrivals = some (t, arrival, rest)) :
    rest.length < arrivals.length := by
  fun_induction next? now arrivals with
  | case1 => cases h
  | case2 now ms later ih => exact Nat.lt_succ_of_lt (ih h)
  | case3 now t' later ih => exact Nat.lt_succ_of_lt (ih h)
  | case4 => cases h; exact Nat.lt_succ_self _

theorem next?_ne_pause {ms : Nat} : next? now arrivals ≠ some (t, .pause ms, rest) := by
  fun_induction next? now arrivals <;> simp_all

theorem next?_ne_until {t' : Nat} : next? now arrivals ≠ some (t, .until t', rest) := by
  fun_induction next? now arrivals <;> simp_all

end Arrival

open Arrival (next? IsSilent)

/-! ### One wait -/

namespace Received

variable {codec : FrameCodec} {timeout byteTimeout deadline now t : Nat} {buffer : List UInt8}
  {arrival : Arrival} {arrivals rest : List Arrival}

/-- How long a wait takes at most: longer, as a rule, if no part of a frame has come. -/
def allowance (timeout byteTimeout : Nat) (buffer : List UInt8) : Nat :=
  if buffer.isEmpty then timeout else byteTimeout

@[simp] theorem allowance_nil : allowance timeout byteTimeout [] = timeout := rfl

theorem allowance_of_ne (h : buffer ≠ []) : allowance timeout byteTimeout buffer = byteTimeout := by
  rw [allowance, if_neg]
  exact fun hempty => h (List.isEmpty_iff.mp hempty)

theorem start_of_incomplete (h : codec.split buffer = .incomplete) :
    start codec timeout byteTimeout buffer now arrivals =
      ((await codec byteTimeout (now + allowance timeout byteTimeout buffer) buffer now
        arrivals).setting (now + allowance timeout byteTimeout buffer)).setting (now + timeout) := by
  rw [start, h]
  rfl

/-- What happens in time ends the wait. -/
theorem await_of_next? (h : next? now arrivals = some (t, arrival, rest)) (ht : t ≤ deadline) :
    await codec byteTimeout deadline buffer now arrivals =
      await codec byteTimeout deadline buffer t (arrival :: rest) := by
  fun_induction next? now arrivals with
  | case1 => cases h
  | case2 now ms later ih =>
    have hin : now + ms ≤ deadline := Nat.le_trans (Arrival.le_of_next? h) ht
    rw [await, if_pos hin]
    exact ih h
  | case3 now t' later ih =>
    have hin : max now t' ≤ deadline := Nat.le_trans (Arrival.le_of_next? h) ht
    rw [await, if_pos (by omega)]
    exact ih h
  | case4 => cases h; rfl

/-- If nothing happens in time, the wait ends at the deadline and leaves the stream as it is. -/
theorem await_of_isSilent (hnow : now ≤ deadline) (h : IsSilent now deadline arrivals) :
    ∃ left, await codec byteTimeout deadline buffer now arrivals =
        ⟨.error .timeout, [], deadline, left, []⟩ ∧
      next? deadline left = next? now arrivals := by
  have hmax : max now deadline = deadline := Nat.max_eq_right hnow
  fun_induction next? now arrivals with
  | case1 now => exact ⟨[], by rw [await, hmax], rfl⟩
  | case2 now ms later ih =>
    rw [await]
    split
    · rename_i hin
      exact ih hin h (Nat.max_eq_right hin)
    · rename_i hlate
      refine ⟨.until (now + ms) :: later, by rw [hmax], ?_⟩
      rw [next?, Nat.max_eq_right (by omega)]
  | case3 now t' later ih =>
    rw [await, hmax]
    split
    · rename_i hin
      have hnow' : max now t' ≤ deadline := Nat.max_le.mpr ⟨hnow, hin⟩
      exact ih hnow' h (Nat.max_eq_right hnow')
    · rename_i hlate
      refine ⟨.until t' :: later, rfl, ?_⟩
      rw [next?, Nat.max_eq_right (by omega), Nat.max_eq_right (by omega)]
  | case4 now arrival later =>
    have hlate := h now arrival later (by rw [next?] <;> assumption)
    omega

/-- With more bytes it is looked for a frame again, but the deadline for the first ones is not set
again. -/
theorem await_bytes {group : List UInt8} (h : group ≠ []) :
    start codec timeout byteTimeout (buffer ++ group) now rest =
      (await codec byteTimeout deadline buffer now (.bytes group :: rest)).setting
        (now + timeout) := by
  obtain ⟨b, bs, rfl⟩ := List.exists_cons_of_ne_nil h
  rw [await, start]
  rcases (codec.split (buffer ++ b :: bs)).outcome? with _ | ⟨result, left⟩
  · have hheld : (buffer ++ b :: bs).isEmpty = false := by simp
    simp only [hheld, Bool.false_eq_true, if_false]
  · rfl

/-! ### The reads of a receiver -/

/-- Groups of bytes are read one after the other, each as soon as it comes and in time for the bytes
before it, as long as it is undecided what those are: the last of them at the time `last`, when
`later` is still to come. -/
inductive Reads (codec : FrameCodec) (timeout byteTimeout : Nat) :
    List UInt8 → Nat → List Arrival → List (List UInt8) → Nat → List Arrival → Prop where
  | nil {buffer : List UInt8} {now : Nat} {arrivals : List Arrival} :
    Reads codec timeout byteTimeout buffer now arrivals [] now arrivals
  | cons {buffer group : List UInt8} {groups : List (List UInt8)} {now t last : Nat}
    {arrivals rest later : List Arrival} (hsplit : codec.split buffer = .incomplete)
    (hnext : next? now arrivals = some (t, .bytes group, rest)) (hgroup : group ≠ [])
    (hdue : t ≤ now + allowance timeout byteTimeout buffer)
    (hrest : Reads codec timeout byteTimeout (buffer ++ group) t rest groups last later) :
    Reads codec timeout byteTimeout buffer now arrivals (group :: groups) last later

/-- How receiving ends when it has come to the bytes `held` at the time `last` and `later` is to
come. They begin with a frame or are none; or nothing more comes in time; or reading comes to an
end. -/
inductive Concludes (codec : FrameCodec) (timeout byteTimeout : Nat) (held : List UInt8)
    (last : Nat) (later : List Arrival) : Received → Prop where
  | found {result : Except Error Message} {left : List UInt8} {deadlines : List Nat}
    (houtcome : (codec.split held).outcome? = some (result, left)) :
    Concludes codec timeout byteTimeout held last later ⟨result, left, last, later, deadlines⟩
  | silence {left : List Arrival} {deadlines : List Nat} (hsplit : codec.split held = .incomplete)
    (hsilent : IsSilent last (last + allowance timeout byteTimeout held) later)
    (hleft : next? (last + allowance timeout byteTimeout held) left = next? last later) :
    Concludes codec timeout byteTimeout held last later
      ⟨.error .timeout, [], last + allowance timeout byteTimeout held, left, deadlines⟩
  | failed {t : Nat} {kind : FaultKind} {left : List Arrival} {deadlines : List Nat}
    (hsplit : codec.split held = .incomplete)
    (hnext : next? last later = some (t, .failure kind, left))
    (hdue : t ≤ last + allowance timeout byteTimeout held) :
    Concludes codec timeout byteTimeout held last later
      ⟨.error (.transport (.scripted kind)), held, t, left, deadlines⟩
  | ended {t : Nat} {left : List Arrival} {deadlines : List Nat} (hsplit : codec.split held = .incomplete)
    (hnext : next? last later = some (t, .bytes [], left))
    (hdue : t ≤ last + allowance timeout byteTimeout held) :
    Concludes codec timeout byteTimeout held last later
      ⟨.error (.transport .closedByPeer), held, t, left, deadlines⟩

/-- How receiving ends does not depend on which deadlines have been set. -/
theorem concludes_setting_iff {held : List UInt8} {last : Nat} {later : List Arrival}
    {r : Received} : Concludes codec timeout byteTimeout held last later (r.setting deadline) ↔
      Concludes codec timeout byteTimeout held last later r := by
  obtain ⟨result, left, now, arrivals, deadlines⟩ := r
  rw [setting]
  constructor <;> intro h <;> cases h with
  | found houtcome => exact .found houtcome
  | silence hsplit hsilent hleft => exact .silence hsplit hsilent hleft
  | failed hsplit hnext hdue => exact .failed hsplit hnext hdue
  | ended hsplit hnext hdue => exact .ended hsplit hnext hdue

/-- Receiving reads some groups of bytes and then ends. -/
theorem exists_reads (codec : FrameCodec) (timeout byteTimeout : Nat) (buffer : List UInt8)
    (now : Nat) (arrivals : List Arrival) :
    ∃ groups last later, Reads codec timeout byteTimeout buffer now arrivals groups last later ∧
      Concludes codec timeout byteTimeout (buffer ++ groups.flatten) last later
        (start codec timeout byteTimeout buffer now arrivals) := by
  -- Each read leaves less to come.
  induction hlength : arrivals.length using Nat.strongRecOn generalizing buffer now
    arrivals with
  | _ length ih =>
  rcases houtcome : (codec.split buffer).outcome? with _ | ⟨result, left⟩
  case some =>
    refine ⟨[], now, arrivals, .nil, ?_⟩
    rw [List.flatten_nil, List.append_nil, start, houtcome]
    exact .found houtcome
  have hsplit := FrameCodec.incomplete_of_outcome? houtcome
  by_cases hsilent : IsSilent now (now + allowance timeout byteTimeout buffer) arrivals
  · obtain ⟨left, hawait, hleft⟩ : ∃ left,
        await codec byteTimeout (now + allowance timeout byteTimeout buffer) buffer now arrivals =
          ⟨.error .timeout, [], now + allowance timeout byteTimeout buffer, left, []⟩ ∧
        next? (now + allowance timeout byteTimeout buffer) left = next? now arrivals :=
      await_of_isSilent (Nat.le_add_right _ _) hsilent
    refine ⟨[], now, arrivals, .nil, ?_⟩
    rw [List.flatten_nil, List.append_nil, start_of_incomplete hsplit, hawait]
    simp only [concludes_setting_iff]
    exact .silence hsplit hsilent hleft
  · obtain ⟨t, arrival, rest, hnext, hdue⟩ : ∃ t arrival rest,
        next? now arrivals = some (t, arrival, rest) ∧
          t ≤ now + allowance timeout byteTimeout buffer := by
      simpa [IsSilent] using hsilent
    rw [start_of_incomplete hsplit, await_of_next? hnext hdue]
    simp only [concludes_setting_iff]
    rcases arrival with (_ | ⟨b, bs⟩) | ms | t' | kind
    · refine ⟨[], now, arrivals, .nil, ?_⟩
      rw [List.flatten_nil, List.append_nil, await]
      exact .ended hsplit hnext hdue
    · have hgroup : b :: bs ≠ [] := List.cons_ne_nil b bs
      obtain ⟨groups, last, later, hreads, hconcludes⟩ :=
        ih rest.length (hlength ▸ Arrival.length_of_next? hnext) (buffer ++ b :: bs) t rest rfl
      refine ⟨(b :: bs) :: groups, last, later, .cons hsplit hnext hgroup hdue hreads, ?_⟩
      rw [await_bytes hgroup, concludes_setting_iff] at hconcludes
      rw [List.flatten_cons, ← List.append_assoc]
      exact hconcludes
    · exact (Arrival.next?_ne_pause hnext).elim
    · exact (Arrival.next?_ne_until hnext).elim
    · refine ⟨[], now, arrivals, .nil, ?_⟩
      rw [List.flatten_nil, List.append_nil, await]
      exact .failed hsplit hnext hdue

/-! ### How much is read, and how long it takes -/

theorem length_of_incomplete (h : codec.split buffer = .incomplete) : buffer.length ≤ 259 := by
  have hle := FrameCodec.length_of_incomplete h
  rcases codec with ⟨_ | _, role⟩
  · exact Nat.le_trans hle (show 256 ≤ 259 by decide)
  · exact hle

section

variable {groups : List (List UInt8)} {last : Nat} {later : List Arrival}

/-- Before the last read, the bytes so far are undecided. -/
theorem Reads.length_le
    (h : Reads codec timeout byteTimeout buffer now arrivals groups last later) :
    groups.length ≤ 260 - buffer.length ∨ groups = [] := by
  induction h with
  | nil => exact .inr rfl
  | @cons buffer group groups now t last arrivals rest later hsplit _ hgroup _ _ ih =>
    have hbuffer := length_of_incomplete hsplit
    have hlength := List.length_pos_iff.mpr hgroup
    rw [List.length_append] at ih
    refine .inl ?_
    rcases ih with hle | rfl
    · rw [List.length_cons]
      omega
    · rw [List.length_singleton]
      omega

theorem Reads.length_le_flatten
    (h : Reads codec timeout byteTimeout buffer now arrivals groups last later) :
    groups.length ≤ groups.flatten.length := by
  induction h with
  | nil => exact Nat.le_refl 0
  | cons _ _ hgroup _ _ ih =>
    have hlength := List.length_pos_iff.mpr hgroup
    rw [List.length_cons, List.flatten_cons, List.length_append]
    omega

/-- Once a frame has begun, each read takes no longer than the byte timeout. -/
theorem Reads.last_le
    (h : Reads codec timeout byteTimeout buffer now arrivals groups last later)
    (hbuffer : buffer ≠ []) : last ≤ now + groups.length * byteTimeout := by
  induction h with
  | nil => exact Nat.le_add_right _ _
  | cons _ _ _ hdue _ ih =>
    have hlast := ih (by simp [hbuffer])
    rw [allowance_of_ne hbuffer] at hdue
    rw [List.length_cons, Nat.succ_mul]
    omega

theorem Concludes.now_le {held : List UInt8} {r : Received}
    (h : Concludes codec timeout byteTimeout held last later r) :
    r.now = last ∨
      codec.split held = .incomplete ∧ r.now ≤ last + allowance timeout byteTimeout held := by
  cases h with
  | found => exact .inl rfl
  | silence hsplit => exact .inr ⟨hsplit, Nat.le_refl _⟩
  | failed hsplit _ hdue => exact .inr ⟨hsplit, hdue⟩
  | ended hsplit _ hdue => exact .inr ⟨hsplit, hdue⟩

/-- Receiving that begins with nothing takes the response timeout and 259 byte timeouts at most. -/
theorem Reads.now_le {r : Received}
    (h : Reads codec timeout byteTimeout [] now arrivals groups last later)
    (hr : Concludes codec timeout byteTimeout groups.flatten last later r) :
    r.now ≤ now + timeout + 259 * byteTimeout := by
  have hend := hr.now_le
  cases h with
  | nil =>
    rw [List.flatten_nil, allowance_nil] at hend
    omega
  | @cons _ group groups _ t _ _ _ _ hsplit hnext hgroup hdue hrest =>
    rw [allowance_nil] at hdue
    rw [List.nil_append] at hrest
    rw [List.flatten_cons, allowance_of_ne (by simp [hgroup])] at hend
    have hlast := hrest.last_le hgroup
    have hfew := hrest.length_le_flatten
    have hmost := hrest.length_le
    have hlength := List.length_pos_iff.mpr hgroup
    -- The wait that comes to nothing is one more, but then the bytes before it are undecided.
    rcases hend with hnow | ⟨hheld, hnow⟩
    · have hgroups : groups.length ≤ 259 := by
        rcases hmost with hle | rfl
        · omega
        · exact Nat.zero_le _
      have htimes := Nat.mul_le_mul_right byteTimeout hgroups
      omega
    · have hundecided := length_of_incomplete hheld
      rw [List.length_append] at hundecided
      have htimes := Nat.mul_le_mul_right byteTimeout (show groups.length + 1 ≤ 259 by omega)
      rw [Nat.succ_mul] at htimes
      omega

end

/-! ### Streams that go on for ever -/

/-- Of bytes that are enough to be decided about, what comes after them is not looked at. -/
theorem await_append (hsplit : codec.split buffer = .incomplete)
    (h : 260 ≤ buffer.length + (Arrival.groups arrivals).length) (more : List Arrival) :
    await codec byteTimeout deadline buffer now (arrivals ++ more) =
      let r := await codec byteTimeout deadline buffer now arrivals
      { r with arrivals := r.arrivals ++ more } := by
  fun_induction await codec byteTimeout deadline buffer now arrivals with
  | case1 =>
    have hlength := length_of_incomplete hsplit
    rw [Arrival.groups, List.length_nil] at h
    omega
  | case2 _ _ _ _ _ hin ih =>
    rw [List.cons_append, await, if_pos hin]
    exact ih hsplit h
  | case3 _ _ _ _ _ hlate => rw [List.cons_append, await, if_neg hlate]; rfl
  | case4 _ _ _ _ _ hin ih =>
    rw [List.cons_append, await, if_pos hin]
    exact ih hsplit h
  | case5 _ _ _ _ _ hlate => rw [List.cons_append, await, if_neg hlate]; rfl
  | case6 => rfl
  | case7 => rfl
  | case8 _ _ _ _ _ _ _ _ houtcome => rw [List.cons_append, await, houtcome]
  | case9 _ _ _ _ _ _ houtcome ih =>
    rw [Arrival.groups, List.length_cons] at h
    have hlong := ih (FrameCodec.incomplete_of_outcome? houtcome)
      (by rw [List.length_append, List.length_cons]; omega)
    rw [List.cons_append, await, houtcome]
    dsimp only
    rw [hlong]
    rfl

theorem start_append (h : 260 ≤ (Arrival.groups arrivals).length) (more : List Arrival) :
    start codec timeout byteTimeout buffer now (arrivals ++ more) =
      let r := start codec timeout byteTimeout buffer now arrivals
      { r with arrivals := r.arrivals ++ more } := by
  rw [start, start]
  rcases houtcome : (codec.split buffer).outcome? with _ | ⟨result, left⟩
  · have hsplit := FrameCodec.incomplete_of_outcome? houtcome
    dsimp only
    rw [await_append hsplit (by omega)]
    rfl
  · rfl

end Received

/-! ### Receiving -/

namespace Link

open Received (Reads)

/-- The link with more to come on its stream. -/
def fed (more : List Arrival) (l : Link) : Link := l.withWire (l.transport.wire.feed more)

/-- What receiving comes to on a stream: `groups` are read one after the other, the last of them at
the time `last`, when `later` is still to come. -/
structure Receipt (timeout byteTimeout : Nat) (c : Channel) (l : Link)
    (result : Except Error Message) (l' : Link) (groups : List (List UInt8)) (last : Nat)
    (later : List Arrival) (left : List UInt8) : Prop where
  reads : Reads c.codec timeout byteTimeout c.buffer l.journal.now l.transport.wire.arrivals groups
    last later
  few : groups.length ≤ 260
  soon : c.buffer = [] → l'.journal.now ≤ l.journal.now + timeout + 259 * byteTimeout
  channel : l'.channel = some { c with buffer := left }
  /-- Without a frame or an error, nothing has come in time for what was there. -/
  timedOut : result = .error .timeout →
    left = [] ∧ IsSilent last l'.journal.now later ∧
    next? l'.journal.now l'.transport.wire.arrivals = next? last later ∧
    (c.buffer ++ groups.flatten = [] ∧ l'.journal.now = l.journal.now + timeout ∨
      c.buffer ++ groups.flatten ≠ [] ∧
      c.codec.split (c.buffer ++ groups.flatten) = .incomplete ∧
      l'.journal.now = last + byteTimeout)
  /-- Bytes that come after the frame are kept. -/
  taken : ∀ m, result = .ok m →
    m.adu ++ left = c.buffer ++ groups.flatten ∧ l'.journal.now = last ∧
    l'.transport.wire.arrivals = later

variable {l : Link} {c : Channel}

theorem resultOf_receive (hc : l.channel = some c) (timeout byteTimeout : Nat) :
    resultOf (receive timeout byteTimeout) l = (Received.start c.codec timeout byteTimeout c.buffer
      l.journal.now l.transport.wire.arrivals).result := by
  rw [resultOf, receive_eq hc]
  generalize Received.start c.codec timeout byteTimeout c.buffer l.journal.now
    l.transport.wire.arrivals = r
  rcases r.result with e | m <;> rfl

theorem frame_of_outcome? {codec : FrameCodec} {held left : List UInt8} {m : Message}
    (h : (codec.split held).outcome? = some (.ok m, left)) : m.adu ++ left = held := by
  rcases hsplit : codec.split held with _ | ⟨m', rest⟩ | _ | _ <;> rw [hsplit] at h <;> cases h
  exact (FrameCodec.admits_of_split hsplit).2.symm

/-- How receiving has ended tells what it comes to. -/
theorem receipt_of_concludes {timeout byteTimeout last : Nat} {groups : List (List UInt8)}
    {later : List Arrival} {r : Received}
    (hreads : Reads c.codec timeout byteTimeout c.buffer l.journal.now l.transport.wire.arrivals
      groups last later)
    (h : Received.Concludes c.codec timeout byteTimeout (c.buffer ++ groups.flatten) last later r) :
    Receipt timeout byteTimeout c l r.result (l.hasReceived c r) groups last later r.buffer := by
  have hfew : groups.length ≤ 260 := by
    rcases hreads.length_le with hle | rfl
    · omega
    · exact Nat.zero_le _
  have hsoon : c.buffer = [] →
      r.now ≤ l.journal.now + timeout + 259 * byteTimeout := by
    intro hbuffer
    rw [hbuffer] at hreads h
    exact hreads.now_le h
  refine ⟨hreads, hfew, hsoon, rfl, ?_, ?_⟩
  · intro htimeout
    cases h with
    | found houtcome => exact (Split.ne_timeout_of_outcome? houtcome htimeout).elim
    | silence hsplit hsilent hleft =>
      refine ⟨rfl, hsilent, hleft, ?_⟩
      by_cases hheld : c.buffer ++ groups.flatten = []
      · have hnow : last = l.journal.now := by
          cases hreads with
          | nil => rfl
          | cons _ _ hgroup => simp [hgroup] at hheld
        refine .inl ⟨hheld, ?_⟩
        show last + Received.allowance timeout byteTimeout (c.buffer ++ groups.flatten) = _
        rw [hheld, Received.allowance_nil, hnow]
      · refine .inr ⟨hheld, hsplit, ?_⟩
        show last + Received.allowance timeout byteTimeout (c.buffer ++ groups.flatten) = _
        rw [Received.allowance_of_ne hheld]
    | failed => cases htimeout
    | ended => cases htimeout
  · intro m hm
    cases h with
    | found houtcome =>
      obtain rfl : _ = Except.ok m := hm
      exact ⟨frame_of_outcome? houtcome, rfl, rfl⟩
    | silence | failed | ended => cases hm

/-- Receiving ends, whatever the stream does: after 260 reads of bytes at most, and, if no part of a
frame was there, before the response timeout and 259 byte timeouts are over. It times out only if
nothing has come in time, and then no bytes are kept; after a frame the bytes that follow it are. A
stream that goes on for ever is looked at no further than its first 260 groups of bytes. -/
theorem receive_ends (hc : l.channel = some c) (timeout byteTimeout : Nat) :
    let result := resultOf (receive timeout byteTimeout) l
    let l' := after (receive timeout byteTimeout) l
    (∃ groups last later left,
      Receipt timeout byteTimeout c l result l' groups last later left) ∧
    (260 ≤ (Arrival.groups l.transport.wire.arrivals).length → ∀ more,
      resultOf (receive timeout byteTimeout) (l.fed more) = result ∧
      after (receive timeout byteTimeout) (l.fed more) = l'.fed more) := by
  intro result l'
  have hresult : result = _ := resultOf_receive hc timeout byteTimeout
  have hl' : l' = _ := after_receive hc timeout byteTimeout
  constructor
  · obtain ⟨groups, last, later, hreads, hconcludes⟩ := Received.exists_reads c.codec timeout
      byteTimeout c.buffer l.journal.now l.transport.wire.arrivals
    rw [hresult, hl']
    exact ⟨groups, last, later, _, receipt_of_concludes hreads hconcludes⟩
  · intro hlong more
    have hstart : Received.start c.codec timeout byteTimeout c.buffer (l.fed more).journal.now
        (l.fed more).transport.wire.arrivals = _ := Received.start_append hlong more
    have hfed : (l.fed more).channel = some c := hc
    rw [hresult, hl', resultOf_receive hfed, after_receive hfed, hstart]
    exact ⟨rfl, rfl⟩

/-- The longest frame comes byte by byte, each at the last moment, and more bytes follow it. -/
theorem receive_ends_drip :
    let c : Channel := ⟨.client .tcp, [], .inProcess, false⟩
    let m : Message := ⟨.tcp 1 ⟨7⟩, .response, List.replicate 253 3⟩
    let arrivals := .pause 450 :: m.adu.flatMap fun b => [.pause 50, .bytes [b]]
    let l := Link.ofTransport ⟨.hooked .tcp false 0, (Wire.quiet "client").feed arrivals⟩
    let l := { l with channel := some c }
    let l' := after (receive 500 50) l
    (l.channel = some c ∧ 260 ≤ (Arrival.groups l.transport.wire.arrivals).length) ∧
      (∃ groups last later left, Receipt 500 50 c l (.ok m) l' groups last later left ∧
        m.adu ++ left = groups.flatten) ∧
      l'.journal.now = 500 + 259 * 50 ∧
      ∀ more, after (receive 500 50) (l.fed more) = l'.fed more := by
  intro c m arrivals l₀ l l'
  have hoption : (resultOf (receive 500 50) l).toOption = some m := by decide +kernel
  have hresult : resultOf (receive 500 50) l = .ok m := by
    rcases hcases : resultOf (receive 500 50) l with e | m' <;> rw [hcases] at hoption
    · cases hoption
    · exact congrArg Except.ok (Option.some.inj hoption)
  have hlong : 260 ≤ (Arrival.groups l.transport.wire.arrivals).length := by decide +kernel
  obtain ⟨⟨groups, last, later, left, hreceipt⟩, hfed⟩ :=
    receive_ends (l := l) (c := c) rfl 500 50
  rw [hresult] at hreceipt
  exact ⟨⟨rfl, hlong⟩, ⟨groups, last, later, left, hreceipt, (hreceipt.taken m rfl).1⟩,
    by decide +kernel, fun more => (hfed hlong more).2⟩

end Link

end Modbus

import Modbus.Proofs.Client.Session

/-! Answers of a TCP client. When the frames of the peer arrive whole and each answers a request
under the header of it, a call that succeeds returns what the frame says that answers this very
request, and that was read after the request was written. What is left of earlier reads is
forgotten, and the numbers of transactions tell the other frames apart until they start again. -/

namespace Modbus

/-- The bytes of each read that is still to come. -/
def Arrival.reads : List Arrival → List (List UInt8)
  | [] => []
  | .bytes group :: rest => group :: reads rest
  | _ :: rest => reads rest

open Arrival (reads)

/-- A frame from the peer of a TCP client, which answers the transaction that comes after `answers`
other ones. -/
structure Letter where
  answers : Nat
  transaction : UInt16
  unit : UnitId
  pdu : List UInt8
  pdu_pos : 0 < pdu.length
  length_pdu_le : pdu.length ≤ 253

namespace Letter

def header (letter : Letter) : Header := .tcp letter.transaction letter.unit

def message (letter : Letter) : Message := letter.header.frame .response letter.pdu

/-- The bytes of the letters of one read. -/
def bytes (letters : List Letter) : List UInt8 := letters.flatMap (·.message.adu)

/-- Of all headers made so far, the letter has the one of the request that it answers, and the
numbers of transactions have not started again since then. -/
structure IsTimely (made : List Header) (letter : Letter) : Prop where
  header : made[letter.answers]? = some letter.header
  recent : made.length ≤ letter.answers + 65536

theorem delimits (letter : Letter) :
    (FrameCodec.client .tcp).Delimits letter.message.adu letter.message :=
  Mbap.delimits letter.pdu_pos letter.length_pdu_le

theorem bytes_cons_ne_nil (first : Letter) (rest : List Letter) : bytes (first :: rest) ≠ [] := by
  intro h
  rw [bytes, List.flatMap_cons, List.append_eq_nil_iff] at h
  exact first.delimits.ne_nil h.1

theorem split_bytes (first : Letter) (rest : List Letter) :
    (FrameCodec.client .tcp).split (bytes (first :: rest)) = .frame first.message (bytes rest) := by
  rw [bytes, List.flatMap_cons]
  exact first.delimits.whole (bytes rest)

end Letter

namespace Received

variable {byteTimeout deadline now : Nat}

/-- A wait for a frame uses up reads from the first one on. -/
theorem reads_await (codec : FrameCodec) (buffer : List UInt8) (arrivals : List Arrival) :
    reads (await codec byteTimeout deadline buffer now arrivals).arrivals <:+ reads arrivals := by
  induction arrivals generalizing buffer deadline now with
  | nil => exact List.suffix_rfl
  | cons arrival rest ih =>
    cases arrival with
    | pause ms =>
      rw [await]
      split
      · exact ih buffer
      · exact List.suffix_rfl
    | «until» t =>
      rw [await]
      split
      · exact ih buffer
      · exact List.suffix_rfl
    | failure kind => exact List.suffix_rfl
    | bytes group =>
      rcases group with _ | ⟨b, bs⟩
      · exact List.suffix_cons _ _
      · rw [await]
        split
        · exact List.suffix_cons _ _
        · exact (ih _).trans (List.suffix_cons _ _)

/-- When the frames of the peer arrive whole, a wait takes the first one of the next read and uses
up this read. -/
theorem await_of_letters {read : List (List Letter)} {arrivals : List Arrival} {m : Message}
    (hresult : (await (.client .tcp) byteTimeout deadline [] now arrivals).result = .ok m)
    (hread : reads arrivals = read.map Letter.bytes ++
      reads (await (.client .tcp) byteTimeout deadline [] now arrivals).arrivals) :
    ∃ first rest, read = [first :: rest] ∧ m = first.message := by
  induction arrivals generalizing deadline now with
  | nil => cases hresult
  | cons arrival later ih =>
    cases arrival with
    | pause ms =>
      rw [await] at hresult hread
      split at hresult
      · rename_i hin
        rw [if_pos hin] at hread
        exact ih hresult hread
      · cases hresult
    | «until» t =>
      rw [await] at hresult hread
      split at hresult
      · rename_i hin
        rw [if_pos hin] at hread
        exact ih hresult hread
      · cases hresult
    | failure kind => cases hresult
    | bytes group =>
      have hused : reads (await (.client .tcp) byteTimeout deadline [] now
          (.bytes group :: later)).arrivals <:+ reads later := by
        rcases group with _ | ⟨b, bs⟩
        · exact List.suffix_rfl
        · rw [await]
          split
          · exact List.suffix_rfl
          · exact reads_await _ _ _
      rcases read with _ | ⟨letters, read⟩
      · -- The read has been used up, so it is one of those that are accounted for.
        have hlength := hused.length_le
        rw [List.map_nil, List.nil_append, reads] at hread
        rw [← hread, List.length_cons] at hlength
        omega
      · rw [reads, List.map_cons, List.cons_append] at hread
        obtain ⟨rfl, hlater⟩ := List.cons.inj hread
        rcases letters with _ | ⟨first, rest⟩
        · cases hresult
        · have hsplit := Letter.split_bytes first rest
          obtain ⟨b, bs, hbytes⟩ :=
            List.exists_cons_of_ne_nil (Letter.bytes_cons_ne_nil first rest)
          have hawait : await (.client .tcp) byteTimeout deadline [] now
              (.bytes (Letter.bytes (first :: rest)) :: later) =
                ⟨.ok first.message, Letter.bytes rest, now, later, []⟩ := by
            rw [hbytes] at hsplit ⊢
            simp only [await, List.nil_append, hsplit, Split.outcome?]
          rw [hawait] at hresult hlater
          cases hresult
          have hempty : read = [] :=
            List.map_eq_nil_iff.mp (List.self_eq_append_left.mp hlater)
          exact ⟨first, rest, by rw [hempty], rfl⟩

end Received

namespace Client

variable {c c' : Client} {unit : UnitId} {request : Request} {answer : Answer Response}

/-- The answer that a TCP client collects is what the first letter of the next read says. -/
theorem collect_of_letters {p : Pending} (h : collect p c = .ok answer c')
    (hframing : c.link.framing = .tcp) (hfor : c.link.IsFor .response)
    (hclear : ∀ channel, c.link.channel = some channel → channel.buffer = [])
    {read : List (List Letter)}
    (hread : reads c.link.transport.wire.arrivals =
      read.map Letter.bytes ++ reads c'.link.transport.wire.arrivals) :
    ∃ first rest, read = [first :: rest] ∧ p.accept first.message = .ok answer := by
  obtain ⟨m, l, hreceive, rfl, haccept⟩ := of_collect h
  obtain ⟨channel, hchannel⟩ := Link.channel_of_receive hreceive
  have hcodec : channel.codec = .client .tcp := by
    rw [hfor channel hchannel, hframing]
    rfl
  have hstart : ∀ timeout byteTimeout, Received.start channel.codec timeout byteTimeout
      channel.buffer c.link.journal.now c.link.transport.wire.arrivals =
        ((Received.await (.client .tcp) byteTimeout (c.link.journal.now + timeout) []
          c.link.journal.now c.link.transport.wire.arrivals).setting
            (c.link.journal.now + timeout)).setting (c.link.journal.now + timeout) := by
    intro timeout byteTimeout
    rw [hcodec, hclear channel hchannel]
    rfl
  rw [Link.receive_eq hchannel, hstart] at hreceive
  split at hreceive
  · rename_i hresult
    cases hreceive
    obtain ⟨first, rest, hread, rfl⟩ := Received.await_of_letters hresult hread
    exact ⟨first, rest, hread, haccept⟩
  · cases hreceive

end Client

namespace Session

variable {s : Session} {unit : UnitId} {request : Request}

/-- A timely letter with the header of the last request answers this request. -/
theorem Good.answers_of_header (h : s.Good) (htcp : s.client.link.framing = .tcp) {letter : Letter}
    (htimely : letter.IsTimely (s.made ++ [.tcp s.client.transaction unit]))
    (hheader : letter.header = .tcp s.client.transaction unit) :
    letter.answers = s.made.length := by
  obtain ⟨hplace, hrecent⟩ := htimely
  have hlt := (List.getElem?_eq_some_iff.mp hplace).1
  rw [List.length_append, List.length_singleton] at hlt hrecent
  -- Otherwise an earlier request has the same number, and fewer than 65536 others lie between.
  by_contra hne
  rw [List.getElem?_append_left (by omega), hheader] at hplace
  obtain ⟨unit', hmade⟩ := h.made htcp _ _ hplace
  have hnumber : UInt16.ofNat (s.made.length + 1) = UInt16.ofNat (letter.answers + 1) := by
    rw [← h.transaction htcp]
    exact (Header.tcp.inj hmade).1
  have hmod := congrArg UInt16.toNat hnumber
  rw [UInt16.toNat_ofNat', UInt16.toNat_ofNat'] at hmod
  omega

/-- When a call succeeds and what was read for it are whole letters, which answer requests under
their headers, one of them answers the request of the call, is about its function, and says what
the call returns. All of this was read after the request was written. -/
theorem answered_of_call (hs : s.Reach) (htcp : s.client.link.framing = .tcp)
    {answer : Answer Response} {c' : Client}
    (hcall : Client.call unit request s.client = .ok answer c') :
    ∃ header c, s.client.header? unit request = some header ∧
      Client.submit unit request s.client = .ok ⟨header, request⟩ c ∧
      ∀ read : List (List Letter),
        reads c.link.transport.wire.arrivals =
            read.map Letter.bytes ++ reads c'.link.transport.wire.arrivals →
        (∀ letter ∈ read.flatten, letter.IsTimely (s.call unit request).made) →
        ∃ letter ∈ read.flatten, letter.answers = s.made.length ∧ letter.header = header ∧
          ∃ reply, letter.message.response = .ok reply ∧ reply.function = request.function ∧
            answer = reply.mapError (·.exception) := by
  have hgood := hs.good
  obtain ⟨hpermit, p, c, hsubmit, hrest⟩ := Client.of_call hcall
  rw [Client.isBroadcast_of_tcp htcp, if_neg Bool.false_ne_true] at hrest
  have hdispatched := hsubmit
  rw [Client.submit_eq] at hdispatched
  obtain ⟨header, c₁, hannounce, hdispatch⟩ := of_run_bind hdispatched
  obtain ⟨rfl, hchannel⟩ := Client.of_dispatch hdispatch
  have hclear : ∀ channel, c.link.channel = some channel → channel.buffer = [] := by
    intro channel hc
    rw [hchannel] at hc
    obtain ⟨earlier, -, rfl⟩ := Option.map_eq_some_iff.mp hc
    rfl
  have hlink := (Client.of_announce hannounce).1.trans
    ((Client.keeps_dispatch request header).of_ok hdispatch).link
  obtain ⟨rfl, -⟩ := (Client.of_announce hannounce).2 htcp
  have hheader : s.client.header? unit request = some (.tcp s.client.transaction unit) := by
    rw [Client.header?, hpermit, hannounce]
  have hmade : (s.call unit request).made = s.made ++ [.tcp s.client.transaction unit] := by
    rw [call, hheader, Option.toList_some]
  refine ⟨_, c, hheader, hsubmit, fun read hread htimely => ?_⟩
  obtain ⟨first, rest, rfl, haccept⟩ := Client.collect_of_letters hrest
    (hlink.framing.trans htcp) (hlink.isFor hgood.isFor) hclear hread
  have hfirst : first ∈ [first :: rest].flatten := by simp
  obtain ⟨hsame, hreply⟩ := Client.accept_eq_ok_iff.mp haccept
  have hletter : first.header = .tcp s.client.transaction unit :=
    Header.header_frame.symm.trans hsame
  refine ⟨first, hfirst, ?_, hletter, hreply⟩
  exact hgood.answers_of_header htcp (hmade ▸ htimely first hfirst) hletter

/-- The answer to the first of two requests comes twice in one read. The second time does not count
for the other request, which has an answer of its own. -/
theorem answered_of_call_registers :
    let first : Letter := ⟨0, 1, ⟨7⟩, [0x03, 2, 0, 5], by decide, by decide⟩
    let second : Letter := ⟨1, 2, ⟨7⟩, [0x03, 2, 0, 6], by decide, by decide⟩
    let request := Request.readHoldingRegisters 0 1
    let transport := fun (letters : List Letter) => (⟨.attached .tcp true,
      { Wire.quiet "client" with arrivals := [.bytes (Letter.bytes letters)] }⟩ : Transport)
    let asked : Session := (⟨.ofTransport (transport [first, first]) .standard true, []⟩ :
      Session).call ⟨7⟩ request
    let s : Session := { asked with client.link.transport := transport [second] }
    let c' := after (Client.call ⟨7⟩ request) s.client
    (s.Reach ∧ s.client.link.framing = .tcp ∧
      Client.call ⟨7⟩ request s.client = .ok (.ok (.readHoldingRegisters [6])) c' ∧
      ∀ letter ∈ [second], letter.IsTimely (s.call ⟨7⟩ request).made) ∧
      ∃ letter ∈ [second], letter.answers = 1 ∧
        ∃ reply, letter.message.response = .ok reply ∧ reply.function = .readHoldingRegisters := by
  intro first second request transport asked s c'
  have hreach : s.Reach := .world _ _ (by decide) (.call _ _ (.start _ _ _))
  have htcp : s.client.link.framing = .tcp := rfl
  have hcall : Client.call ⟨7⟩ request s.client = .ok (.ok (.readHoldingRegisters [6])) c' := by
    subst c' s asked transport request second first
    rfl
  have htimely : ∀ letter ∈ [second], letter.IsTimely (s.call ⟨7⟩ request).made := by
    intro letter hletter
    obtain rfl := List.mem_singleton.mp hletter
    exact ⟨by decide, by decide⟩
  obtain ⟨header, c, -, hsubmit, hanswered⟩ := answered_of_call hreach htcp hcall
  obtain rfl : after (Client.submit ⟨7⟩ request) s.client = c := by
    rw [after, hsubmit]
  obtain ⟨letter, hletter, hanswers, -, reply, hreply, hfunction, -⟩ :=
    hanswered [[second]] (by decide) htimely
  exact ⟨⟨hreach, htcp, hcall, htimely⟩, letter, hletter, hanswers, reply, hreply, hfunction⟩

end Session

end Modbus

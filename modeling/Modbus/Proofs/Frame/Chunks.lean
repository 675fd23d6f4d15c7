import Modbus.Error
import Modbus.Proofs.Frame.Messages

/-! Frames in chunks. A receiver appends each chunk to the bytes that are left of those before, and
takes frames from them until no more is found. However the bytes of the frames are divided into
chunks, each message comes with the chunk that holds its last byte. -/

namespace Modbus

namespace Split

variable {role : Role} {buffer rest : List UInt8} {result : Except Error Message}

theorem length_of_cut {unit : UInt8} {body : List UInt8} {n : Nat}
    (h : (Rtu.cut role n (unit :: body)).outcome? = some (result, rest)) :
    rest.length < (unit :: body).length := by
  unfold Rtu.cut at h
  dsimp only at h
  split at h
  · rename_i hi lo left hdrop
    have hlength := congrArg List.length hdrop
    rw [List.length_drop, List.length_cons, List.length_cons] at hlength
    have hrest : rest = left := by
      split at h <;> cases h <;> rfl
    rw [hrest, List.length_cons]
    omega
  · cases h

theorem length_of_rtu (h : (Rtu.split role buffer).outcome? = some (result, rest)) :
    rest.length < buffer.length := by
  unfold Rtu.split at h
  split at h
  · split at h
    · cases h
    · split at h
      · cases h
        exact Nat.succ_pos _
      · exact length_of_cut h
    · split at h
      · cases h
        exact Nat.succ_pos _
      · split at h
        · cases h
        · split at h
          · rename_i hcut
            rw [← hcut] at h
            exact length_of_cut h
          · cases h
  · cases h

theorem length_of_mbap (h : (Mbap.split role buffer).outcome? = some (result, rest)) :
    rest.length < buffer.length := by
  unfold Mbap.split at h
  split at h
  · dsimp only at h
    split at h
    · cases h
      exact Nat.succ_pos _
    · split at h
      · cases h
        exact Nat.succ_pos _
      · split at h
        · cases h
        · cases h
          simp only [List.length_drop, List.length_cons]
          omega
  · cases h

end Split

namespace FrameCodec

variable {codec : FrameCodec} {buffer bytes left : List UInt8} {messages : List Message}

/-- What is found at the front of a buffer is no longer in what is left of it. -/
theorem length_of_outcome? {result : Except Error Message} {rest : List UInt8}
    (h : (codec.split buffer).outcome? = some (result, rest)) : rest.length < buffer.length := by
  rcases codec with ⟨_ | _, role⟩
  · exact Split.length_of_rtu h
  · exact Split.length_of_mbap h

/-- Takes frames from a buffer until no more is found: what came of it, and the bytes left. -/
def drain (codec : FrameCodec) (buffer : List UInt8) : List (Except Error Message) × List UInt8 :=
  match _h : (codec.split buffer).outcome? with
  | none => ([], buffer)
  | some (result, rest) =>
    let (results, left) := codec.drain rest
    (result :: results, left)
termination_by buffer.length
decreasing_by exact length_of_outcome? _h

/-- Appends chunks to a buffer, and takes the frames that are there after each: what came of every
chunk, and the bytes left after the last. -/
def feed (codec : FrameCodec) :
    List UInt8 → List (List UInt8) → List (List (Except Error Message)) × List UInt8
  | buffer, [] => ([], buffer)
  | buffer, chunk :: rest =>
    let (results, left) := codec.drain (buffer ++ chunk)
    let (later, last) := codec.feed left rest
    (results :: later, last)

theorem drain_of_incomplete (h : codec.split buffer = .incomplete) :
    codec.drain buffer = ([], buffer) := by
  rw [drain]
  split
  · rfl
  · rename_i hsome
    rw [h] at hsome
    cases hsome

theorem drain_of_frame {m : Message} {rest : List UInt8} (h : codec.split buffer = .frame m rest) :
    codec.drain buffer = (.ok m :: (codec.drain rest).1, (codec.drain rest).2) := by
  rw [drain]
  split
  · rename_i hnone
    rw [h] at hnone
    cases hnone
  · rename_i hsome
    rw [h] at hsome
    cases hsome
    rfl

/-! ### Streams of messages -/

/-- The bytes of messages that are sent one after the other. -/
def stream (messages : List Message) : List UInt8 := messages.flatMap encode

theorem stream_cons (m : Message) (messages : List Message) :
    stream (m :: messages) = encode m ++ stream messages := rfl

theorem stream_append (messages messages' : List Message) :
    stream (messages ++ messages') = stream messages ++ stream messages' :=
  List.flatMap_append

/-- The bytes are the beginning of the first message and not all of it; without a message there
are none. -/
def IsPart (bytes : List UInt8) : List Message → Prop
  | [] => bytes = []
  | m :: _ => bytes <+: encode m ∧ bytes ≠ encode m

/-- Of `messages`, those in `done` are all that have come whole with `bytes`, and `left` is what has
come of the next. -/
structure Arrived (messages : List Message) (bytes : List UInt8) (done : List Message)
    (left : List UInt8) : Prop where
  bytes : bytes = stream done ++ left
  part : ∃ todo, messages = done ++ todo ∧ IsPart left todo

theorem Arrived.nil (h : IsPart left messages) : Arrived messages left [] left :=
  ⟨rfl, messages, rfl, h⟩

theorem Arrived.cons (h : Arrived messages bytes done left) (m : Message) :
    Arrived (m :: messages) (encode m ++ bytes) (m :: done) left := by
  obtain ⟨hbytes, todo, hmessages, hpart⟩ := h
  exact ⟨by rw [stream_cons, List.append_assoc, ← hbytes], todo, by rw [hmessages]; rfl, hpart⟩

/-- When all bytes have come, all messages have, and nothing is left. -/
theorem eq_nil_of_isPart (h : IsPart left messages) (hleft : left = stream messages) :
    messages = [] ∧ left = [] := by
  cases messages with
  | nil => exact ⟨rfl, h⟩
  | cons m rest =>
    obtain ⟨hfront, hne⟩ := h
    rw [stream_cons] at hleft
    have hle := hfront.length_le
    rw [hleft, List.length_append] at hle
    refine (hne (hfront.eq_of_length ?_)).elim
    rw [hleft, List.length_append]
    omega

section Delimited

variable (h : ∀ m ∈ messages, codec.Delimits (encode m) m)
include h

/-- A buffer with the first bytes of a stream is drained of the messages that are whole in it. -/
theorem drain_of_append {rest : List UInt8} (hbytes : bytes ++ rest = stream messages) :
    ∃ done left, codec.drain bytes = (done.map .ok, left) ∧ Arrived messages bytes done left := by
  induction messages generalizing bytes with
  | nil =>
    obtain ⟨rfl, -⟩ := List.append_eq_nil_iff.mp hbytes
    have hnil : codec.split [] = .incomplete := by
      rcases codec with ⟨_ | _, role⟩ <;> rfl
    exact ⟨[], [], drain_of_incomplete hnil, .nil rfl⟩
  | cons m messages ih =>
    obtain ⟨hm, hmessages⟩ := List.forall_mem_cons.mp h
    rw [stream_cons] at hbytes
    -- The first message is there whole, or all that is there is a part of it.
    by_cases hwhole : (encode m).length ≤ bytes.length
    · obtain ⟨more, rfl⟩ :=
        List.prefix_of_prefix_length_le (List.prefix_append _ _) ⟨rest, hbytes⟩ hwhole
      rw [List.append_assoc, List.append_cancel_left_eq] at hbytes
      obtain ⟨done, left, hdrain, harrived⟩ := ih hmessages hbytes
      refine ⟨m :: done, left, ?_, harrived.cons m⟩
      rw [drain_of_frame (hm.whole more), hdrain]
      rfl
    · have hfront : bytes <+: encode m :=
        List.prefix_of_prefix_length_le ⟨rest, hbytes⟩ (List.prefix_append _ _) (by omega)
      have hne : bytes ≠ encode m := by
        rintro rfl
        exact hwhole (Nat.le_refl _)
      exact ⟨[], bytes, drain_of_incomplete (hm.part bytes hfront hne), .nil ⟨hfront, hne⟩⟩

/-- Chunks that go on with a stream bring its messages, each with the chunk of its last byte. -/
theorem feed_of_isPart (hpart : IsPart left messages) {chunks : List (List UInt8)}
    (hbytes : left ++ chunks.flatten = stream messages) :
    (codec.feed left chunks).1.flatten = messages.map .ok ∧ (codec.feed left chunks).2 = [] ∧
      ∀ k, ∃ done last, Arrived messages (left ++ (chunks.take k).flatten) done last ∧
        ((codec.feed left chunks).1.take k).flatten = done.map .ok := by
  -- What is left after a chunk is again a part of the messages that are still to come.
  induction chunks generalizing messages left with
  | nil =>
    rw [List.flatten_nil, List.append_nil] at hbytes
    obtain ⟨rfl, rfl⟩ := eq_nil_of_isPart hpart hbytes
    refine ⟨rfl, rfl, fun k => ⟨[], [], ?_, ?_⟩⟩
    · rw [List.take_nil]
      exact .nil rfl
    · rw [feed, List.take_nil]
      rfl
  | cons chunk chunks ih =>
    rw [List.flatten_cons, ← List.append_assoc] at hbytes
    obtain ⟨done, left', hdrain, harrived⟩ := drain_of_append h hbytes
    obtain ⟨hdone, todo, rfl, hpart'⟩ := harrived
    have hrest : left' ++ chunks.flatten = stream todo := by
      rw [hdone, List.append_assoc, stream_append] at hbytes
      exact List.append_cancel_left hbytes
    obtain ⟨hall, hlast, htimes⟩ :=
      ih (fun m hm => h m (List.mem_append_right done hm)) hpart' hrest
    simp only [feed, hdrain]
    refine ⟨by rw [List.flatten_cons, hall, List.map_append], hlast, fun k => ?_⟩
    cases k with
    | zero =>
      rw [List.take_zero, List.flatten_nil, List.append_nil]
      exact ⟨[], left, .nil hpart, rfl⟩
    | succ k =>
      obtain ⟨done', last, ⟨hbytes', todo', rfl, hlastPart⟩, hresults⟩ := htimes k
      refine ⟨done ++ done', last, ⟨?_, todo', (List.append_assoc ..).symm, hlastPart⟩, ?_⟩
      · rw [List.take_succ_cons, List.flatten_cons, ← List.append_assoc, hdone, List.append_assoc,
          hbytes', stream_append, List.append_assoc]
      · rw [List.take_succ_cons, List.flatten_cons, hresults, List.map_append]

end Delimited

/-! ### Messages that are built -/

/-- The messages that are built for a codec from requests and from replies. On a serial line they
are about functions of which the length is known there. -/
inductive Builds : FrameCodec → Message → Prop
  | request {header : Header} {r : Request} {m : Message} (h : Message.ofRequest header r = .ok m)
    (hs : header.framing = .rtu → r.IsSupported) : Builds ⟨header.framing, .request⟩ m
  | reply {header : Header} {reply : Reply} {m : Message} (h : Message.ofReply header reply = .ok m)
    (hcode : ∀ e, reply = .error e → header.framing = .rtu →
      0x01 ≤ e.function.code ∧ e.function.code ≤ 0x2B) : Builds ⟨header.framing, .response⟩ m

end FrameCodec

theorem Message.of_ofRequest {header : Header} {r : Request} {m : Message}
    (h : ofRequest header r = .ok m) : r.size ≤ 253 ∧ m = header.frame .request r.pdu := by
  unfold ofRequest at h
  split at h
  · cases h
  · rename_i hsize
    cases h
    exact ⟨Nat.le_of_not_lt hsize, rfl⟩

theorem Message.of_ofReply {header : Header} {reply : Reply} {m : Message}
    (h : ofReply header reply = .ok m) :
    reply.size ≤ 253 ∧ m = header.frame .response reply.pdu := by
  unfold ofReply at h
  split at h
  · cases h
  · rename_i hsize
    cases h
    exact ⟨Nat.le_of_not_lt hsize, rfl⟩

theorem Response.code_function (r : Response) :
    0x01 ≤ r.function.code ∧ r.function.code ≤ 0x2B := by
  cases r <;> simp only [function, FunctionCode.code] <;> decide

namespace FrameCodec

/-- A message that is built says where its frame ends. -/
theorem Builds.delimits {codec : FrameCodec} {m : Message} (h : codec.Builds m) :
    codec.Delimits (encode m) m := by
  cases h with
  | request h hs =>
    obtain ⟨hsize, rfl⟩ := Message.of_ofRequest h
    rw [Header.encode_frame]
    exact Request.delimits _ hs hsize
  | @reply header reply m h hcode =>
    obtain ⟨hsize, rfl⟩ := Message.of_ofReply h
    rw [Header.encode_frame]
    refine Reply.delimits _ hsize fun hrtu => ?_
    rcases reply with e | response
    · exact hcode e rfl hrtu
    · exact response.code_function

/-- However the bytes of messages that are built are divided into chunks, what is found after each
chunk are the messages that have come whole with it, and nothing is left after the last. -/
theorem feed_stream {codec : FrameCodec} {messages : List Message}
    (h : ∀ m ∈ messages, codec.Builds m) {chunks : List (List UInt8)}
    (hchunks : chunks.flatten = stream messages) :
    let (results, last) := codec.feed [] chunks
    results.flatten = messages.map .ok ∧ last = [] ∧
      ∀ k, ∃ done left, Arrived messages (chunks.take k).flatten done left ∧
        (results.take k).flatten = done.map .ok := by
  have hdelimits : ∀ m ∈ messages, codec.Delimits (encode m) m := fun m hm => (h m hm).delimits
  have hpart : IsPart [] messages := by
    cases messages with
    | nil => rfl
    | cons m rest =>
      exact ⟨List.nil_prefix, (hdelimits m List.mem_cons_self).ne_nil.symm⟩
  exact feed_of_isPart hdelimits hpart hchunks

/-- A request to write two registers and one to read them, on a serial line. The first chunk ends
within the registers of the first, the second chunk within the checksum of the second. -/
theorem feed_stream_requests :
    let codec := server .rtu
    let message := fun r : Request => (Header.rtu ⟨7⟩).frame .request r.pdu
    let write := message (.writeMultipleRegisters 3 [5, 256])
    let read := message (.readHoldingRegisters 3 2)
    let bytes := stream [write, read]
    let chunks := [bytes.take 9, (bytes.drop 9).take 11, bytes.drop 20]
    ((∀ m ∈ [write, read], codec.Builds m) ∧ chunks.flatten = bytes) ∧
      ((codec.feed [] chunks).1.flatten = [.ok write, .ok read] ∧ (codec.feed [] chunks).2 = []) ∧
      ∃ done left, Arrived [write, read] (chunks.take 2).flatten done left ∧
        ((codec.feed [] chunks).1.take 2).flatten = done.map .ok := by
  intro codec message write read bytes chunks
  have hmessage : ∀ r : Request, r.IsSupported → r.size ≤ 253 → codec.Builds (message r) := by
    intro r hs hsize
    have hbuilt : Message.ofRequest (.rtu ⟨7⟩) r = .ok (message r) :=
      if_neg (Nat.not_lt.mpr hsize)
    exact .request hbuilt fun _ => hs
  have hbuilds : ∀ m ∈ [write, read], codec.Builds m := by
    intro m hm
    simp only [List.mem_cons, List.not_mem_nil, or_false] at hm
    rcases hm with rfl | rfl
    · exact hmessage (.writeMultipleRegisters 3 [5, 256]) trivial (by decide)
    · exact hmessage (.readHoldingRegisters 3 2) trivial (by decide)
  have hchunks : chunks.flatten = bytes := by decide +kernel
  obtain ⟨hresults, hlast, htimes⟩ := feed_stream hbuilds hchunks
  exact ⟨⟨hbuilds, hchunks⟩, ⟨hresults, hlast⟩, htimes 2⟩

end FrameCodec

end Modbus

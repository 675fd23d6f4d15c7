import Modbus.Frame.Codec
import Modbus.Proofs.Pdu.RoundTrip

/-! Frames in a stream of bytes. The frame of a message is found as soon as all of its bytes are
there, whatever follows them, and never before. On a TCP stream this holds for every protocol data
unit, on a serial line for those whose length follows from their first bytes. -/

namespace Modbus

/-- The message that carries a protocol data unit under a header. -/
def Header.frame (header : Header) (role : Role) (pdu : List UInt8) : Message :=
  ⟨header.envelope pdu, role, pdu⟩

namespace Header

variable {header : Header} {role : Role} {pdu : List UInt8}

theorem header_frame : (header.frame role pdu).header = header := by
  cases header <;> rfl

theorem encode_frame : FrameCodec.encode (header.frame role pdu) = (header.frame role pdu).adu := by
  cases header <;> rfl

end Header

/-- The bytes are those of one frame of the message, and say themselves where it ends. -/
structure FrameCodec.Delimits (codec : FrameCodec) (bytes : List UInt8) (message : Message) :
    Prop where
  whole : ∀ rest, codec.split (bytes ++ rest) = .frame message rest
  part : ∀ front, front <+: bytes → front ≠ bytes → codec.split front = .incomplete

theorem FrameCodec.Delimits.ne_nil {codec : FrameCodec} {bytes : List UInt8} {message : Message}
    (h : codec.Delimits bytes message) : bytes ≠ [] := by
  rintro rfl
  have hwhole := h.whole []
  rcases codec with ⟨_ | _, role⟩ <;> cases hwhole

/-! ### TCP streams -/

namespace Mbap

variable {transaction : UInt16} {unit : UnitId} {role : Role} {pdu : List UInt8}

theorem adu_frame : ((Header.tcp transaction unit).frame role pdu).adu =
    (transaction >>> 8).toUInt8 :: transaction.toUInt8 :: 0 :: 0 ::
      (UInt16.ofNat (pdu.length + 1) >>> 8).toUInt8 :: (UInt16.ofNat (pdu.length + 1)).toUInt8 ::
        unit.value :: pdu := by
  simp only [Header.frame, Header.envelope, Message.adu, Envelope.front, Envelope.back,
    wordsBytes_cons, wordsBytes_nil, List.append_nil, List.cons_append, List.nil_append]
  rfl

/-- The end of the frame is told by its header. -/
theorem split_header {t₁ t₀ : UInt8} {length : Nat} {body : List UInt8} (h : 2 ≤ length)
    (h' : length ≤ 254) :
    split role (t₁ :: t₀ :: 0 :: 0 :: (UInt16.ofNat length >>> 8).toUInt8 ::
        (UInt16.ofNat length).toUInt8 :: unit.value :: body) =
      if body.length < length - 1 then .incomplete
      else .frame ⟨.tcp (wordOfBytes t₁ t₀) unit, role, body.take (length - 1)⟩
        (body.drop (length - 1)) := by
  have hlength : (UInt16.ofNat length).toNat = length := toNat_uint16OfNat (by omega)
  have hprotocol : ¬ wordOfBytes 0 0 ≠ 0 := by decide
  have hfits : ¬ (length < 2 ∨ Framing.tcp.maxFrameSize - 6 < length) := by
    rw [Framing.maxFrameSize]
    omega
  simp only [split, wordOfBytes_wordBytes, hlength, if_neg hprotocol, if_neg hfits]

theorem delimits (h : 0 < pdu.length) (h' : pdu.length ≤ 253) :
    FrameCodec.Delimits ⟨.tcp, role⟩ ((Header.tcp transaction unit).frame role pdu).adu
      ((Header.tcp transaction unit).frame role pdu) := by
  rw [adu_frame]
  constructor
  · intro rest
    simp only [FrameCodec.split, List.cons_append]
    rw [split_header (by omega) (by omega), if_neg (by simp)]
    simp only [Nat.add_sub_cancel, List.take_left', List.drop_left', wordOfBytes_wordBytes]
    rfl
  · intro front hfront hne
    rcases front with _ | ⟨b₁, _ | ⟨b₂, _ | ⟨b₃, _ | ⟨b₄, _ | ⟨b₅, _ | ⟨b₆, _ | ⟨b₇, body⟩⟩⟩⟩⟩⟩⟩
    case cons.cons.cons.cons.cons.cons.cons =>
      simp only [List.cons_prefix_cons] at hfront
      obtain ⟨rfl, rfl, rfl, rfl, rfl, rfl, rfl, hbody⟩ := hfront
      have hshort : body.length < pdu.length := by
        refine Nat.lt_of_le_of_ne hbody.length_le fun hlength => hne ?_
        rw [hbody.eq_of_length hlength]
      simp only [FrameCodec.split]
      rw [split_header (by omega) (by omega), if_pos (by omega)]
    all_goals rfl

end Mbap

/-! ### Serial lines -/

namespace Rtu

variable {role : Role} {code : UInt8} {fields : List UInt8}

/-- The length of the fields follows from the code and from those of them that have arrived. -/
structure Sized (role : Role) (code : UInt8) (fields : List UInt8) : Prop where
  whole : ∀ rest, payloadLength role code (fields ++ rest) = .known fields.length
  part : ∀ front, front <+: fields →
    payloadLength role code front = .pending ∨ payloadLength role code front = .known fields.length

theorem sized_of_known (h : ∀ front, payloadLength role code front = .known fields.length) :
    Sized role code fields :=
  ⟨fun _ => h _, fun front _ => .inr (h front)⟩

theorem sized_of_counted (offset fixed : Nat) {count : UInt8}
    (h : ∀ front, payloadLength role code front = counted front offset fixed)
    (hcount : fields[offset]? = some count) (hlength : fixed + count.toNat = fields.length) :
    Sized role code fields := by
  have hoffset : offset < fields.length := (List.getElem?_eq_some_iff.mp hcount).1
  constructor
  · intro rest
    rw [h, counted, List.getElem?_append_left hoffset, hcount, ← hlength]
  · rintro front ⟨rest, rfl⟩
    by_cases hfront : offset < front.length
    · rw [List.getElem?_append_left hfront] at hcount
      rw [h, counted, hcount, ← hlength]
      exact .inr rfl
    · rw [h, counted, List.getElem?_eq_none (by omega)]
      exact .inl rfl

variable {unit : UnitId}

theorem adu_frame {pdu : List UInt8} : ((Header.rtu unit).frame role pdu).adu =
    unit.value :: (pdu ++ wordBytes (checksum (unit.value :: pdu))) := by
  simp only [Header.frame, Header.envelope, Message.adu, Envelope.front, Envelope.back,
    List.cons_append, List.nil_append]

/-- A frame whose length is known is cut off as soon as its checksum is there. -/
theorem split_of_known {n : Nat} {unit : UInt8} {front : List UInt8}
    (h : payloadLength role code front = .known n) (hn : n ≤ 252) :
    split role (unit :: code :: front) = cut role (n + 4) (unit :: code :: front) := by
  have hfits : ¬ Framing.rtu.maxFrameSize < n + 4 := by
    rw [Framing.maxFrameSize]
    omega
  simp only [split, h, if_neg hfits]

section

variable (hsized : Sized role code fields) (hlength : fields.length ≤ 252) {unit hi lo : UInt8}
include hsized hlength

/-- When a frame whose length is known is there, its checksum decides what comes of it. -/
theorem split_of_sized (rest : List UInt8) :
    split role (unit :: code :: (fields ++ hi :: lo :: rest)) =
      if checksum (unit :: code :: fields) = wordOfBytes hi lo then
        .frame ⟨.rtu ⟨unit⟩ (wordOfBytes hi lo), role, code :: fields⟩ rest
      else .damaged (checksum (unit :: code :: fields)) (wordOfBytes hi lo) rest := by
  rw [split_of_known (hsized.whole _) hlength, cut]
  have hplace : fields.length + 4 - 3 = fields.length + 1 := rfl
  have hdrop : (code :: (fields ++ hi :: lo :: rest)).drop (fields.length + 4 - 3) =
      hi :: lo :: rest := by
    rw [hplace, List.drop_succ_cons, List.drop_left]
  have htake : (code :: (fields ++ hi :: lo :: rest)).take (fields.length + 4 - 3) =
      code :: fields := by
    rw [hplace, List.take_succ_cons, List.take_left]
  rw [hdrop, htake]

/-- A part of a frame whose length follows from its first bytes is not taken for a frame. -/
theorem split_of_part {front : List UInt8}
    (hfront : front <+: unit :: code :: (fields ++ [hi, lo]))
    (hne : front ≠ unit :: code :: (fields ++ [hi, lo])) : split role front = .incomplete := by
  rcases front with _ | ⟨b₁, _ | ⟨b₂, front⟩⟩
  · rfl
  · rfl
  simp only [List.cons_prefix_cons] at hfront
  obtain ⟨rfl, rfl, hfields⟩ := hfront
  have hshort : front.length < fields.length + 2 := by
    have hle : front.length ≤ fields.length + 2 := by simpa using hfields.length_le
    refine Nat.lt_of_le_of_ne hle fun heq => hne ?_
    rw [hfields.eq_of_length (by simpa using heq)]
  have hknown : payloadLength role b₂ front = .pending ∨
      payloadLength role b₂ front = .known fields.length := by
    by_cases hlong : fields.length ≤ front.length
    · obtain ⟨rest, rfl⟩ := List.prefix_of_prefix_length_le (List.prefix_append _ _) hfields hlong
      exact .inr (hsized.whole rest)
    · exact hsized.part front
        (List.prefix_of_prefix_length_le hfields (List.prefix_append _ _) (by omega))
  rcases hknown with hpending | hknown
  · simp only [split, hpending]
  · rw [split_of_known hknown hlength, cut]
    have hdrop : ((b₂ :: front).drop (fields.length + 4 - 3)).length < 2 := by
      rw [List.length_drop, List.length_cons]
      omega
    rcases hrest : (b₂ :: front).drop (fields.length + 4 - 3) with _ | ⟨b₁, _ | ⟨b₂, rest⟩⟩
    · rfl
    · rfl
    · rw [hrest] at hdrop
      simp only [List.length_cons] at hdrop
      omega

end

theorem delimits (hsized : Sized role code fields) (hlength : fields.length ≤ 252) :
    FrameCodec.Delimits ⟨.rtu, role⟩ ((Header.rtu unit).frame role (code :: fields)).adu
      ((Header.rtu unit).frame role (code :: fields)) := by
  rw [adu_frame]
  constructor
  · intro rest
    simp only [FrameCodec.split, wordBytes, List.cons_append, List.append_assoc, List.nil_append]
    rw [split_of_sized hsized hlength, wordOfBytes_wordBytes, if_pos rfl]
    rfl
  · intro front
    exact split_of_part hsized hlength

end Rtu

/-! ### Frames that are found -/

namespace Rtu

variable {role : Role} {buffer rest : List UInt8} {m : Message}

/-- What is cut off are the bytes of a message, as many as there should be, with their checksum. -/
theorem exists_of_cut {length : Nat} (hlength : 4 ≤ length)
    (h : cut role length buffer = .frame m rest) :
    ∃ unit hi lo pdu, buffer = unit :: (pdu ++ hi :: lo :: rest) ∧ pdu.length + 3 = length ∧
      checksum (unit :: pdu) = wordOfBytes hi lo ∧
      m = ⟨.rtu ⟨unit⟩ (wordOfBytes hi lo), role, pdu⟩ := by
  unfold cut at h
  split at h
  · cases h
  · rename_i unit body
    split at h
    · rename_i hi lo left hdrop
      dsimp only at h
      split at h
      · rename_i hsum
        cases h
        have hplace : length - 3 ≤ body.length := by
          have hleft := congrArg List.length hdrop
          rw [List.length_drop, List.length_cons] at hleft
          omega
        refine ⟨unit, hi, lo, body.take (length - 3), ?_, ?_, hsum, rfl⟩
        · rw [← hdrop, List.take_append_drop]
        · rw [List.length_take_of_le hplace]
          omega
      · cases h
    · cases h

/-- A frame that is found are the bytes of a message with their checksum. -/
theorem exists_of_split (h : split role buffer = .frame m rest) :
    ∃ unit hi lo pdu, buffer = unit :: (pdu ++ hi :: lo :: rest) ∧
      (1 ≤ pdu.length ∧ pdu.length ≤ 253) ∧ checksum (unit :: pdu) = wordOfBytes hi lo ∧
      m = ⟨.rtu ⟨unit⟩ (wordOfBytes hi lo), role, pdu⟩ := by
  obtain ⟨length, hmin, hmax, hcut⟩ : ∃ length, 4 ≤ length ∧ length ≤ 256 ∧
      cut role length buffer = .frame m rest := by
    unfold split at h
    split at h
    · split at h
      · cases h
      · split at h
        · cases h
        · rename_i n _ hfits
          exact ⟨n + 4, Nat.le_add_left 4 n, Nat.le_of_not_lt hfits, h⟩
      · split at h
        · cases h
        · rename_i hfits
          split at h
          · cases h
          · rename_i hlong
            split at h
            · rename_i hcut
              cases h
              exact ⟨_, Nat.le_of_not_lt hlong, Nat.le_of_not_lt hfits, hcut⟩
            · cases h
    · cases h
  obtain ⟨unit, hi, lo, pdu, hbuffer, hlength, hsum, hm⟩ := exists_of_cut hmin hcut
  exact ⟨unit, hi, lo, pdu, hbuffer, ⟨by omega, by omega⟩, hsum, hm⟩

end Rtu

/-- A frame that is found is of the framing of the codec, and there is something in it. -/
theorem FrameCodec.of_split {codec : FrameCodec} {buffer rest : List UInt8} {m : Message}
    (h : codec.split buffer = .frame m rest) : m.framing = codec.framing ∧ m.pdu ≠ [] := by
  rcases codec with ⟨_ | _, role⟩
  · obtain ⟨unit, hi, lo, pdu, -, ⟨hmin, -⟩, -, rfl⟩ := Rtu.exists_of_split h
    exact ⟨rfl, List.ne_nil_of_length_pos hmin⟩
  · simp only [split] at h
    unfold Mbap.split at h
    split at h
    · dsimp only at h
      split at h
      · cases h
      · split at h
        · cases h
        · rename_i hmin
          split at h
          · cases h
          · rename_i hbody
            cases h
            refine ⟨rfl, fun hnil => ?_⟩
            rw [List.take_eq_nil_iff] at hnil
            rcases hnil with hzero | rfl
            · omega
            · rw [List.length_nil] at hbody
              omega
    · cases h

/-! ### Bytes that cannot be a part of a frame -/

/-- As many bytes as the longest frame has decide what is at the front of them. -/
theorem Mbap.split_ne_incomplete {role : Role} {buffer : List UInt8} (h : 260 ≤ buffer.length) :
    Mbap.split role buffer ≠ .incomplete := by
  rcases buffer with _ | ⟨b₁, _ | ⟨b₂, _ | ⟨b₃, _ | ⟨b₄, _ | ⟨b₅, _ | ⟨b₆, _ | ⟨unit, body⟩⟩⟩⟩⟩⟩⟩
  case cons.cons.cons.cons.cons.cons.cons =>
    simp only [List.length_cons] at h
    unfold split
    dsimp only
    split
    · nofun
    · split
      · nofun
      · rename_i hfits
        rw [Framing.maxFrameSize] at hfits
        rw [if_neg (by omega)]
        nofun
  all_goals
    simp only [List.length_cons, List.length_nil] at h
    omega

namespace Rtu

theorem cut_ne_incomplete {role : Role} {length : Nat} {buffer : List UInt8} (hlength : 4 ≤ length)
    (h : length ≤ buffer.length) : cut role length buffer ≠ .incomplete := by
  rcases buffer with _ | ⟨unit, body⟩
  · rw [List.length_nil] at h
    omega
  · have hdrop : 2 ≤ (body.drop (length - 3)).length := by
      rw [List.length_cons] at h
      rw [List.length_drop]
      omega
    rw [cut]
    rcases hrest : body.drop (length - 3) with _ | ⟨b₁, _ | ⟨b₂, rest⟩⟩
    case cons.cons =>
      dsimp only
      split <;> nofun
    all_goals
      rw [hrest] at hdrop
      simp only [List.length_cons, List.length_nil] at hdrop
      omega

theorem responseLength_ne_pending {code : UInt8} {fields : List UInt8} (h : 2 ≤ fields.length) :
    responseLength code fields ≠ .pending := by
  have hcounted : counted fields 0 1 ≠ .pending := by
    rw [counted, List.getElem?_eq_getElem (by omega)]
    nofun
  obtain ⟨hi, lo, rest, rfl⟩ : ∃ hi lo rest, fields = hi :: lo :: rest := by
    rcases fields with _ | ⟨hi, _ | ⟨lo, rest⟩⟩
    case cons.cons => exact ⟨hi, lo, rest, rfl⟩
    all_goals
      simp only [List.length_cons, List.length_nil] at h
      omega
  unfold responseLength
  split
  · exact hcounted
  · repeat' split
    all_goals nofun

/-- More bytes than the longest frame has decide what is at the front of them, and as many do when
the length follows from the function. -/
theorem split_ne_incomplete {unit code : UInt8} {fields : List UInt8} (h : 254 ≤ fields.length)
    (hcode : fields.length = 254 → code = 0x01) :
    split .response (unit :: code :: fields) ≠ .incomplete := by
  have hpending : responseLength code fields ≠ .pending := responseLength_ne_pending (by omega)
  rw [split, payloadLength]
  rcases hlength : responseLength code fields with _ | _ | n
  · have hlong : Framing.rtu.maxFrameSize < (unit :: code :: fields).length := by
      have hne : fields.length ≠ 254 := by
        intro heq
        have hcounted : responseLength 0x01 fields = counted fields 0 1 := by
          unfold responseLength
          exact if_pos (by decide)
        rw [hcode heq, hcounted, counted, List.getElem?_eq_getElem (by omega)] at hlength
        cases hlength
      rw [Framing.maxFrameSize, List.length_cons, List.length_cons]
      omega
    dsimp only
    rw [if_pos hlong]
    nofun
  · exact (hpending hlength).elim
  · dsimp only
    split
    · nofun
    · rename_i hfits
      rw [Framing.maxFrameSize] at hfits
      refine cut_ne_incomplete (by omega) ?_
      rw [List.length_cons, List.length_cons]
      omega

end Rtu

/-- The longest response, without its last byte: it is the beginning of a frame, but behind other
bytes it is not. -/
theorem FrameCodec.exists_part (framing : Framing) : ∃ part : List UInt8, part ≠ [] ∧
    (client framing).split part = .incomplete ∧
    ∀ front, front ≠ [] → (client framing).split (front ++ part) ≠ .incomplete := by
  let fields : List UInt8 := 251 :: List.replicate 251 0
  have hfields : fields.length = 252 := by
    rw [List.length_cons, List.length_replicate]
  have hpart : ∀ {bytes : List UInt8} {message : Message},
      (client framing).Delimits bytes message →
        (client framing).split bytes.dropLast = .incomplete := by
    intro bytes message hframe
    refine hframe.part _ (List.dropLast_prefix bytes) fun heq => ?_
    have hlength := congrArg List.length heq
    have hpos := List.length_pos_iff.mpr hframe.ne_nil
    rw [List.length_dropLast] at hlength
    omega
  cases framing with
  | tcp =>
    have hframe : (client .tcp).Delimits _ ((Header.tcp 0 ⟨1⟩).frame .response (0x01 :: fields)) :=
      Mbap.delimits (by simp) (by simp [hfields])
    have hlength : ((Header.tcp 0 ⟨1⟩).frame .response (0x01 :: fields)).adu.length = 260 := by
      rw [Mbap.adu_frame]
      simp only [List.length_cons, hfields]
    refine ⟨_, ?_, hpart hframe, fun front hfront => ?_⟩
    · rw [← List.length_pos_iff, List.length_dropLast, hlength]
      decide
    · refine Mbap.split_ne_incomplete ?_
      have hpos := List.length_pos_iff.mpr hfront
      rw [List.length_append, List.length_dropLast, hlength]
      omega
  | rtu =>
    have hsized : Rtu.Sized .response 0x01 fields :=
      Rtu.sized_of_counted 0 1 (fun _ => rfl) rfl (by rw [hfields]; rfl)
    have hframe : (client .rtu).Delimits _ ((Header.rtu ⟨1⟩).frame .response (0x01 :: fields)) :=
      Rtu.delimits hsized (Nat.le_of_eq hfields)
    let tail := 0x01 :: fields ++ wordBytes (checksum (1 :: 0x01 :: fields))
    have htail : tail.dropLast.length = 254 := by
      rw [List.length_dropLast, List.length_append, List.length_cons, hfields]
      rfl
    have hadu : ((Header.rtu ⟨1⟩).frame .response (0x01 :: fields)).adu.dropLast =
        1 :: tail.dropLast := by
      rw [Rtu.adu_frame]
      exact List.dropLast_cons_of_ne_nil (List.cons_ne_nil _ _)
    refine ⟨_, ?_, hpart hframe, fun front hfront => ?_⟩
    · rw [hadu]
      exact List.cons_ne_nil _ _
    · rw [hadu]
      rcases front with _ | ⟨a, _ | ⟨b, front⟩⟩
      · exact (hfront rfl).elim
      · exact Rtu.split_ne_incomplete (Nat.le_of_eq htail.symm) fun _ => rfl
      · have hlong : 255 ≤ (front ++ 1 :: tail.dropLast).length := by
          rw [List.length_append, List.length_cons, htail]
          omega
        refine Rtu.split_ne_incomplete (Nat.le_of_succ_le hlong) fun hshort => ?_
        exact absurd hshort (Nat.ne_of_gt hlong)

end Modbus

import Modbus.Proofs.Frame.Chunks
import Modbus.Proofs.Frame.Stream

/-! What becomes of the bytes of a buffer. A look at its front leaves it as it is, takes one frame
from it, which is in order or damaged, or gives up all of it. So whoever goes on looking comes to an
end, and each byte has become part of one result or is left where it was. -/

namespace Modbus

/-- The most bytes of which it can be undecided what is at their front. -/
def Framing.maxUndecided : Framing → Nat
  | rtu => 256
  | tcp => 259

/-! ### The length of a frame on a serial line -/

namespace Rtu

variable {role : Role} {code : UInt8} {fields fields' : List UInt8}

/-- The places of the fields that the length of a frame depends on. -/
def countPlaces : Role → UInt8 → List Nat
  | .request, code => if code = 0x0F ∨ code = 0x10 then [4] else if code = 0x17 then [8] else []
  | .response, code =>
    if (0x01 ≤ code ∧ code ≤ 0x04) ∨ code = 0x0C ∨ code = 0x11 ∨ code = 0x17 then [0]
    else if code = 0x18 then [0, 1] else []

/-- How the length of a frame follows from its function code and its fields. -/
inductive Measures (role : Role) (code : UInt8) : Prop where
  | fixed (length : Length) (hlength : length ≠ .pending) (hplaces : countPlaces role code = [])
    (h : ∀ fields, payloadLength role code fields = length)
  | counted (offset fixed : Nat) (hfixed : offset < fixed)
    (hplaces : countPlaces role code = [offset])
    (h : ∀ fields, payloadLength role code fields = Rtu.counted fields offset fixed)
  | word (hplaces : countPlaces role code = [0, 1])
    (h : ∀ fields, payloadLength role code fields =
      match fields[0]?, fields[1]? with
      | some hi, some lo => .known (2 + (wordOfBytes hi lo).toNat)
      | _, _ => .pending)

theorem measures (role : Role) (code : UInt8) : Measures role code := by
  cases role with
  | request =>
    by_cases hmany : code = 0x0F ∨ code = 0x10
    · refine .counted 4 5 (by decide) (if_pos hmany) fun fields => ?_
      rcases hmany with rfl | rfl <;> rfl
    · by_cases hboth : code = 0x17
      · refine .counted 8 9 (by decide) ?_ fun fields => ?_
        · rw [countPlaces, if_neg hmany, if_pos hboth]
        · rw [hboth]
          rfl
      · refine .fixed (requestLength code []) ?_ ?_ fun fields => ?_
        · simp only [requestLength, if_neg hmany, if_neg hboth]
          repeat' split
          all_goals rintro ⟨⟩
        · rw [countPlaces, if_neg hmany, if_neg hboth]
        · simp only [payloadLength, requestLength, if_neg hmany, if_neg hboth]
  | response =>
    by_cases hcounted :
        (0x01 ≤ code ∧ code ≤ 0x04) ∨ code = 0x0C ∨ code = 0x11 ∨ code = 0x17
    · exact .counted 0 1 (by decide) (if_pos hcounted) fun fields => if_pos hcounted
    · by_cases hword : code = 0x18
      · refine .word ?_ fun fields => ?_
        · rw [countPlaces, if_neg hcounted, if_pos hword]
        · rw [hword]
          rcases fields with _ | ⟨hi, _ | ⟨lo, fields⟩⟩ <;> rfl
      · refine .fixed (responseLength code []) ?_ ?_ fun fields => ?_
        · simp only [responseLength, if_neg hcounted, if_neg hword]
          repeat' split
          all_goals rintro ⟨⟩
        · rw [countPlaces, if_neg hcounted, if_neg hword]
        · simp only [payloadLength, responseLength, if_neg hcounted, if_neg hword]

theorem le_of_mem_countPlaces {place : Nat} (h : place ∈ countPlaces role code) : place ≤ 8 := by
  unfold countPlaces at h
  repeat' split at h
  all_goals simp only [List.mem_cons, List.not_mem_nil, or_false] at h <;> omega

/-- As long as the length is open, not all the fields are there that it depends on. -/
theorem exists_place_of_pending (h : payloadLength role code fields = .pending) :
    ∃ place ∈ countPlaces role code, fields.length ≤ place := by
  rcases measures role code with
    ⟨length, hlength, -, hfixed⟩ | ⟨offset, fixed, -, hplaces, hcounted⟩ | ⟨hplaces, hword⟩
  · exact (hlength ((hfixed fields).symm.trans h)).elim
  · rw [hcounted, counted] at h
    split at h
    · cases h
    · rename_i hnone
      exact ⟨offset, by simp [hplaces], List.getElem?_eq_none_iff.mp hnone⟩
  · refine ⟨1, by simp [hplaces], ?_⟩
    by_contra hlong
    rw [hword, List.getElem?_eq_getElem (by omega), List.getElem?_eq_getElem (by omega)] at h
    cases h

theorem pending_of_place {place : Nat} (h : place ∈ countPlaces role code)
    (hmissing : fields.length ≤ place) : payloadLength role code fields = .pending := by
  rcases measures role code with
    ⟨length, -, hplaces, -⟩ | ⟨offset, fixed, -, hplaces, hcounted⟩ | ⟨hplaces, hword⟩
  · rw [hplaces] at h
    cases h
  · rw [hplaces, List.mem_singleton] at h
    rw [hcounted, counted, List.getElem?_eq_none (h ▸ hmissing)]
  · have hshort : fields.length ≤ 1 := by
      rw [hplaces] at h
      simp only [List.mem_cons, List.not_mem_nil, or_false] at h
      omega
    rw [hword, List.getElem?_eq_none hshort]
    split
    · contradiction
    · rfl

/-- The fields that the length depends on are among those that it counts. -/
theorem place_lt_of_known {n place : Nat} (h : payloadLength role code fields = .known n)
    (hplace : place ∈ countPlaces role code) : place < n := by
  rcases measures role code with
    ⟨length, -, hplaces, -⟩ | ⟨offset, fixed, hfixed, hplaces, hcounted⟩ | ⟨hplaces, hword⟩
  · rw [hplaces] at hplace
    cases hplace
  · rw [hplaces, List.mem_singleton] at hplace
    rw [hcounted, counted] at h
    split at h
    · cases h
      omega
    · cases h
  · rw [hplaces] at hplace
    simp only [List.mem_cons, List.not_mem_nil, or_false] at hplace
    rw [hword] at h
    split at h
    · cases h
      omega
    · cases h

theorem countPlaces_of_unknown (h : payloadLength role code fields = .unknown) :
    countPlaces role code = [] := by
  rcases measures role code with
    ⟨length, -, hplaces, -⟩ | ⟨offset, fixed, -, -, hcounted⟩ | ⟨-, hword⟩
  · exact hplaces
  · rw [hcounted, counted] at h
    split at h <;> cases h
  · rw [hword] at h
    split at h <;> cases h

/-- Fields that are the same in these places say the same length. -/
theorem payloadLength_congr
    (h : ∀ place ∈ countPlaces role code, fields'[place]? = fields[place]?) :
    payloadLength role code fields' = payloadLength role code fields := by
  rcases measures role code with
    ⟨length, -, -, hfixed⟩ | ⟨offset, fixed, -, hplaces, hcounted⟩ | ⟨hplaces, hword⟩
  · rw [hfixed, hfixed]
  · rw [hcounted, hcounted, counted, counted, h offset (by simp [hplaces])]
  · have hfirst := h 0 (by simp [hplaces])
    have hsecond := h 1 (by simp [hplaces])
    rw [hword, hword, hfirst, hsecond]

/-! ### What is found on a serial line -/

variable {buffer rest : List UInt8}

theorem length_of_incomplete (h : split role buffer = .incomplete) : buffer.length ≤ 256 := by
  have hcut : ∀ {length}, 4 ≤ length → length ≤ 256 → cut role length buffer = .incomplete →
      buffer.length ≤ 256 := by
    intro length hmin hmax hcut
    have hshort : ¬ length ≤ buffer.length := fun hle => cut_ne_incomplete hmin hle hcut
    omega
  unfold split at h
  split at h
  · rename_i unit code fields
    split at h
    · rename_i hpending
      obtain ⟨place, hplace, hle⟩ := exists_place_of_pending hpending
      have hmax := le_of_mem_countPlaces hplace
      simp only [List.length_cons]
      omega
    · rename_i n hknown
      split at h
      · cases h
      · rename_i hfits
        exact hcut (Nat.le_add_left 4 n) (Nat.le_of_not_lt hfits) h
    · split at h
      · cases h
      · rename_i hfits
        exact Nat.le_of_not_lt hfits
  · rename_i hshort
    rcases buffer with _ | ⟨unit, _ | ⟨code, fields⟩⟩
    · exact Nat.zero_le 256
    · exact Nat.le_add_left 1 255
    · exact (hshort unit code fields rfl).elim

/-- A frame that is found to be damaged are bytes and a word that is not their checksum. -/
theorem exists_of_damaged {expected actual : UInt16}
    (h : split role buffer = .damaged expected actual rest) :
    ∃ front hi lo, buffer = front ++ hi :: lo :: rest ∧
      (2 ≤ front.length ∧ front.length ≤ 254) ∧ expected = checksum front ∧
      actual = wordOfBytes hi lo ∧ checksum front ≠ wordOfBytes hi lo := by
  obtain ⟨length, hmin, hmax, hcut⟩ : ∃ length, 4 ≤ length ∧ length ≤ 256 ∧
      cut role length buffer = .damaged expected actual rest := by
    unfold split at h
    split at h
    · split at h
      · cases h
      · split at h
        · cases h
        · rename_i n _ hfits
          exact ⟨n + 4, Nat.le_add_left 4 n, Nat.le_of_not_lt hfits, h⟩
      · repeat' split at h
        all_goals cases h
    · cases h
  unfold cut at hcut
  split at hcut
  · cases hcut
  · rename_i unit body
    split at hcut
    · rename_i hi lo left hdrop
      dsimp only at hcut
      split at hcut
      · cases hcut
      · rename_i hsum
        cases hcut
        have hplace : length - 3 ≤ body.length := by
          have hleft := congrArg List.length hdrop
          rw [List.length_drop, List.length_cons] at hleft
          omega
        refine ⟨unit :: body.take (length - 3), hi, lo, ?_, ?_, rfl, rfl, hsum⟩
        · rw [← hdrop, List.cons_append, List.take_append_drop]
        · rw [List.length_cons, List.length_take_of_le hplace]
          omega
    · cases hcut

end Rtu

/-! ### What is found on a TCP stream -/

namespace Mbap

variable {role : Role} {buffer rest : List UInt8}

theorem length_of_incomplete (h : split role buffer = .incomplete) : buffer.length ≤ 259 := by
  by_contra hlong
  exact split_ne_incomplete (by omega) h

theorem exists_of_split {m : Message} (h : split role buffer = .frame m rest) :
    ∃ transaction unit pdu, m = ⟨.tcp transaction unit, role, pdu⟩ ∧
      1 ≤ pdu.length ∧ pdu.length ≤ 253 := by
  unfold split at h
  split at h
  · dsimp only at h
    split at h
    · cases h
    · split at h
      · cases h
      · rename_i hlength
        split at h
        · cases h
        · rename_i hbody
          cases h
          rw [Framing.maxFrameSize] at hlength
          refine ⟨_, _, _, rfl, ?_⟩
          rw [List.length_take]
          omega
  · cases h

end Mbap

/-! ### What a look comes to -/

namespace FrameCodec

/-- The message is as a frame of the codec has to be: its checksum is that of the bytes before it,
or its header has no other protocol identifier than zero and counts the bytes behind it. -/
structure Admits (codec : FrameCodec) (m : Message) : Prop where
  framing : m.framing = codec.framing
  role : m.role = codec.role
  size : 1 ≤ m.pdu.length ∧ m.pdu.length ≤ 253
  checksum : codec.framing = .rtu →
    ∃ front hi lo, m.adu = front ++ [hi, lo] ∧ Modbus.checksum front = wordOfBytes hi lo
  header : codec.framing = .tcp → Mbap.IsFrame m.adu

/-- A look at the front of a buffer comes to `result` and leaves bytes of it: all of them if there
is no result, what follows a frame if there is one, and none if nothing says where it ends. -/
inductive Finds (codec : FrameCodec) :
    List UInt8 → Option (Except Error Message) → List UInt8 → Prop
  | nothing {buffer : List UInt8} (h : buffer.length ≤ codec.framing.maxUndecided) :
    Finds codec buffer none buffer
  | frame {m : Message} {rest : List UInt8} (h : codec.Admits m) :
    Finds codec (m.adu ++ rest) (some (.ok m)) rest
  | damaged {front : List UInt8} {hi lo : UInt8} {rest : List UInt8} (hrtu : codec.framing = .rtu)
    (hsize : 2 ≤ front.length ∧ front.length ≤ 254)
    (hsum : Modbus.checksum front ≠ wordOfBytes hi lo) :
    Finds codec (front ++ hi :: lo :: rest)
      (some (.error (.ofChecksum (Modbus.checksum front) (wordOfBytes hi lo)))) rest
  | invalid {buffer : List UInt8} {fault : FrameFault} (h : buffer ≠ []) :
    Finds codec buffer (some (.error (.ofFault fault))) []

/-- Looks at a buffer, each at what the one before has left, come to these results. -/
inductive Spends (codec : FrameCodec) :
    List UInt8 → List (Except Error Message) → List UInt8 → Prop
  | nil {buffer : List UInt8} : Spends codec buffer [] buffer
  | cons {buffer rest left : List UInt8} {result : Except Error Message}
    {results : List (Except Error Message)} (h : codec.Finds buffer (some result) rest)
    (hrest : Spends codec rest results left) : Spends codec buffer (result :: results) left

variable {codec : FrameCodec} {buffer rest left : List UInt8}

/-- What is left of a buffer are its last bytes as they were. -/
theorem Finds.isSuffix {result : Option (Except Error Message)}
    (h : codec.Finds buffer result rest) : rest <:+ buffer := by
  cases h with
  | nothing => exact List.suffix_rfl
  | frame => exact List.suffix_append _ _
  | @damaged front hi lo => exact ⟨front ++ [hi, lo], by simp⟩
  | invalid => exact List.nil_suffix

theorem Spends.isSuffix {results : List (Except Error Message)}
    (h : codec.Spends buffer results left) : left <:+ buffer := by
  induction h with
  | nil => exact List.suffix_rfl
  | cons hfinds _ ih => exact ih.trans hfinds.isSuffix

theorem ne_nil_of_split (h : codec.split buffer ≠ .incomplete) : buffer ≠ [] := by
  rintro rfl
  rcases codec with ⟨_ | _, role⟩ <;> exact h rfl

/-- A frame that is found is as it has to be, and the buffer begins with its bytes. -/
theorem admits_of_split {m : Message} (h : codec.split buffer = .frame m rest) :
    codec.Admits m ∧ buffer = m.adu ++ rest := by
  rcases codec with ⟨_ | _, role⟩
  · obtain ⟨unit, hi, lo, pdu, rfl, hsize, hsum, rfl⟩ := Rtu.exists_of_split h
    have hadu : Message.adu ⟨.rtu ⟨unit⟩ (wordOfBytes hi lo), role, pdu⟩ =
        (unit :: pdu) ++ [hi, lo] := by
      simp [Message.adu, Envelope.front, Envelope.back, wordBytes_wordOfBytes]
    refine ⟨⟨rfl, rfl, hsize, fun _ => ⟨_, hi, lo, hadu, hsum⟩, by rintro ⟨⟩⟩, ?_⟩
    rw [hadu]
    simp
  · obtain ⟨hframe, hbuffer⟩ := Mbap.isFrame_of_split h
    obtain ⟨transaction, unit, pdu, rfl, hsize⟩ := Mbap.exists_of_split h
    exact ⟨⟨rfl, rfl, hsize, by rintro ⟨⟩, fun _ => hframe⟩, hbuffer⟩

theorem length_of_incomplete (h : codec.split buffer = .incomplete) :
    buffer.length ≤ codec.framing.maxUndecided := by
  rcases codec with ⟨_ | _, role⟩
  · exact Rtu.length_of_incomplete h
  · exact Mbap.length_of_incomplete h

theorem finds_of_damaged {expected actual : UInt16}
    (h : codec.split buffer = .damaged expected actual rest) :
    codec.Finds buffer (some (.error (.ofChecksum expected actual))) rest := by
  rcases codec with ⟨_ | _, role⟩
  · obtain ⟨front, hi, lo, rfl, hsize, rfl, rfl, hsum⟩ := Rtu.exists_of_damaged h
    exact .damaged rfl hsize hsum
  · simp only [split] at h
    unfold Mbap.split at h
    dsimp only at h
    repeat' split at h
    all_goals cases h

theorem incomplete_of_outcome? (h : (codec.split buffer).outcome? = none) :
    codec.split buffer = .incomplete := by
  cases hsplit : codec.split buffer with
  | incomplete => rfl
  | _ =>
    rw [hsplit] at h
    cases h

theorem splitTimes_of_incomplete (h : (codec.split buffer).outcome? = none) (n : Nat) :
    codec.splitTimes n buffer = (List.replicate n none, buffer) := by
  induction n with
  | zero => rfl
  | succ n ih =>
    rw [splitTimes, h]
    simp only [ih]
    rfl

/-- A look at a buffer, whatever is in it, comes to one result, and accounts for each byte. -/
theorem finds_of_split (codec : FrameCodec) (buffer : List UInt8) :
    match (codec.split buffer).outcome? with
    | none => codec.Finds buffer none buffer
    | some (result, rest) => codec.Finds buffer (some result) rest := by
  rcases hsplit : codec.split buffer with _ | ⟨m, rest⟩ | ⟨expected, actual, rest⟩ | fault
  · exact .nothing (length_of_incomplete hsplit)
  · obtain ⟨hadmits, rfl⟩ := admits_of_split hsplit
    exact .frame hadmits
  · exact finds_of_damaged hsplit
  · have hne : codec.split buffer ≠ .incomplete := by
      rw [hsplit]
      nofun
    exact .invalid (ne_nil_of_split hne)

/-- Looking on comes to an end, at bytes of which it is undecided what is at their front. -/
theorem exists_spends (codec : FrameCodec) (buffer : List UInt8) :
    ∃ results left, results.length ≤ buffer.length ∧ codec.Spends buffer results left ∧
      codec.split left = .incomplete ∧
      ∀ n, codec.splitTimes (results.length + n) buffer =
        (results.map some ++ List.replicate n none, left) := by
  -- The looks follow each other as in draining the buffer.
  induction buffer using drain.induct codec with
  | case1 buffer hnone =>
    refine ⟨[], buffer, Nat.zero_le _, .nil, incomplete_of_outcome? hnone, fun n => ?_⟩
    rw [List.length_nil, Nat.zero_add]
    exact splitTimes_of_incomplete hnone n
  | case2 buffer result rest hsome _ _ _ ih =>
    obtain ⟨results, left, hle, hspends, hleft, htimes⟩ := ih
    have hless := length_of_outcome? hsome
    have hfinds := finds_of_split codec buffer
    rw [hsome] at hfinds
    refine ⟨result :: results, left, ?_, .cons hfinds hspends, hleft, fun n => ?_⟩
    · rw [List.length_cons]
      omega
    · rw [List.length_cons, Nat.add_right_comm, splitTimes, hsome]
      simp only [htimes n, List.map_cons, List.cons_append]

/-- Whatever is in a buffer, a look at it comes to one result and accounts for each byte. Looking on
comes to an end after no more results than there are bytes, and leaves the last bytes as they
were. -/
theorem splitTimes_accounts (codec : FrameCodec) (buffer : List UInt8) :
    (∃ result left, codec.splitTimes 1 buffer = ([result], left) ∧
      codec.Finds buffer result left) ∧
    ∃ results left, results.length ≤ buffer.length ∧ codec.Spends buffer results left ∧
      left <:+ buffer ∧ codec.Finds left none left ∧
      ∀ n, codec.splitTimes (results.length + n) buffer =
        (results.map some ++ List.replicate n none, left) := by
  constructor
  · have hfinds := finds_of_split codec buffer
    rcases houtcome : (codec.split buffer).outcome? with _ | ⟨result, rest⟩
    · rw [houtcome] at hfinds
      exact ⟨none, buffer, splitTimes_of_incomplete houtcome 1, hfinds⟩
    · rw [houtcome] at hfinds
      refine ⟨some result, rest, ?_, hfinds⟩
      rw [splitTimes, houtcome]
      rfl
  · obtain ⟨results, left, hle, hspends, hleft, htimes⟩ := exists_spends codec buffer
    exact ⟨results, left, hle, hspends, hspends.isSuffix, .nothing (length_of_incomplete hleft),
      htimes⟩

end FrameCodec

end Modbus

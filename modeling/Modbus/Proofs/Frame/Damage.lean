import Modbus.Error
import Modbus.Proofs.Frame.Checksum
import Modbus.Proofs.Frame.Delimits

/-! Frames that have been damaged on a serial line. As long as the function code and the byte count
are left as they are, a receiver knows where such a frame ends. If no more than two adjacent bytes
are damaged, it also finds out, and loses that frame only. -/

namespace Modbus

/-- The bytes are those of one frame, of which `result` comes, and say themselves where it ends. -/
structure FrameCodec.Yields (codec : FrameCodec) (bytes : List UInt8)
    (result : Except Error Message) : Prop where
  whole : ∀ rest, (codec.split (bytes ++ rest)).outcome? = some (result, rest)
  part : ∀ front, front <+: bytes → front ≠ bytes → codec.split front = .incomplete

namespace FrameCodec

variable {codec : FrameCodec} {bytes : List UInt8} {result : Except Error Message}

theorem Delimits.yields {message : Message} (h : codec.Delimits bytes message) :
    codec.Yields bytes (.ok message) := by
  refine ⟨fun rest => ?_, h.part⟩
  rw [h.whole rest, Split.outcome?]

theorem split_nil (codec : FrameCodec) : codec.split [] = .incomplete := by
  rcases codec with ⟨_ | _, role⟩ <;> rfl

theorem Yields.ne_nil (h : codec.Yields bytes result) : bytes ≠ [] := by
  rintro rfl
  have hwhole := h.whole []
  rw [List.append_nil, split_nil] at hwhole
  cases hwhole

theorem Yields.unique {result' : Except Error Message} (h : codec.Yields bytes result)
    (h' : codec.Yields bytes result') : result = result' := by
  have heq := (h.whole []).symm.trans (h'.whole [])
  simpa using heq

end FrameCodec

namespace Rtu

variable {code : UInt8} {fields fields' : List UInt8}

/-- The place of the byte count in the frame of a request, if it has one. -/
def countPlace? (code : UInt8) : Option Nat :=
  if code = 0x0F ∨ code = 0x10 then some 6 else if code = 0x17 then some 10 else none

/-- The frame of a request of function `code` has arrived with other bytes in one or two adjacent
places, neither that of the function code nor that of the byte count. -/
structure Damages (code : UInt8) (bytes damaged : List UInt8) : Prop where
  adjacent : ∃ front x y x' y' back,
    bytes = front ++ x :: y :: back ∧ damaged = front ++ x' :: y' :: back
  ne : damaged ≠ bytes
  function : damaged[1]? = bytes[1]?
  count : ∀ place, countPlace? code = some place → damaged[place]? = bytes[place]?

theorem Damages.length_eq {bytes damaged : List UInt8} (h : Damages code bytes damaged) :
    damaged.length = bytes.length := by
  obtain ⟨front, x, y, x', y', back, rfl, rfl⟩ := h.adjacent
  simp only [List.length_append, List.length_cons]

/-! ### The length of a damaged frame -/

/-- The length of a request follows from its function alone, or also from its byte count. -/
theorem requestLength_cases (code : UInt8) :
    (∃ length, ∀ fields, requestLength code fields = length) ∨
    ∃ offset fixed, countPlace? code = some (offset + 2) ∧
      ∀ fields, requestLength code fields = counted fields offset fixed := by
  unfold requestLength countPlace?
  by_cases hmany : code = 0x0F ∨ code = 0x10
  · refine .inr ⟨4, 5, if_pos hmany, fun fields => ?_⟩
    rcases hmany with rfl | rfl <;> rfl
  · by_cases hboth : code = 0x17
    · refine .inr ⟨8, 9, by rw [if_neg hmany, if_pos hboth], fun fields => ?_⟩
      rw [hboth]
      rfl
    · simp only [if_neg hmany, if_neg hboth]
      exact .inl ⟨_, fun _ => rfl⟩

theorem sized_of_requestLength (h : requestLength code fields = .known fields.length) :
    Sized .request code fields := by
  rcases requestLength_cases code with ⟨length, hconst⟩ | ⟨offset, fixed, -, hcounted⟩
  · refine sized_of_known fun front => ?_
    rw [payloadLength, hconst, ← h, hconst]
  · rw [hcounted, counted] at h
    split at h
    · rename_i count hcount
      exact sized_of_counted offset fixed hcounted hcount (Length.known.inj h)
    · cases h

/-- Fields of the same number with the same byte count say the same length. -/
theorem requestLength_of_count {tail tail' : List UInt8} (hlength : fields'.length = fields.length)
    (hcount : ∀ offset, countPlace? code = some (offset + 2) →
      (fields' ++ tail')[offset]? = (fields ++ tail)[offset]?)
    (h : requestLength code fields = .known fields.length) :
    requestLength code fields' = .known fields'.length := by
  rw [hlength, ← h]
  rcases requestLength_cases code with ⟨length, hconst⟩ | ⟨offset, fixed, hplace, hcounted⟩
  · rw [hconst, hconst]
  · have hoffset : offset < fields.length := by
      rw [hcounted, counted] at h
      split at h
      · rename_i count hfound
        exact (List.getElem?_eq_some_iff.mp hfound).1
      · cases h
    have hsame := hcount offset hplace
    rw [List.getElem?_append_left hoffset,
      List.getElem?_append_left (hlength ▸ hoffset)] at hsame
    rw [hcounted, hcounted, counted, counted, hsame]

/-! ### What comes of a damaged frame -/

variable {unit hi lo : UInt8} {damaged : List UInt8}

/-- A damaged frame differs from the one that was sent in all but its form. -/
theorem Damages.exists_fields
    (h : Damages code (unit :: code :: (fields ++ [hi, lo])) damaged) :
    ∃ unit' fields' hi' lo', damaged = unit' :: code :: (fields' ++ [hi', lo']) ∧
      fields'.length = fields.length := by
  have hlength := h.length_eq
  simp only [List.length_cons, List.length_append, List.length_nil] at hlength
  obtain ⟨unit', code', body, rfl⟩ : ∃ unit' code' body, damaged = unit' :: code' :: body := by
    rcases damaged with _ | ⟨unit', _ | ⟨code', body⟩⟩
    · simp at hlength
    · simp at hlength
    · exact ⟨unit', code', body, rfl⟩
  have hcode : code' = code := by simpa using h.function
  have hbody : body.length = fields.length + 2 := by simpa using hlength
  have htail : (body.drop fields.length).length = 2 := by
    rw [List.length_drop]
    omega
  obtain ⟨hi', lo', hsum⟩ : ∃ hi' lo', body.drop fields.length = [hi', lo'] := by
    rcases hdrop : body.drop fields.length with _ | ⟨hi', _ | ⟨lo', _ | ⟨b, rest⟩⟩⟩
    case cons.cons.nil => exact ⟨hi', lo', rfl⟩
    all_goals
      rw [hdrop] at htail
      simp at htail
  refine ⟨unit', body.take fields.length, hi', lo', ?_, ?_⟩
  · rw [hcode, ← hsum, List.take_append_drop]
  · rw [List.length_take]
    omega

/-- A frame that is damaged within two adjacent bytes is found to be damaged, and nothing behind it
is touched. -/
theorem yields_of_damages {unit : UnitId} (hknown : requestLength code fields = .known fields.length)
    (hlength : fields.length ≤ 252)
    (h : Damages code ((Header.rtu unit).frame .request (code :: fields)).adu damaged) :
    ∃ expected actual,
      FrameCodec.Yields ⟨.rtu, .request⟩ damaged (.error (.ofChecksum expected actual)) := by
  rw [adu_frame, wordBytes, List.cons_append] at h
  obtain ⟨unit', fields', hi', lo', rfl, hlength'⟩ := h.exists_fields
  have hsized : Sized .request code fields' := by
    apply sized_of_requestLength
    exact requestLength_of_count hlength' (fun offset hplace => h.count (offset + 2) hplace) hknown
  have hsum : checksum (unit' :: code :: fields') ≠ wordOfBytes hi' lo' := by
    obtain ⟨front, x, y, x', y', back, hsent, hcame⟩ := h.adjacent
    have hown := (wordOfBytes_wordBytes (checksum (unit.value :: code :: fields))).symm
    exact checksum_ne_of_damaged hown hsent hcame h.ne
  have hfits : fields'.length ≤ 252 := Nat.le_trans (Nat.le_of_eq hlength') hlength
  refine ⟨checksum (unit' :: code :: fields'), wordOfBytes hi' lo', fun rest => ?_, fun front => ?_⟩
  · rw [List.cons_append, List.cons_append, List.append_assoc]
    show (split .request (unit' :: code :: (fields' ++ hi' :: lo' :: rest))).outcome? = _
    rw [split_of_sized hsized hfits, if_neg hsum]
    rfl
  · exact split_of_part hsized hfits

end Rtu

end Modbus

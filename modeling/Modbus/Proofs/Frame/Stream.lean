import Modbus.Proofs.Frame.Delimits

/-! The frames of a TCP stream. They follow each other from the first byte on, and the header of
each says where it ends. Whatever comes later does not change those that are complete. -/

namespace Modbus.Mbap

/-- The size of the first frame of a stream, if its header is valid and it is complete. -/
def firstSize? : List UInt8 → Option Nat
  | _ :: _ :: p₁ :: p₀ :: l₁ :: l₀ :: rest =>
    let length := (wordOfBytes l₁ l₀).toNat
    if wordOfBytes p₁ p₀ = 0 ∧ 2 ≤ length ∧ length ≤ 254 ∧ length ≤ rest.length then
      some (6 + length)
    else none
  | _ => none

theorem firstSize?_bounds {bytes : List UInt8} {n : Nat} (h : firstSize? bytes = some n) :
    8 ≤ n ∧ n ≤ bytes.length := by
  unfold firstSize? at h
  split at h
  · simp only [Option.ite_none_right_eq_some, Option.some.injEq] at h
    obtain ⟨⟨-, hmin, -, hfits⟩, rfl⟩ := h
    simp only [List.length_cons]
    omega
  · cases h

/-- The frames of a stream, up to the first one that is not complete or has no valid header. -/
def frames (bytes : List UInt8) : List (List UInt8) :=
  match _h : firstSize? bytes with
  | some n => bytes.take n :: frames (bytes.drop n)
  | none => []
termination_by bytes.length
decreasing_by
  have hbounds := firstSize?_bounds _h
  rw [List.length_drop]
  omega

theorem frames_of_firstSize? {bytes : List UInt8} {n : Nat} (h : firstSize? bytes = some n) :
    frames bytes = bytes.take n :: frames (bytes.drop n) := by
  rw [frames]
  split
  · rename_i m hm
    obtain rfl : n = m := Option.some.inj (h.symm.trans hm)
    rfl
  · rename_i hnone
    rw [h] at hnone
    cases hnone

theorem frames_of_firstSize?_eq_none {bytes : List UInt8} (h : firstSize? bytes = none) :
    frames bytes = [] := by
  rw [frames]
  split
  · rename_i n hn
    rw [h] at hn
    cases hn
  · rfl

/-- The bytes are one frame. -/
def IsFrame (f : List UInt8) : Prop := firstSize? f = some f.length

variable {f bytes rest : List UInt8}

theorem IsFrame.ne_nil (h : IsFrame f) : f ≠ [] := by
  rintro rfl
  cases h

theorem IsFrame.firstSize?_append (h : IsFrame f) (rest : List UInt8) :
    firstSize? (f ++ rest) = some f.length := by
  unfold IsFrame firstSize? at h
  split at h
  · rename_i t₁ t₀ p₁ p₀ l₁ l₀ body
    simp only [Option.ite_none_right_eq_some, Option.some.injEq, List.length_cons] at h
    obtain ⟨⟨hprotocol, hmin, hmax, -⟩, hlength⟩ := h
    simp only [firstSize?, List.cons_append, List.length_append, List.length_cons]
    rw [if_pos ⟨hprotocol, hmin, hmax, by omega⟩, hlength]
  · cases h

theorem IsFrame.frames_append (h : IsFrame f) (rest : List UInt8) :
    frames (f ++ rest) = f :: frames rest := by
  rw [frames_of_firstSize? (h.firstSize?_append rest), List.take_left, List.drop_left]

theorem frames_flatten_append {fs : List (List UInt8)} (h : ∀ f ∈ fs, IsFrame f)
    (rest : List UInt8) : frames (fs.flatten ++ rest) = fs ++ frames rest := by
  induction fs with
  | nil => rfl
  | cons f fs ih =>
    rw [List.flatten_cons, List.append_assoc, (h f List.mem_cons_self).frames_append,
      ih fun g hg => h g (List.mem_cons_of_mem f hg), List.cons_append]

/-- The first frame of a stream begins with the first byte of the stream. -/
theorem head?_of_frames_eq_cons {fs : List (List UInt8)} (h : frames bytes = f :: fs) :
    f.head? = bytes.head? := by
  rcases hsize : firstSize? bytes with _ | n
  · rw [frames_of_firstSize?_eq_none hsize] at h
    cases h
  · rw [frames_of_firstSize? hsize] at h
    obtain ⟨rfl, -⟩ := List.cons.inj h
    have hbounds := firstSize?_bounds hsize
    rw [List.head?_take, if_neg (by omega)]

/-- The bytes of a message that is read behind a header are the header and what it counts. -/
theorem adu_of_header {role : Role} {t₁ t₀ p₁ p₀ l₁ l₀ unit : UInt8} {pdu : List UInt8}
    (hprotocol : wordOfBytes p₁ p₀ = 0) (hlength : pdu.length + 1 = (wordOfBytes l₁ l₀).toNat) :
    Message.adu ⟨.tcp (wordOfBytes t₁ t₀) ⟨unit⟩, role, pdu⟩ =
      t₁ :: t₀ :: p₁ :: p₀ :: l₁ :: l₀ :: unit :: pdu := by
  have hfront : wordsBytes [wordOfBytes t₁ t₀, 0, UInt16.ofNat (pdu.length + 1)] =
      [t₁, t₀, p₁, p₀, l₁, l₀] := by
    rw [hlength, UInt16.ofNat_toNat, ← hprotocol]
    show wordBytes _ ++ (wordBytes _ ++ wordBytes _) = _
    simp only [wordBytes_wordOfBytes, List.cons_append, List.nil_append]
  simp only [Message.adu, Envelope.front, Envelope.back, hfront, List.append_nil, List.cons_append,
    List.nil_append]

/-- A frame that is found at the front of a buffer is the first frame of what is in the buffer. -/
theorem isFrame_of_split {role : Role} {m : Message} (h : split role bytes = .frame m rest) :
    IsFrame m.adu ∧ bytes = m.adu ++ rest := by
  unfold split at h
  split at h
  · rename_i t₁ t₀ p₁ p₀ l₁ l₀ unit body
    dsimp only at h
    split at h
    · cases h
    · rename_i hprotocol
      split at h
      · cases h
      · rename_i hlength
        split at h
        · cases h
        · rename_i hbody
          cases h
          rw [Framing.maxFrameSize] at hlength
          have hprotocol' : wordOfBytes p₁ p₀ = 0 := Decidable.of_not_not hprotocol
          have hsize : (body.take ((wordOfBytes l₁ l₀).toNat - 1)).length + 1 =
              (wordOfBytes l₁ l₀).toNat := by
            rw [List.length_take]
            omega
          rw [adu_of_header hprotocol' hsize]
          constructor
          · simp only [IsFrame, firstSize?, List.length_cons]
            rw [if_pos ⟨hprotocol', by omega, by omega, by omega⟩, Option.some.injEq]
            omega
          · simp only [List.cons_append, List.take_append_drop]
  · cases h

/-- A frame at the front of a buffer is found. -/
theorem IsFrame.split_append (h : IsFrame f) (role : Role) (rest : List UInt8) :
    ∃ m, split role (f ++ rest) = .frame m rest ∧ m.adu = f := by
  unfold IsFrame firstSize? at h
  split at h
  · rename_i t₁ t₀ p₁ p₀ l₁ l₀ body
    simp only [Option.ite_none_right_eq_some, Option.some.injEq, List.length_cons] at h
    obtain ⟨⟨hprotocol, hmin, hmax, -⟩, hlength⟩ := h
    rcases body with _ | ⟨unit, pdu⟩
    · simp only [List.length_nil] at hlength
      omega
    · rw [List.length_cons] at hlength
      have hpdu : (wordOfBytes l₁ l₀).toNat - 1 = pdu.length := by omega
      have hfits : ¬ ((wordOfBytes l₁ l₀).toNat < 2 ∨
          Framing.tcp.maxFrameSize - 6 < (wordOfBytes l₁ l₀).toNat) := by
        rw [Framing.maxFrameSize]
        omega
      refine ⟨⟨.tcp (wordOfBytes t₁ t₀) ⟨unit⟩, role, pdu⟩, ?_,
        adu_of_header hprotocol (by omega)⟩
      simp only [split, List.cons_append, hprotocol, ne_eq, not_true_eq_false, if_false,
        if_neg hfits, hpdu, List.length_append, List.take_left, List.drop_left]
      rw [if_neg (by omega)]
  · cases h

end Modbus.Mbap

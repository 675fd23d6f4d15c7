import Modbus.Error
import Modbus.Proofs.Frame.Checksum
import Modbus.Proofs.Frame.Delimits

/-! Damage of a whole frame of a serial line. A frame that is accepted leaves no remainder, and
bytes that differ from it in one place or in two adjacent ones leave some. It makes no difference
whether the length of the frame is told from the bytes that are damaged: a frame of that length
would have to leave no remainder as well. -/

namespace Modbus

/-! ### Frames that are accepted -/

namespace Message

variable {framing : Framing} {role : Role} {frame : List UInt8} {m : Message}

theorem split_of_parse (h : parse framing role frame = .ok m) :
    FrameCodec.split ⟨framing, role⟩ frame = .frame m [] := by
  unfold parse at h
  split at h
  · rename_i hsplit
    cases h
    exact hsplit
  · cases h
  · cases h
  · cases h
  · cases h

theorem isFraming_of_parse {e : Error} (h : parse framing role frame = .error e) :
    e.isFraming = true := by
  unfold parse at h
  split at h
  · cases h
  · cases h
    rfl
  · cases h
    rfl
  · cases h
    rfl
  · cases h
    rfl

/-- A frame that is accepted is the one of its message, and leaves no remainder. -/
theorem adu_of_parse (h : parse .rtu role frame = .ok m) :
    frame = m.adu ∧ 4 ≤ frame.length ∧ frame.length ≤ 256 ∧ crc frame = 0 := by
  obtain ⟨unit, hi, lo, pdu, rfl, ⟨hmin, hmax⟩, hsum, rfl⟩ :=
    Rtu.exists_of_split (split_of_parse h)
  have hlength : (unit :: (pdu ++ [hi, lo])).length = pdu.length + 3 := by
    simp only [List.length_cons, List.length_append, List.length_nil]
  refine ⟨?_, by omega, by omega, ?_⟩
  · simp only [adu, Envelope.front, Envelope.back, wordBytes_wordOfBytes, List.cons_append,
      List.nil_append]
  · rw [← List.cons_append]
    exact crc_append_eq_zero_iff.mpr hsum

end Message

/-! ### Damage -/

/-- Lists of one length that agree but for two adjacent places are the same before and behind two
places that are there. -/
theorem exists_adjacent {α : Type} {xs ys : List α} {i : Nat} (htwo : 2 ≤ xs.length)
    (hlength : ys.length = xs.length)
    (hsame : ∀ j, j ≠ i → j ≠ i + 1 → ys[j]? = xs[j]?) :
    ∃ front x y x' y' back, xs = front ++ x :: y :: back ∧ ys = front ++ x' :: y' :: back := by
  -- The last place has none behind it, and is taken together with the one before it.
  obtain ⟨k, hk, hplace⟩ : ∃ k, k + 2 ≤ xs.length ∧
      (k = i ∨ k < i ∧ k + 2 = xs.length) := by
    by_cases hi : i + 2 ≤ xs.length
    · exact ⟨i, hi, .inl rfl⟩
    · exact ⟨xs.length - 2, by omega, .inr (by omega)⟩
  have hfront : ys.take k = xs.take k := by
    apply List.ext_getElem?
    intro j
    by_cases hj : j < k
    · rw [List.getElem?_take_of_lt hj, List.getElem?_take_of_lt hj]
      exact hsame j (by omega) (by omega)
    · rw [List.getElem?_take_eq_none (Nat.le_of_not_lt hj),
        List.getElem?_take_eq_none (Nat.le_of_not_lt hj)]
  have hback : ys.drop (k + 2) = xs.drop (k + 2) := by
    rcases hplace with rfl | ⟨-, hend⟩
    · apply List.ext_getElem?
      intro j
      rw [List.getElem?_drop, List.getElem?_drop]
      exact hsame (k + 2 + j) (by omega) (by omega)
    · rw [List.drop_of_length_le (Nat.le_of_eq hend.symm),
        List.drop_of_length_le (Nat.le_of_eq (hlength.trans hend.symm))]
  have hcut : ∀ zs : List α, k + 2 ≤ zs.length →
      ∃ x y, zs = zs.take k ++ x :: y :: zs.drop (k + 2) := by
    intro zs hzs
    refine ⟨zs[k], zs[k + 1], ?_⟩
    rw [← List.drop_eq_getElem_cons, ← List.drop_eq_getElem_cons, List.take_append_drop]
  obtain ⟨x, y, hxs⟩ := hcut xs hk
  obtain ⟨x', y', hys⟩ := hcut ys (hlength ▸ hk)
  rw [hfront, hback] at hys
  exact ⟨_, x, y, x', y', _, hxs, hys⟩

namespace Message

variable {role : Role} {frame damaged : List UInt8} {m : Message} {i : Nat}

/-- A frame of a serial line is not accepted when one of its bytes or two adjacent ones have been
replaced, wherever they are. -/
theorem parse_of_adjacent (h : parse .rtu role frame = .ok m)
    (hlength : damaged.length = frame.length)
    (hsame : ∀ j, j ≠ i → j ≠ i + 1 → damaged[j]? = frame[j]?) (hne : damaged ≠ frame) :
    ∃ e, parse .rtu role damaged = .error e ∧ e.isFraming = true := by
  obtain ⟨-, hmin, -, hcrc⟩ := adu_of_parse h
  rcases hparse : parse .rtu role damaged with e | m'
  · exact ⟨e, rfl, isFraming_of_parse hparse⟩
  · obtain ⟨-, -, -, hcrc'⟩ := adu_of_parse hparse
    obtain ⟨front, x, y, x', y', back, rfl, rfl⟩ :=
      exists_adjacent (Nat.le_of_add_left_le hmin : 2 ≤ frame.length) hlength hsame
    obtain ⟨rfl, rfl⟩ := eq_of_crc_eq (hcrc.trans hcrc'.symm)
    exact (hne rfl).elim

/-- When its function code and the byte behind it are damaged, an exception becomes the beginning of
a response. -/
theorem parse_of_adjacent_function :
    parse .rtu .response [0x66, 0x82, 0x03, 0xB1, 0x7E] =
        .ok ⟨.rtu ⟨0x66⟩ 0xB17E, .response, [0x82, 0x03]⟩ ∧
      ∃ e, parse .rtu .response [0x66, 0x01, 0x02, 0xB1, 0x7E] = .error e ∧
        e.isFraming = true := by
  have hsplit : FrameCodec.split ⟨.rtu, .response⟩ [0x66, 0x82, 0x03, 0xB1, 0x7E] =
      .frame ⟨.rtu ⟨0x66⟩ 0xB17E, .response, [0x82, 0x03]⟩ [] := by decide +kernel
  have hparse : parse .rtu .response [0x66, 0x82, 0x03, 0xB1, 0x7E] =
      .ok ⟨.rtu ⟨0x66⟩ 0xB17E, .response, [0x82, 0x03]⟩ := by
    rw [parse, hsplit]
  have hne : ([0x66, 0x01, 0x02, 0xB1, 0x7E] : List UInt8) ≠ [0x66, 0x82, 0x03, 0xB1, 0x7E] := by
    decide
  refine ⟨hparse, parse_of_adjacent (i := 1) hparse rfl ?_ hne⟩
  intro j hfirst hsecond
  rcases j with _ | _ | _ | j
  · rfl
  · exact (hfirst rfl).elim
  · exact (hsecond rfl).elim
  · rfl

end Message

end Modbus

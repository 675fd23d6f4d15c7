import Modbus.Config.Build
import Modbus.Proofs.Text.Reading

/-! The grammar of line settings: the texts that are read as settings are their written forms
(`Settings.Writes`) with white space around them, and the text that settings are shown as is one of
these. -/

namespace Modbus.Line

theorem Parity.ofLetter?_eq_some_iff {c : Char} {p : Parity} :
    ofLetter? c = some p ↔ c = p.letter ∨ c = p.letter.toLower := by
  rw [ofLetter?]
  split_ifs with hnone heven hodd
  · rcases hnone with rfl | rfl <;> cases p <;> decide
  · rcases heven with rfl | rfl <;> cases p <;> decide
  · rcases hodd with rfl | rfl <;> cases p <;> decide
  · refine ⟨nofun, ?_⟩
    rintro (rfl | rfl) <;> cases p <;> revert hnone heven hodd <;> decide

theorem stopBits?_eq_some_iff {p : Parity} {stop : List Char} {n : UInt8} :
    stopBits? p stop = some n ↔ (stop = [] ∧ n = if p = .none then 2 else 1) ∨
      (stop = ['1'] ∧ n = 1) ∨ (stop = ['2'] ∧ n = 2) := by
  unfold stopBits?
  split
  · simp [eq_comm]
  · simp [eq_comm]
  · simp [eq_comm]
  · rename_i hnil hone htwo
    refine ⟨nofun, ?_⟩
    rintro (⟨h, -⟩ | ⟨h, -⟩ | ⟨h, -⟩)
    · exact absurd h hnil
    · exact absurd h hone
    · exact absurd h htwo

theorem decimal_eq (digits : List Char) : decimal digits = Nat.ofDigitChars 10 digits 0 := rfl

namespace Settings

variable {v : Settings} {core : List Char}

/-- `core` writes the settings `v`: a speed in decimal digits, from 1 to 4294967295, the letter of
the parity in either case, and the number of stop bits. If that is left out, there are two without
parity and one with it. -/
def Writes (v : Settings) (core : List Char) : Prop :=
  ∃ digits letter stop, core = digits ++ letter :: stop ∧
    Text.IsDecimal digits v.baudRate.toNat ∧
    1 ≤ v.baudRate.toNat ∧ v.baudRate.toNat ≤ 4294967295 ∧
    (letter = v.parity.letter ∨ letter = v.parity.letter.toLower) ∧
    ((stop = [] ∧ v.stopBits = if v.parity = .none then 2 else 1) ∨
      (stop = ['1'] ∧ v.stopBits = 1) ∨ (stop = ['2'] ∧ v.stopBits = 2))

/-- No letter of a parity is a digit or white space. -/
theorem isDigit_letter {c : Char} {p : Parity} (h : c = p.letter ∨ c = p.letter.toLower) :
    c.isDigit = false ∧ Text.isBlank c = false := by
  rcases h with rfl | rfl <;> cases p <;> decide

theorem Writes.not_blank_head (h : v.Writes core) : ∀ c ∈ core.head?, Text.isBlank c = false := by
  obtain ⟨digits, letter, stop, rfl, ⟨hne, hdigits, -⟩, -⟩ := h
  obtain ⟨d, ds, rfl⟩ := List.exists_cons_of_ne_nil hne
  rintro c ⟨⟩
  exact Text.isBlank_of_isDigit (hdigits d List.mem_cons_self)

theorem Writes.not_blank_getLast (h : v.Writes core) :
    ∀ c ∈ core.getLast?, Text.isBlank c = false := by
  obtain ⟨digits, letter, stop, rfl, -, -, -, hletter, hstop⟩ := h
  rw [List.getLast?_append_of_ne_nil _ (List.cons_ne_nil _ _)]
  rcases hstop with ⟨rfl, -⟩ | ⟨rfl, -⟩ | ⟨rfl, -⟩
  · rintro c ⟨⟩
    exact (isDigit_letter hletter).2
  · rintro c ⟨⟩
    show Text.isBlank '1' = false
    decide
  · rintro c ⟨⟩
    show Text.isBlank '2' = false
    decide

/-- Without white space around it, a text is read as what it writes. -/
theorem ofText_eq_ok_iff {text : String} :
    ofText text = .ok v ↔ v.Writes (Text.trim text.toList) := by
  rw [ofText]
  generalize Text.trim text.toList = core
  constructor
  · intro h
    have hsplit := List.takeWhile_append_dropWhile (p := (·.isDigit)) (l := core)
    split at h
    · cases h
    · rename_i letter stop hrest
      split_ifs at h with hrate
      obtain ⟨hne, hlt, hpos⟩ := not_or.mp hrate |>.imp_right not_or.mp
      split at h
      · cases h
      · rename_i parity hparity
        split at h
        · cases h
        · rename_i bits hbits
          cases h
          have hvalue : (UInt32.ofNat (decimal (core.takeWhile (·.isDigit)))).toNat =
              decimal (core.takeWhile (·.isDigit)) := UInt32.toNat_ofNat_of_lt' (by omega)
          refine ⟨core.takeWhile (·.isDigit), letter, stop, by rw [← hrest, hsplit],
            ⟨by simpa using hne, fun _ => List.mem_takeWhile_imp, hvalue.symm⟩, ?_, ?_,
            Parity.ofLetter?_eq_some_iff.mp hparity, stopBits?_eq_some_iff.mp hbits⟩
          · rw [hvalue]
            omega
          · rw [hvalue]
            simp only [UInt32.size] at hlt
            omega
  · rintro ⟨digits, letter, stop, rfl, ⟨hne, hdigits, hvalue⟩, hpos, hle, hletter, hstop⟩
    have hnot : ¬ letter.isDigit = true := by simp [(isDigit_letter hletter).1]
    have hrest : (digits ++ letter :: stop).dropWhile (·.isDigit) = letter :: stop := by
      rw [List.dropWhile_append_of_pos hdigits, List.dropWhile_cons_of_neg hnot]
    have htaken : (digits ++ letter :: stop).takeWhile (·.isDigit) = digits := by
      rw [List.takeWhile_append_of_pos hdigits, List.takeWhile_cons_of_neg hnot, List.append_nil]
    simp only [hrest, htaken, decimal_eq, hvalue]
    rw [if_neg, Parity.ofLetter?_eq_some_iff.mpr hletter]
    · simp only [stopBits?_eq_some_iff.mpr hstop]
      rw [UInt32.ofNat_toNat]
    · rw [List.isEmpty_iff, UInt32.size]
      rintro (h | h | h)
      · exact hne h
      · omega
      · omega

/-- Settings are shown as one of their written forms, if they have one. -/
theorem writes_text (hrate : v.baudRate ≠ 0) (hstop : v.stopBits = 1 ∨ v.stopBits = 2) :
    v.Writes v.text.toList := by
  have hlt := v.baudRate.toNat_lt
  have hpos : v.baudRate.toNat ≠ 0 := fun h => hrate (UInt32.toNat_inj.mp h)
  refine ⟨_, v.parity.letter, (toString v.stopBits.toNat).toList, ?_,
    Text.isDecimal_toString v.baudRate.toNat, by omega, by omega, .inl rfl, ?_⟩
  · simp [text]
  · rcases hstop with h | h <;> rw [h]
    · exact .inr (.inl ⟨by decide, rfl⟩)
    · exact .inr (.inr ⟨by decide, rfl⟩)

theorem parse_eq_ok_iff {text : String} :
    parse text = .ok v ↔ ∃ core, Text.IsPadded core text.toList ∧ v.Writes core := by
  have hparse : parse text = .ok v ↔ ofText text = .ok v := by
    rw [parse]
    cases ofText text <;> simp [Except.mapError]
  rw [hparse, ofText_eq_ok_iff]
  constructor
  · exact fun h => ⟨_, Text.isPadded_trim _, h⟩
  · rintro ⟨core, hpadded, h⟩
    rw [hpadded.trim_eq h.not_blank_head h.not_blank_getLast]
    exact h

/-- The settings that have a written form. -/
theorem Writes.bounds (h : v.Writes core) :
    v.baudRate ≠ 0 ∧ (v.stopBits = 1 ∨ v.stopBits = 2) := by
  obtain ⟨digits, letter, stop, -, -, hpos, -, -, hstop⟩ := h
  refine ⟨fun h => ?_, ?_⟩
  · rw [h] at hpos
    cases hpos
  · rcases hstop with ⟨-, h⟩ | ⟨-, h⟩ | ⟨-, h⟩
    · rw [h]
      split_ifs
      · exact .inr rfl
      · exact .inl rfl
    · exact .inl h
    · exact .inr h

theorem parse_text_iff :
    parse v.text = .ok v ↔ v.baudRate ≠ 0 ∧ (v.stopBits = 1 ∨ v.stopBits = 2) := by
  rw [parse_eq_ok_iff]
  constructor
  · rintro ⟨core, -, h⟩
    exact h.bounds
  · rintro ⟨hrate, hstop⟩
    exact ⟨_, Text.IsPadded.refl _, writes_text hrate hstop⟩

/-- A text is read as the settings that it writes, with white space around them or not, and as
nothing else. Settings are read back from the text that they are shown as exactly if they have a
speed and one or two stop bits, which all settings that are read have: so showing what is read is
stable, and the time of a character is never divided by a speed of zero. -/
theorem parses_iff_writes (text : String) (v : Settings) :
    (parse text = .ok v ↔ ∃ core, Text.IsPadded core text.toList ∧ v.Writes core) ∧
    (parse v.text = .ok v ↔ v.baudRate ≠ 0 ∧ (v.stopBits = 1 ∨ v.stopBits = 2)) ∧
    (parse text = .ok v → parse v.text = .ok v ∧ v.baudRate.toNat ≠ 0) := by
  refine ⟨parse_eq_ok_iff, parse_text_iff, fun h => ?_⟩
  obtain ⟨core, -, hwrites⟩ := parse_eq_ok_iff.mp h
  refine ⟨parse_text_iff.mpr hwrites.bounds, fun hzero => ?_⟩
  exact hwrites.bounds.1 (UInt32.toNat_inj.mp hzero)

example : parse " 019200e\u3000" = .ok ⟨19200, .even, 1⟩ := rfl

end Settings

end Modbus.Line

import Mathlib.Data.List.DropRight
import Mathlib.Tactic.Common
import Modbus.Text.Blank

/-! What is read from a text that people write: something with white space around it, and numbers in
decimal digits. -/

namespace Modbus.Text

theorem dropWhileEnd_append {p : Char → Bool} {cs after : List Char} (h : ∀ c ∈ after, p c = true) :
    dropWhileEnd p (cs ++ after) = dropWhileEnd p cs := by
  rw [dropWhileEnd, List.reverse_append,
    List.dropWhile_append_of_pos fun c hc => h c (List.mem_reverse.mp hc), ← dropWhileEnd]

theorem dropWhileEnd_eq_self {p : Char → Bool} {cs : List Char}
    (h : ∀ c ∈ cs.getLast?, p c = false) : dropWhileEnd p cs = cs := by
  refine List.rdropWhile_eq_self_iff.mpr fun hne => ?_
  rw [h _ (List.getLast?_eq_some_getLast hne)]
  exact Bool.false_ne_true

/-! ### White space around -/

/-- `text` is `core` with white space before and after it. -/
def IsPadded (core text : List Char) : Prop :=
  ∃ before after, text = before ++ core ++ after ∧ (∀ c ∈ before, isBlank c = true) ∧
    ∀ c ∈ after, isBlank c = true

theorem IsPadded.refl (text : List Char) : IsPadded text text :=
  ⟨[], [], (List.append_nil text).symm, nofun, nofun⟩

/-- What is cut off a text is white space. -/
theorem isPadded_trim (text : List Char) : IsPadded (trim text) text := by
  refine ⟨text.takeWhile isBlank, (text.dropWhile isBlank).rtakeWhile isBlank, ?_,
    fun _ => List.mem_takeWhile_imp, fun _ => List.mem_rtakeWhile_imp⟩
  have hend : trim text ++ (text.dropWhile isBlank).rtakeWhile isBlank = text.dropWhile isBlank :=
    List.rdropWhile_append_rtakeWhile
  rw [List.append_assoc, hend, List.takeWhile_append_dropWhile]

/-- What is left of a text is what stands between the white space. -/
theorem IsPadded.trim_eq {core text : List Char} (h : IsPadded core text)
    (hfirst : ∀ c ∈ core.head?, isBlank c = false)
    (hlast : ∀ c ∈ core.getLast?, isBlank c = false) : trim text = core := by
  obtain ⟨before, after, rfl, hbefore, hafter⟩ := h
  rw [trim, List.append_assoc, List.dropWhile_append_of_pos hbefore]
  rcases core with _ | ⟨c, rest⟩
  · rw [List.nil_append, List.dropWhile_eq_nil_iff.mpr hafter]
    rfl
  · have hc : ¬ isBlank c = true := by simp [hfirst c rfl]
    rw [List.cons_append, List.dropWhile_cons_of_neg hc, ← List.cons_append,
      dropWhileEnd_append hafter]
    exact dropWhileEnd_eq_self hlast

theorem trim_eq_nil_iff {text : List Char} : trim text = [] ↔ ∀ c ∈ text, isBlank c = true := by
  constructor
  · intro h
    obtain ⟨before, after, htext, hbefore, hafter⟩ := isPadded_trim text
    rw [h, List.append_nil] at htext
    rw [htext]
    exact List.forall_mem_append.mpr ⟨hbefore, hafter⟩
  · intro h
    exact IsPadded.trim_eq ⟨text, [], by simp, h, nofun⟩ nofun nofun

/-! ### Decimal digits -/

/-- Decimal digits of the number `n`, at least one. Zeros may stand in front. -/
def IsDecimal (digits : List Char) (n : Nat) : Prop :=
  digits ≠ [] ∧ (∀ c ∈ digits, c.isDigit = true) ∧ Nat.ofDigitChars 10 digits 0 = n

theorem isDecimal_toString (n : Nat) : IsDecimal (toString n).toList n := by
  rw [Nat.toString_eq_repr, Nat.toList_repr]
  exact ⟨Nat.toDigits_ne_nil, fun _ => Nat.isDigit_of_mem_toDigits (by decide) (by decide),
    Nat.ofDigitChars_ten_toDigits⟩

theorem isBlank_of_isDigit {c : Char} (h : c.isDigit = true) : isBlank c = false := by
  have hrange := Char.isDigit_iff_toNat.mp h
  simp only [Char.reduceToNat] at hrange
  simp only [isBlank, blankRanges, List.any_cons, List.any_nil, Bool.or_false, Bool.or_eq_false_iff,
    Bool.and_eq_false_iff, decide_eq_false_iff_not]
  omega

end Modbus.Text

import Modbus.Config.Build
import Modbus.Proofs.Text.Reading

/-! The spellings of a host and a port. A connection text may name its own port; if it does not, the
port is that of the settings, and the text is the host as it stands. -/

namespace Modbus.Net

/-! ### Ports -/

section Ports

theorem digit?_ten (c : Char) : digit? 10 c = if c.isDigit then some (c.toNat - 48) else none := by
  have hle (a b : Char) : a ≤ b ↔ a.toNat ≤ b.toNat := Iff.rfl
  simp only [digit?, Text.hexDigit?, hle, Char.isDigit_iff_toNat, Char.reduceToNat]
  split_ifs with hten hlower hupper
  · exact Option.filter_some_pos (by simpa using by omega)
  · exact Option.filter_some_neg (by simpa using by omega)
  · exact Option.filter_some_neg (by simpa using by omega)
  · rfl

theorem digits_ten (s : List Char) : digits 10 s =
    ((s.takeWhile (·.isDigit)).map fun c => c.toNat - 48, s.dropWhile (·.isDigit)) := by
  induction s with
  | nil => rfl
  | cons c rest ih =>
    rw [digits, digit?_ten]
    cases h : c.isDigit with
    | true => simp [ih, h]
    | false => simp [h]

/-- A whole text that is read as a number in base ten. -/
theorem number?_ten_eq_some_iff {limit n : Nat} {s : List Char} :
    number? 10 none true limit s = some (n, []) ↔ Text.IsDecimal s n ∧ n < limit := by
  have hvalue (cs : List Char) : (cs.map fun c => c.toNat - 48).foldl (fun n d => 10 * n + d) 0 =
      Nat.ofDigitChars 10 cs 0 := List.foldl_map
  simp only [number?, digits_ten, hvalue]
  constructor
  · intro h
    split_ifs at h with hbad
    obtain ⟨rfl, hleft⟩ := Prod.mk.inj (Option.some.inj h)
    have hall : ∀ c ∈ s, c.isDigit = true := List.dropWhile_eq_nil_iff.mp hleft
    rw [List.takeWhile_eq_self_iff.mpr hall] at hbad ⊢
    simp only [List.isEmpty_map, Option.any_none, Bool.or_false, Bool.not_true, Bool.false_and,
      Bool.or_eq_true, List.isEmpty_iff, decide_eq_true_eq, not_or] at hbad
    exact ⟨⟨hbad.1, hall, rfl⟩, not_le.mp hbad.2⟩
  · rintro ⟨⟨hne, hall, rfl⟩, hlt⟩
    rw [List.takeWhile_eq_self_iff.mpr hall, List.dropWhile_eq_nil_iff.mpr hall]
    simp [hne, hlt]

/-- The text writes the port in decimal digits, behind a plus sign or not. -/
def WritesPort (text : List Char) (p : UInt16) : Prop :=
  ∃ digits, (text = digits ∨ text = '+' :: digits) ∧ Text.IsDecimal digits p.toNat

theorem writesPort_toString (p : UInt16) : WritesPort (toString p.toNat).toList p :=
  ⟨_, .inl rfl, Text.isDecimal_toString p.toNat⟩

variable {text : List Char} {p : UInt16}

theorem WritesPort.ne_nil (h : WritesPort text p) : text ≠ [] := by
  obtain ⟨digits, rfl | rfl, hne, -⟩ := h
  · exact hne
  · exact List.cons_ne_nil _ _

theorem WritesPort.isDigit_of_mem (h : WritesPort text p) {c : Char} (hc : c ∈ text) :
    c.isDigit = true ∨ c = '+' := by
  obtain ⟨digits, rfl | rfl, -, hall, -⟩ := h
  · exact .inl (hall c hc)
  · rcases List.mem_cons.mp hc with rfl | hc
    · exact .inr rfl
    · exact .inl (hall c hc)

theorem WritesPort.isBlank_of_mem (h : WritesPort text p) {c : Char} (hc : c ∈ text) :
    Text.isBlank c = false := by
  rcases h.isDigit_of_mem hc with hdigit | rfl
  · exact Text.isBlank_of_isDigit hdigit
  · decide

theorem WritesPort.not_colon_mem (h : WritesPort text p) : ':' ∉ text := by
  intro hc
  rcases h.isDigit_of_mem hc with hdigit | hplus
  · cases hdigit
  · cases hplus

/-- What is read as a port without a sign in front of it. -/
theorem decimalPort_eq_some_iff :
    (do
      let (n, left) ← number? 10 none true 65536 text
      if left.isEmpty then some (UInt16.ofNat n) else none) = some p ↔
      Text.IsDecimal text p.toNat := by
  constructor
  · intro h
    obtain ⟨⟨n, left⟩, hnumber, h⟩ := Option.bind_eq_some_iff.mp h
    dsimp only at h
    split_ifs at h with hleft
    obtain rfl := List.isEmpty_iff.mp hleft
    obtain ⟨hdecimal, hlt⟩ := number?_ten_eq_some_iff.mp hnumber
    rw [← Option.some.inj h, UInt16.toNat_ofNat_of_lt' hlt]
    exact hdecimal
  · intro h
    rw [number?_ten_eq_some_iff.mpr ⟨h, p.toNat_lt⟩]
    simp

theorem portOfText?_eq_some_iff : portOfText? text = some p ↔ WritesPort text p := by
  unfold portOfText?
  split
  · rename_i rest
    rw [decimalPort_eq_some_iff]
    refine ⟨fun h => ⟨rest, .inr rfl, h⟩, ?_⟩
    rintro ⟨digits, rfl | h, hdecimal⟩
    -- A plus sign is not a digit itself.
    · cases hdecimal.2.1 '+' List.mem_cons_self
    · cases h
      exact hdecimal
  · rename_i hplus
    rw [decimalPort_eq_some_iff]
    refine ⟨fun h => ⟨text, .inl rfl, h⟩, ?_⟩
    rintro ⟨digits, rfl | h, hdecimal⟩
    · exact hdecimal
    · exact absurd h (hplus digits)

/-- The port that settings stand for: the one that they write, with white space around it or not,
or 502 if there is nothing but white space. -/
def SettingsPort (settings : String) (p : UInt16) : Prop :=
  ((∀ c ∈ settings.toList, Text.isBlank c = true) ∧ p = 502) ∨
    ∃ core, Text.IsPadded core settings.toList ∧ WritesPort core p

theorem settingsPort_iff {settings : String} : SettingsPort settings p ↔
    (Text.trim settings.toList = [] ∧ p = 502) ∨
      WritesPort (Text.trim settings.toList) p := by
  rw [SettingsPort, Text.trim_eq_nil_iff]
  refine or_congr_right ⟨?_, fun h => ⟨_, Text.isPadded_trim _, h⟩⟩
  rintro ⟨core, hpadded, h⟩
  rw [hpadded.trim_eq (fun c hc => h.isBlank_of_mem (List.mem_of_mem_head? hc))
    fun c hc => h.isBlank_of_mem (List.mem_of_getLast? hc)]
  exact h

end Ports

/-! ### The last colon -/

theorem splitLastColon?_eq_none_iff {s : List Char} : splitLastColon? s = none ↔ ':' ∉ s := by
  induction s with
  | nil => simp [splitLastColon?]
  | cons c rest ih =>
    rw [splitLastColon?]
    cases h : splitLastColon? rest with
    | none => simp [ih.mp h, eq_comm]
    | some parts =>
      have hmem : ':' ∈ rest := not_not.mp fun hn => by simp [ih.mpr hn] at h
      simp [hmem]

/-- A text is split at a colon behind which there is none. -/
theorem splitLastColon?_append {before after : List Char} (h : ':' ∉ after) :
    splitLastColon? (before ++ ':' :: after) = some (before, after) := by
  induction before with
  | nil => simp [splitLastColon?, splitLastColon?_eq_none_iff.mpr h]
  | cons c rest ih => simp [splitLastColon?, ih]

theorem eq_append_of_splitLastColon? {s before after : List Char}
    (h : splitLastColon? s = some (before, after)) : s = before ++ ':' :: after ∧ ':' ∉ after := by
  induction s generalizing before with
  | nil => cases h
  | cons c rest ih =>
    rw [splitLastColon?] at h
    split at h
    · rename_i hrest
      cases h
      obtain ⟨rfl, hafter⟩ := ih hrest
      exact ⟨rfl, hafter⟩
    · rename_i hrest
      split_ifs at h with hc
      cases h
      exact ⟨by rw [hc, List.nil_append], splitLastColon?_eq_none_iff.mp hrest⟩

/-! ### Brackets -/

/-- There are no brackets in the text. -/
def Bare (cs : List Char) : Prop := ∀ c ∈ cs, c ≠ '[' ∧ c ≠ ']'

/-- There are neither colons nor brackets in the text. -/
def IsName (cs : List Char) : Prop := ∀ c ∈ cs, c ≠ ':' ∧ c ≠ '[' ∧ c ≠ ']'

/-- There are at least two colons in the text, and no brackets. -/
def IsLiteral (cs : List Char) : Prop := 2 ≤ cs.count ':' ∧ Bare cs

instance (cs : List Char) : Decidable (Bare cs) := List.decidableBAll _ cs

instance (cs : List Char) : Decidable (IsName cs) := List.decidableBAll _ cs

instance (cs : List Char) : Decidable (IsLiteral cs) := instDecidableAnd

theorem Bare.append {cs cs' : List Char} (h : Bare cs) (h' : Bare cs') : Bare (cs ++ cs') :=
  List.forall_mem_append.mpr ⟨h, h'⟩

theorem IsName.bare {cs : List Char} (h : IsName cs) : Bare cs := fun c hc => (h c hc).2

theorem IsName.not_colon_mem {cs : List Char} (h : IsName cs) : ':' ∉ cs := fun hc => (h _ hc).1 rfl

/-- Brackets around a text are taken off, and nothing else. -/
theorem unbracketed_append {before cs after : List Char} (hbefore : ∀ c ∈ before, c = '[')
    (hcs : Bare cs) (hafter : ∀ c ∈ after, c = ']') : unbracketed (before ++ cs ++ after) = cs := by
  have hend : Text.dropWhileEnd (· == ']') (cs ++ after) = cs := by
    rw [Text.dropWhileEnd_append (by simpa using hafter)]
    exact Text.dropWhileEnd_eq_self fun c hc =>
      beq_false_of_ne (hcs c (List.mem_of_getLast? hc)).2
  have hstart : (before ++ (cs ++ after)).dropWhile (· == '[') = cs ++ after := by
    rw [List.dropWhile_append_of_pos (by simpa using hbefore)]
    refine List.dropWhile_eq_self_iff.mpr fun hlt h => ?_
    have hmem : '[' ∈ cs ++ after := by
      rw [← eq_of_beq h]
      exact List.getElem_mem hlt
    rcases List.mem_append.mp hmem with hc | hc
    · exact (hcs _ hc).1 rfl
    · cases hafter _ hc
  rw [unbracketed, List.append_assoc, hstart, hend]

/-! ### Whose port it is -/

/-- Of two or more colons the last one is not taken for that in front of a port, unless there is a
bracket before it. -/
theorem ownPort?_eq_none {s : List Char} (hcolons : 2 ≤ s.count ':') (hclose : ']' ∉ s.dropLast) :
    ownPort? s = none := by
  rw [ownPort?]
  split
  · rename_i before after hsplit
    obtain ⟨rfl, hafter⟩ := eq_append_of_splitLastColon? hsplit
    -- The last colon is not the only one, so there is another one before it.
    have hcolon : ':' ∈ before := by
      rw [List.count_append, List.count_cons_self, List.count_eq_zero.mpr hafter] at hcolons
      exact List.count_pos_iff.mp (by omega)
    have hlast : before.getLast? ≠ some ']' := by
      intro h
      refine hclose ?_
      rw [List.dropLast_append_of_ne_nil (List.cons_ne_nil _ _)]
      exact List.mem_append_left _ (List.mem_of_getLast? h)
    simp [hcolon, hlast]
  · rfl

theorem ownPort?_eq_none_of_not_mem {s : List Char} (h : ':' ∉ s) : ownPort? s = none := by
  rw [ownPort?, splitLastColon?_eq_none_iff.mpr h]

theorem ownPort?_append {host port : List Char} (hport : ':' ∉ port)
    (hhost : ':' ∉ host ∨ host.getLast? = some ']') :
    ownPort? (host ++ ':' :: port) = some (host, port) := by
  rw [ownPort?, splitLastColon?_append hport]
  rcases hhost with h | h <;> simp [h]

namespace Endpoint

variable {connection settings : String} {e : Endpoint}

theorem ofConnection_eq_ok_iff :
    ofConnection connection settings = .ok e ↔ ofConnection? connection settings = some e := by
  rw [ofConnection]
  cases ofConnection? connection settings <;> simp

/-- A connection that has a port of its own: the settings do not matter. -/
theorem ofConnection_of_ownPort {host port : List Char} {p : UInt16}
    (hown : ownPort? connection.toList = some (host, port)) (hp : WritesPort port p) :
    ofConnection connection settings = .ok ⟨String.ofList (unbracketed host), p⟩ := by
  rw [ofConnection_eq_ok_iff, ofConnection?, hown]
  simp only [portOfText?_eq_some_iff.mpr hp, Option.map_some]

/-- A connection without a port of its own is the host. -/
theorem ofConnection_eq_ok_iff_of_ownPort (hown : ownPort? connection.toList = none) :
    ofConnection connection settings = .ok e ↔
      e.host = connection ∧ SettingsPort settings e.port := by
  rw [ofConnection_eq_ok_iff, ofConnection?, hown, settingsPort_iff]
  obtain ⟨host, port⟩ := e
  dsimp only
  split
  · rename_i hblank
    have hwrites : ¬ WritesPort [] port := fun h => h.ne_nil rfl
    simp [hblank, hwrites, defaultPort, eq_comm]
  · rename_i hblank
    have hne : Text.trim settings.toList ≠ [] := hblank
    simp only [hne, false_and, false_or, ← portOfText?_eq_some_iff, Option.map_eq_some_iff,
      Endpoint.mk.injEq]
    constructor
    · rintro ⟨p, hp, rfl, rfl⟩
      exact ⟨rfl, hp⟩
    · rintro ⟨rfl, hp⟩
      exact ⟨port, hp, rfl, rfl⟩

variable {host port : String} {p : UInt16}

theorem ofConnection_host (hhost : IsName host.toList) (hport : WritesPort port.toList p) :
    ofConnection (host ++ ":" ++ port) settings = .ok ⟨host, p⟩ := by
  have hown : ownPort? (host ++ ":" ++ port).toList = some (host.toList, port.toList) := by
    have htext : (host ++ ":" ++ port).toList = host.toList ++ ':' :: port.toList := by simp
    rw [htext]
    exact ownPort?_append hport.not_colon_mem (.inl hhost.not_colon_mem)
  have hbare : unbracketed host.toList = host.toList := by
    have hnone : unbracketed ([] ++ host.toList ++ []) = host.toList :=
      unbracketed_append nofun hhost.bare nofun
    rwa [List.nil_append, List.append_nil] at hnone
  rw [ofConnection_of_ownPort hown hport, hbare, String.ofList_toList]

theorem ofConnection_bracketed (hhost : Bare host.toList) (hport : WritesPort port.toList p) :
    ofConnection ("[" ++ host ++ "]:" ++ port) settings = .ok ⟨host, p⟩ := by
  have hown : ownPort? ("[" ++ host ++ "]:" ++ port).toList =
      some (['['] ++ host.toList ++ [']'], port.toList) := by
    have htext : ("[" ++ host ++ "]:" ++ port).toList =
        (['['] ++ host.toList ++ [']']) ++ ':' :: port.toList := by simp
    rw [htext]
    exact ownPort?_append hport.not_colon_mem (.inr List.getLast?_concat)
  have hbare : unbracketed (['['] ++ host.toList ++ [']']) = host.toList :=
    unbracketed_append (by simp) hhost (by simp)
  rw [ofConnection_of_ownPort hown hport, hbare, String.ofList_toList]

end Endpoint

/-! ### Socket addresses -/

theorem exists_digitChar_of_mem_toDigits {b n : Nat} (hb : 1 < b) {c : Char}
    (hc : c ∈ Nat.toDigits b n) : ∃ d, c = Nat.digitChar d := by
  induction n using Nat.strong_induction_on with
  | _ n ih =>
    rw [Nat.toDigits_eq_if hb] at hc
    split_ifs at hc with hlt
    · exact ⟨n, List.mem_singleton.mp hc⟩
    · rcases List.mem_append.mp hc with hc | hc
      · exact ih _ (Nat.div_lt_self (by omega) hb) hc
      · exact ⟨n % b, List.mem_singleton.mp hc⟩

theorem isName_toDigits {b : Nat} (hb : 1 < b) (n : Nat) : IsName (Nat.toDigits b n) := by
  intro c hc
  obtain ⟨d, rfl⟩ := exists_digitChar_of_mem_toDigits hb hc
  exact ⟨Nat.digitChar_ne ':' rfl, Nat.digitChar_ne '[' rfl, Nat.digitChar_ne ']' rfl⟩

theorem forall_mem_intercalate {α : Type} {P : α → Prop} {sep : List α} {parts : List (List α)}
    (hsep : ∀ x ∈ sep, P x) (hparts : ∀ part ∈ parts, ∀ x ∈ part, P x) :
    ∀ x ∈ sep.intercalate parts, P x := by
  induction parts with
  | nil => exact nofun
  | cons part rest ih =>
    obtain ⟨hpart, hrest⟩ := List.forall_mem_cons.mp hparts
    rcases rest with _ | ⟨next, rest⟩
    · rw [List.intercalate_singleton]
      exact hpart
    · rw [List.intercalate_cons_cons]
      simp only [List.forall_mem_append]
      exact ⟨⟨hpart, hsep⟩, ih hrest⟩

theorem isName_dotted (a b c d : UInt8) : IsName (dotted a b c d).toList := by
  have hsep : IsName ".".toList := by decide
  rw [dotted, String.toList_intercalate]
  refine forall_mem_intercalate hsep ?_
  simp only [List.map_map, List.forall_mem_map]
  intro x _
  show IsName (toString x.toNat).toList
  rw [Nat.toString_eq_repr, Nat.toList_repr]
  exact isName_toDigits (by decide) _

theorem bare_groupsText (groups : List UInt16) : Bare (groupsText groups).toList := by
  have hsep : Bare ":".toList := by decide
  rw [groupsText, String.toList_intercalate]
  refine forall_mem_intercalate hsep ?_
  simp only [List.map_map, List.forall_mem_map]
  intro g _
  show Bare (Text.lowerHex g.toNat).toList
  rw [Text.lowerHex, String.toList_ofList]
  exact (isName_toDigits (by decide) _).bare

/-- In the text of an address there are no brackets. -/
theorem IpAddress.bare_text (ip : IpAddress) : Bare ip.text.toList := by
  unfold text
  split
  · exact (isName_dotted _ _ _ _).bare
  · have hmapped : Bare "::ffff:".toList := by decide
    rw [String.toList_append]
    exact hmapped.append (isName_dotted _ _ _ _).bare
  · have hzeros : Bare "::".toList := by decide
    dsimp only
    split_ifs
    · rw [String.toList_append, String.toList_append]
      exact ((bare_groupsText _).append hzeros).append (bare_groupsText _)
    · exact bare_groupsText _

namespace Endpoint

variable {name literal settings port : String} {p : UInt16}

theorem ofConnection_text {x : SocketAddress} (hscope : x.scope = 0) :
    ofConnection x.text settings = .ok (ofAddress x) := by
  obtain ⟨ip, port, scope⟩ := x
  obtain rfl : scope = 0 := hscope
  cases ip with
  | v4 a b c d =>
    have htext : SocketAddress.text ⟨.v4 a b c d, port, 0⟩ =
        (IpAddress.v4 a b c d).text ++ ":" ++ toString port.toNat := by
      rw [String.append_assoc]
      rfl
    rw [htext]
    exact ofConnection_host (isName_dotted a b c d) (writesPort_toString port)
  | v6 groups =>
    have htext : SocketAddress.text ⟨.v6 groups, port, 0⟩ =
        "[" ++ (IpAddress.v6 groups).text ++ "]:" ++ toString port.toNat := by
      rw [← String.toList_inj]
      simp [SocketAddress.text]
    rw [htext]
    exact ofConnection_bracketed (IpAddress.v6 groups).bare_text (writesPort_toString port)

theorem ofConnection_name {e : Endpoint} (hname : IsName name.toList) :
    ofConnection name settings = .ok e ↔ e.host = name ∧ SettingsPort settings e.port :=
  ofConnection_eq_ok_iff_of_ownPort (ownPort?_eq_none_of_not_mem hname.not_colon_mem)

theorem ofConnection_literal {e : Endpoint} (hliteral : IsLiteral literal.toList) :
    ofConnection literal settings = .ok e ↔ e.host = literal ∧ SettingsPort settings e.port := by
  refine ofConnection_eq_ok_iff_of_ownPort (ownPort?_eq_none hliteral.1 fun hclose => ?_)
  exact (hliteral.2 _ (List.dropLast_subset _ hclose)).2 rfl

/-- Without a port behind them, the brackets around an address are part of the host. -/
theorem ofConnection_bracketed_literal {e : Endpoint} (hliteral : IsLiteral literal.toList) :
    ofConnection ("[" ++ literal ++ "]") settings = .ok e ↔
      e.host = "[" ++ literal ++ "]" ∧ SettingsPort settings e.port := by
  refine ofConnection_eq_ok_iff_of_ownPort ?_
  have htext : ("[" ++ literal ++ "]").toList = '[' :: literal.toList ++ [']'] := by simp
  rw [htext]
  refine ownPort?_eq_none ?_ fun hclose => ?_
  · simpa using hliteral.1
  · rw [List.dropLast_concat] at hclose
    rcases List.mem_cons.mp hclose with hc | hc
    · cases hc
    · exact (hliteral.2 _ hc).2 rfl

/-- The spellings of a host that is given by name, or as an address with colons in it, which may
stand in brackets. With a port behind it, for which such an address needs the brackets, a spelling
stands for this host and this port, whatever the settings are. Without one the port is that of the
settings, and the whole text is the host: brackets stay in it. The text of a socket address without
a zone stands for the endpoint that the socket address is. -/
theorem ofConnection_spellings (settings : String) (hname : IsName name.toList)
    (hliteral : IsLiteral literal.toList) (hport : WritesPort port.toList p) :
    ofConnection (name ++ ":" ++ port) settings = .ok ⟨name, p⟩ ∧
    ofConnection ("[" ++ literal ++ "]:" ++ port) settings = .ok ⟨literal, p⟩ ∧
    (∀ e, ofConnection name settings = .ok e ↔
      e.host = name ∧ SettingsPort settings e.port) ∧
    (∀ e, ofConnection literal settings = .ok e ↔
      e.host = literal ∧ SettingsPort settings e.port) ∧
    (∀ e, ofConnection ("[" ++ literal ++ "]") settings = .ok e ↔
      e.host = "[" ++ literal ++ "]" ∧ SettingsPort settings e.port) ∧
    ∀ x : SocketAddress, x.scope = 0 → ofConnection x.text settings = .ok (ofAddress x) :=
  ⟨ofConnection_host hname hport, ofConnection_bracketed hliteral.2 hport,
    fun _ => ofConnection_name hname, fun _ => ofConnection_literal hliteral,
    fun _ => ofConnection_bracketed_literal hliteral, fun _ => ofConnection_text⟩

/-- Spellings of a name and of an address, without a port and with one. -/
theorem ofConnection_spellings_loopback :
    IsName "localhost".toList ∧ IsLiteral "::1".toList ∧ WritesPort "5020".toList 5020 ∧
    ofConnection "localhost:5020" " 1502\n" = .ok ⟨"localhost", 5020⟩ ∧
    ofConnection "[::1]:5020" " 1502\n" = .ok ⟨"::1", 5020⟩ ∧
    ofConnection "localhost" " 1502\n" = .ok ⟨"localhost", 1502⟩ ∧
    ofConnection "::1" " 1502\n" = .ok ⟨"::1", 1502⟩ ∧
    ofConnection "[::1]" " 1502\n" = .ok ⟨"[::1]", 1502⟩ ∧
    ofConnection (SocketAddress.text ⟨.v6 [0, 0, 0, 0, 0, 0, 0, 1], 5020, 0⟩) " 1502\n" =
      .ok ⟨"::1", 5020⟩ := by
  have hname : IsName "localhost".toList := by decide
  have hliteral : IsLiteral "::1".toList := by decide
  have hport : WritesPort "5020".toList 5020 := portOfText?_eq_some_iff.mp (by decide)
  have hsettings : SettingsPort " 1502\n" 1502 :=
    settingsPort_iff.mpr (.inr (portOfText?_eq_some_iff.mp (by decide)))
  obtain ⟨hhost, hbracketed, hbare, hcolons, hkept, haddress⟩ :=
    ofConnection_spellings " 1502\n" hname hliteral hport
  refine ⟨hname, hliteral, hport, hhost, hbracketed, (hbare _).mpr ⟨rfl, hsettings⟩,
    (hcolons _).mpr ⟨rfl, hsettings⟩, (hkept _).mpr ⟨rfl, hsettings⟩, ?_⟩
  exact haddress ⟨.v6 [0, 0, 0, 0, 0, 0, 0, 1], 5020, 0⟩ rfl

/-- Without a port, an address in brackets is not the host that it is without the brackets, and
cannot be listened at. -/
theorem not_unbracketed_literal :
    IsLiteral "::1".toList ∧ SettingsPort "" 502 ∧
    ofConnection "::1" "" = .ok ⟨"::1", 502⟩ ∧
    ofConnection "[::1]" "" = .ok ⟨"[::1]", 502⟩ ∧
    ofConnection "[::1]" "" ≠ .ok ⟨"::1", 502⟩ ∧
    SocketAddress.ofConnection "[::1]" "" = .error (.connection (.listenHost "[::1]")) := by
  refine ⟨by decide, .inl ⟨nofun, rfl⟩, rfl, rfl, ?_, rfl⟩
  intro h
  have hhost : "[::1]" = "::1" := congrArg Endpoint.host (Except.ok.inj h)
  exact absurd hhost (by decide)

end Endpoint

end Modbus.Net

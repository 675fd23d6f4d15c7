import Modbus.Link.Clock
import Modbus.Proofs.Client.Work

/-! Deadlines. Whoever waits for bytes works out when to stop, and so does a client that has to wait
before it connects again. None of these times lies further beyond the end of the work than the
longest of its waits, so a clock that tells times up to there does not get in the way of it. -/

namespace Modbus

/-! ### Clocks -/

namespace Clock

variable {σ α : Type} {horizon t : Nat} {journal : σ → Journal} {work : EStateM Error σ α} {s : σ}

theorem run_eq (horizon : Nat) (journal : σ → Journal) (work : EStateM Error σ α) (s : σ) :
    run horizon journal work s =
      if ∀ t ∈ (journal s).setSince (journal (after work s)), t ≤ horizon then .ok (work s)
      else .error .overflow := by
  rw [run, after]
  rcases work s with ⟨a, s'⟩ | ⟨e, s'⟩ <;> rfl

theorem run_of_forall_le
    (h : ∀ t ∈ (journal s).setSince (journal (after work s)), t ≤ horizon) :
    run horizon journal work s = .ok (work s) := by
  rw [run_eq, if_pos h]

theorem run_of_lt (ht : t ∈ (journal s).setSince (journal (after work s)))
    (hlate : horizon < t) : run horizon journal work s = .error .overflow := by
  rw [run_eq, if_neg]
  exact fun h => Nat.not_lt.mpr (h t ht) hlate

end Clock

/-! ### Deadlines that are set -/

/-- Time may have passed from the journal `j` to the journal `j'`, and the deadlines that have been
set on the way lie no further than `longest` beyond its end. -/
structure Journal.Expects (longest : Nat) (j j' : Journal) : Prop where
  now : j.now ≤ j'.now
  deadlines : ∃ more, j'.deadlines = j.deadlines ++ more ∧ ∀ t ∈ more, t ≤ j'.now + longest

namespace Journal.Expects

variable {longest : Nat} {j j' j'' : Journal}

theorem setSince_eq {more : List Nat} (h : j'.deadlines = j.deadlines ++ more) :
    j.setSince j' = more := by
  rw [setSince, h, List.drop_left]

theorem forall_le (h : j.Expects longest j') : ∀ t ∈ j.setSince j', t ≤ j'.now + longest := by
  obtain ⟨more, hmore, hle⟩ := h.deadlines
  rw [setSince_eq hmore]
  exact hle

theorem of_same (hnow : j.now ≤ j'.now) (hdeadlines : j'.deadlines = j.deadlines) :
    j.Expects longest j' :=
  ⟨hnow, [], by rw [hdeadlines, List.append_nil], nofun⟩

theorem of_setting {more : List Nat} (hnow : j.now ≤ j'.now)
    (hdeadlines : j'.deadlines = j.deadlines ++ more)
    (h : ∀ t ∈ more, t ≤ j'.now + longest) : j.Expects longest j' :=
  ⟨hnow, more, hdeadlines, h⟩

theorem trans (h : j.Expects longest j') (h' : j'.Expects longest j'') :
    j.Expects longest j'' := by
  obtain ⟨more, hmore, hle⟩ := h.deadlines
  obtain ⟨more', hmore', hle'⟩ := h'.deadlines
  have hnow := h'.now
  refine ⟨Nat.le_trans h.now hnow, more ++ more', ?_, fun t ht => ?_⟩
  · rw [hmore', hmore, List.append_assoc]
  · rcases List.mem_append.mp ht with ht | ht
    · have hearly := hle t ht
      omega
    · exact hle' t ht

end Journal.Expects

/-- The deadlines of the earlier journal `j` have been set in the journal `j'`. -/
def Journal.Extends (j j' : Journal) : Prop := j.deadlines <+: j'.deadlines

namespace Journal.Extends

variable {j j' j'' : Journal} {t : Nat}

theorem of_expects {longest : Nat} (h : j.Expects longest j') : j.Extends j' := by
  obtain ⟨more, hmore, -⟩ := h.deadlines
  exact ⟨more, hmore.symm⟩

theorem setSince_append (h : j.Extends j') (h' : j'.Extends j'') :
    j.setSince j'' = j.setSince j' ++ j'.setSince j'' := by
  obtain ⟨more, hmore⟩ := h
  obtain ⟨more', hmore'⟩ := h'
  have hboth : j''.deadlines = j.deadlines ++ (more ++ more') := by
    rw [← hmore', ← hmore, List.append_assoc]
  rw [Expects.setSince_eq hboth, Expects.setSince_eq hmore.symm, Expects.setSince_eq hmore'.symm]

/-- What has been set since the beginning stays set. -/
theorem mem_setSince (h : j'.Extends j'') (ht : t ∈ j.setSince j') : t ∈ j.setSince j'' := by
  obtain ⟨more, hmore⟩ := h
  rw [setSince, ← hmore, List.drop_append]
  exact List.mem_append_left _ ht

end Journal.Extends

/-- The journal of a state sets deadlines no further than `longest` beyond its end. -/
def Expecting {σ : Type} (longest : Nat) (journal : σ → Journal) (s s' : σ) : Prop :=
  (journal s).Expects longest (journal s')

instance {σ : Type} (longest : Nat) (journal : σ → Journal) :
    IsPreorder σ (Expecting longest journal) where
  refl _ := .of_same (Nat.le_refl _) rfl
  trans _ _ _ h h' := Journal.Expects.trans h h'

/-! ### Receiving -/

namespace Received

variable {codec : FrameCodec} {timeout byteTimeout deadline now : Nat} {buffer : List UInt8}
  {arrivals : List Arrival}

/-- Each read of a part of a frame sets the deadline for the next one. -/
theorem deadlines_await (codec : FrameCodec) (byteTimeout deadline : Nat) (buffer : List UInt8)
    (now : Nat) (arrivals : List Arrival) :
    let r := await codec byteTimeout deadline buffer now arrivals
    now ≤ r.now ∧ ∀ t ∈ r.deadlines, t ≤ r.now + byteTimeout := by
  fun_induction await codec byteTimeout deadline buffer now arrivals with
  | case1 | case3 | case5 => exact ⟨Nat.le_max_left _ _, nofun⟩
  | case2 deadline buffer now ms rest hin ih =>
    exact ⟨Nat.le_trans (Nat.le_add_right now ms) ih.1, ih.2⟩
  | case4 deadline buffer now t rest hin ih =>
    exact ⟨Nat.le_trans (Nat.le_max_left now t) ih.1, ih.2⟩
  | case6 | case7 | case8 => exact ⟨Nat.le_refl _, nofun⟩
  | case9 deadline buffer now b bs rest hnone ih =>
    obtain ⟨hnow, hle⟩ := ih
    refine ⟨hnow, fun t ht => ?_⟩
    rw [setting_deadlines, List.mem_cons] at ht
    rw [setting_now]
    rcases ht with rfl | ht
    · exact Nat.add_le_add_right hnow byteTimeout
    · exact hle t ht

/-- Receiving sets the deadline for the first bytes before anything else. -/
theorem deadlines_start (codec : FrameCodec) (timeout byteTimeout : Nat) (buffer : List UInt8)
    (now : Nat) (arrivals : List Arrival) :
    let r := start codec timeout byteTimeout buffer now arrivals
    now ≤ r.now ∧ now + timeout ∈ r.deadlines ∧
      ∀ longest, timeout ≤ longest → byteTimeout ≤ longest → ∀ t ∈ r.deadlines,
        t ≤ r.now + longest := by
  rw [start]
  rcases (codec.split buffer).outcome? with _ | ⟨result, left⟩
  · dsimp only
    generalize hdeadline : now + (if buffer.isEmpty then timeout else byteTimeout) = deadline
    obtain ⟨hnow, hle⟩ := deadlines_await codec byteTimeout deadline buffer now arrivals
    refine ⟨hnow, List.mem_cons_self, fun longest htimeout hbyteTimeout t ht => ?_⟩
    rw [setting_deadlines, setting_deadlines, List.mem_cons, List.mem_cons] at ht
    rw [setting_now, setting_now]
    rcases ht with rfl | rfl | ht
    · omega
    · split at hdeadline <;> omega
    · exact Nat.le_trans (hle t ht) (Nat.add_le_add_left hbyteTimeout _)
  · refine ⟨Nat.le_refl now, List.mem_singleton_self _, fun longest htimeout _ t ht => ?_⟩
    rw [List.mem_singleton.mp ht]
    exact Nat.add_le_add_left htimeout now

end Received

/-! ### Links -/

namespace Link

variable {longest : Nat} {l : Link}

theorem expecting_of_same {l' : Link} (hnow : l.journal.now ≤ l'.journal.now)
    (hdeadlines : l'.journal.deadlines = l.journal.deadlines) : Expecting longest journal l l' :=
  .of_same hnow hdeadlines

theorem expecting_attempt (a : Action) : Within (Expecting longest journal) (attempt a) :=
  within_attempt (fun _ _ => expecting_of_same (Nat.le_refl _) rfl) a

theorem expecting_perform (a : Action) : Within (Expecting longest journal) (perform a) :=
  within_perform (fun _ => expecting_of_same (Nat.le_refl _) rfl) (expecting_attempt a)

theorem expecting_sleep (ms : Nat) : Within (Expecting longest journal) (sleep ms) :=
  .modify fun _ => expecting_of_same (Nat.le_add_right _ _) rfl

theorem expecting_sleepUntil (t : Nat) : Within (Expecting longest journal) (sleepUntil t) :=
  .modify fun _ => expecting_of_same (Nat.le_max_left _ _) rfl

theorem expecting_dropChannel : Within (Expecting longest journal) dropChannel :=
  .modify fun _ => expecting_of_same (Nat.le_refl _) rfl

theorem expecting_clearBuffer : Within (Expecting longest journal) clearBuffer :=
  .modify fun _ => expecting_of_same (Nat.le_refl _) rfl

theorem expecting_send (message : Message) : Within (Expecting longest journal) (send message) :=
  within_send expecting_attempt (fun _ _ => expecting_of_same (Nat.le_refl _) rfl)
    expecting_sleep message

theorem expecting_connect (role : Role) (debug : Bool) (deadline : Option Nat) :
    Within (Expecting longest journal) (connect role debug deadline) := by
  have htake : Within (Expecting longest journal) takeStream :=
    within_takeStream fun _ _ _ => expecting_of_same (Nat.le_refl _) rfl
  have hmeet : Within (Expecting longest journal) (meet deadline) :=
    within_meet (expecting_perform .connecting)
      (fun _ _ => expecting_of_same (Nat.le_refl _) rfl) expecting_sleepUntil deadline
  rw [connect_eq]
  refine .bind (within_seek htake hmeet) fun peer => ?_
  rcases peer with _ | peer
  · exact .pure _
  · exact .bind (.modify fun _ => expecting_of_same (Nat.le_refl _) rfl) fun _ => .pure _

theorem expecting_receive {timeout byteTimeout : Nat} (htimeout : timeout ≤ longest)
    (hbyteTimeout : byteTimeout ≤ longest) :
    Within (Expecting longest journal) (receive timeout byteTimeout) := by
  intro l
  rcases hc : l.channel with _ | c
  · rw [after, receive, hc]
    exact refl l
  · obtain ⟨hnow, -, hle⟩ := Received.deadlines_start c.codec timeout byteTimeout c.buffer
      l.journal.now l.transport.wire.arrivals
    rw [after_receive hc]
    exact .of_setting hnow rfl (hle longest htimeout hbyteTimeout)

/-- Whoever receives on a connected stream works out how long the first bytes may take. -/
theorem mem_setSince_receive (hc : l.isConnected = true) (timeout byteTimeout : Nat) :
    l.journal.now + timeout ∈
      l.journal.setSince (after (receive timeout byteTimeout) l).journal := by
  obtain ⟨c, hchannel⟩ := Option.isSome_iff_exists.mp hc
  obtain ⟨-, hmem, -⟩ := Received.deadlines_start c.codec timeout byteTimeout c.buffer
    l.journal.now l.transport.wire.arrivals
  rw [after_receive hchannel, Journal.Expects.setSince_eq rfl]
  exact hmem

end Link

/-! ### Clients -/

/-- No wait with these settings is longer than `longest`. -/
structure LinkSettings.WaitsAtMost (longest : Nat) (settings : LinkSettings) : Prop where
  responseTimeout : settings.responseTimeout ≤ longest
  byteTimeout : settings.byteTimeout ≤ longest

namespace Client

/-- A client keeps its settings, and sets deadlines only for as long as it waits. -/
def Scheduling (longest : Nat) (c c' : Client) : Prop :=
  c.settings.WaitsAtMost longest →
    c'.settings = c.settings ∧ c.link.journal.Expects longest c'.link.journal

variable {longest : Nat}

instance : IsPreorder Client (Scheduling longest) where
  refl _ _ := ⟨rfl, .of_same (Nat.le_refl _) rfl⟩
  trans c c' c'' h h' hc := by
    obtain ⟨hsettings, hexpects⟩ := h hc
    obtain ⟨hsettings', hexpects'⟩ := h' (hsettings ▸ hc)
    exact ⟨hsettings'.trans hsettings, hexpects.trans hexpects'⟩

theorem scheduling_onLink {α : Type} {work : LinkM α}
    (h : Within (Expecting longest Link.journal) work) :
    Within (Scheduling longest) (onLink work) := by
  intro c _
  rw [after_onLink]
  exact ⟨rfl, h c.link⟩

theorem spans_scheduling : Spans (Scheduling longest) where
  perform a := scheduling_onLink (Link.expecting_perform a)
  connect debug := scheduling_onLink (Link.expecting_connect .response debug none)
  dropChannel := scheduling_onLink Link.expecting_dropChannel
  sleepUntil t := scheduling_onLink (Link.expecting_sleepUntil t)
  clearBuffer := scheduling_onLink Link.expecting_clearBuffer
  send message := scheduling_onLink (Link.expecting_send message)
  receive c hc := scheduling_onLink (Link.expecting_receive hc.responseTimeout hc.byteTimeout) c hc
  postpone c hc := by
    refine ⟨rfl, .of_setting (Nat.le_refl _) rfl fun t ht => ?_⟩
    rw [List.mem_singleton.mp ht]
    exact Nat.add_le_add_left hc.responseTimeout _
  resume c _ := ⟨rfl, .of_same (Nat.le_refl _) rfl⟩

theorem scheduling_call (unit : UnitId) (request : Request) :
    Within (Scheduling longest) (call unit request) :=
  within_call spans_scheduling (fun _ _ _ => ⟨rfl, .of_same (Nat.le_refl _) rfl⟩) unit request

end Client

end Modbus

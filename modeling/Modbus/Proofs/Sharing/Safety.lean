import Modbus.Proofs.Sharing.Exclusion
import Modbus.Proofs.Sharing.Order
import Modbus.Proofs.Sharing.Progress
import Modbus.Proofs.Sharing.Units

/-! Sharing a client is safe. On a line whose other end answers, gateways that share its client come
to what they would come to if each asked the other end itself, one after the other. -/

namespace Modbus

/-! ### What gateways ask -/

namespace Device

variable {d : Device} {map : DataMap} {route : Route} {r : Request} {notes : List String}

theorem of_execute_ask {request : Request} {resume : Answer Response → Answer Response × DataMap}
    (h : d.execute map route r = .ask notes request resume) :
    request.IsSupported ∧ request.WithinLimits := by
  rw [execute] at h
  split at h
  · cases h
  · rename_i hcheck
    split at h
    · cases h
    · split at h
      · cases h
      · split at h
        · cases h
        · split at h <;> cases h
          exact Request.of_check hcheck

/-- A gateway asks for nothing but what devices execute. -/
theorem of_process_ask {peer : Peer} {message : Message} {resume : Answer Response → Served}
    (h : d.process peer route message = .ask notes r resume) : r.IsSupported ∧ r.WithinLimits := by
  rw [process] at h
  dsimp only at h
  split at h
  · cases h
  · cases h
  · split at h
    · cases h
    · rename_i hmessage
      cases h
      rw [executeMessage] at hmessage
      split at hmessage
      · cases hmessage
      · exact of_execute_ask hmessage

end Device

namespace Setting

variable {ι κ σ δ : Type} {w : Setting ι κ σ} {k : κ} {s s' : Sharing ι κ σ} [DecidableEq ι]
  [DecidableEq κ]

/-- The identifiers of the devices stay, and units are asked by these and for what devices
execute. -/
structure AsksSoundly (devices : ι → Device) (s : Sharing ι κ σ) : Prop where
  id : ∀ i, (s.devices i).id = (devices i).id
  asks : ∀ k unit request, .asks k unit request ∈ s.log →
    (∃ i, (devices i).id = unit) ∧ request.IsSupported ∧ request.WithinLimits

theorem AsksSoundly.steps {devices : ι → Device} (h : AsksSoundly devices s)
    (hs : w.Consistent s) (hsteps : w.Steps k s s') : AsksSoundly devices s' := by
  have hold : ∀ {more : List (Event κ)} {k' unit request},
      (∀ e ∈ more, ∀ k unit request, e ≠ .asks k unit request) →
      .asks k' unit request ∈ s.log ++ more →
        (∃ i, (devices i).id = unit) ∧ request.IsSupported ∧ request.WithinLimits := by
    intro more k' unit request hmore hasked
    rcases List.mem_append.mp hasked with hasked | hnew
    · exact h.asks k' unit request hasked
    · exact (hmore _ hnew k' unit request rfl).elim
  cases hsteps with
  | enter hfree hserved =>
    refine ⟨h.id, fun k' unit request => hold fun e he => ?_⟩
    rw [mem_decision he]
    rintro _ _ _ ⟨⟩
  | leave hworking =>
    refine ⟨fun i => ?_, h.asks⟩
    rw [Setting.leave, ← h.id i]
    dsimp only
    rw [Function.update_apply]
    split
    · subst i
      rfl
    · rfl
  | ask hworking hcalling =>
    refine ⟨h.id, fun k' unit request' hasked => ?_⟩
    rcases List.mem_append.mp hasked with hasked | hnew
    · exact h.asks k' unit request' hasked
    · cases List.mem_singleton.mp hnew
      exact ⟨⟨w.gateway k, (h.id _).symm⟩,
        Device.of_process_ask (hs.asking _ k _ _ _ hworking)⟩
  | act hworking hcalling =>
    refine ⟨h.id, fun k' unit request => hold fun e he => ?_⟩
    obtain ⟨bytes, -, rfl⟩ := List.mem_map.mp he
    rintro _ _ _ ⟨⟩
  | release hworking hcalling =>
    refine ⟨h.id, fun k' unit request => hold fun e he => ?_⟩
    rw [List.mem_singleton.mp he]
    rintro _ _ _ ⟨⟩

theorem asksSoundly_polls (w : Setting ι κ σ) (upstream : σ) (devices : ι → Device)
    (schedule : List κ) : AsksSoundly devices (w.polls (.start upstream devices) schedule) :=
  (invariant_polls ⟨fun _ => rfl, by rintro _ _ _ ⟨⟩⟩ (fun _ _ _ hs h => h.steps hs) schedule).2

omit [DecidableEq ι] [DecidableEq κ] in
theorem AsksSoundly.of_mem_asked {devices : ι → Device} (h : AsksSoundly devices s) {unit : UnitId}
    {request : Request} (hmem : (k, unit, request) ∈ s.log.filterMap Event.asked?) :
    (∃ i, (devices i).id = unit) ∧ request.IsSupported ∧ request.WithinLimits := by
  obtain ⟨e, he, heq⟩ := List.mem_filterMap.mp hmem
  cases e with
  | asks k' unit' request' =>
    cases heq
    exact h.asks k unit request he
  | decides | writes | ends => cases heq

omit [DecidableEq ι] [DecidableEq κ] in
/-- When all have been served, nothing is going on. -/
theorem Consistent.isAtRest (hs : w.Consistent s) (h : ∀ k, (s.served k).isSome = true) :
    s.IsAtRest := by
  have hworking : ∀ i, s.working i = none := by
    intro i
    rcases hi : s.working i with _ | ⟨k, plan⟩
    · rfl
    · have hserved := h k
      rw [(hs.working i k plan hi).2] at hserved
      cases hserved
  refine ⟨hworking, ?_⟩
  rcases hcalling : s.calling with _ | ⟨i, course⟩
  · rfl
  · obtain ⟨_, _, _, _, hasking⟩ := hs.calling i course hcalling
    cases (hworking i).symm.trans hasking

end Setting

/-! ### Asking the other end -/

section

variable {ι κ δ : Type} {react : Reaction δ} {answer : UnitId → Request → δ → Answer Response × δ}
  {units : UnitId → Prop} {framing : Framing} {settings : LinkSettings}

/-- Calls over a line whose other end answers are answered by it, each with the answer to its own
request. -/
theorem conversation_of_answers (h : Line.Answers react answer units framing settings)
    (hunits : ∀ unit, units unit → unit.isBroadcast = false)
    (asked : List (κ × UnitId × Request)) {l : Line δ} (hready : l.IsReady framing settings)
    (hasked : ∀ k unit request, (k, unit, request) ∈ asked →
      units unit ∧ request.IsSupported ∧ request.WithinLimits) :
    let there := conversation (fun unit request => (Line.course react unit request).run) l asked
    let direct := conversation (Line.ask answer) l.device asked
    there.1 = direct.1 ∧ there.2.device = direct.2 := by
  induction asked generalizing l with
  | nil => exact ⟨rfl, rfl⟩
  | cons first rest ih =>
    obtain ⟨k, unit, request⟩ := first
    obtain ⟨hunit, hs, hl⟩ := hasked k unit request List.mem_cons_self
    obtain ⟨l', hrun, hdevice, hready'⟩ :=
      Line.run_course_of_answers h hready hunit (hunits unit hunit) hs hl
    obtain ⟨hanswers, hleft⟩ := ih hready' fun k unit request hmem =>
      hasked k unit request (List.mem_cons_of_mem _ hmem)
    rw [hdevice] at hanswers hleft
    simp only [conversation, hrun]
    exact ⟨congrArg _ hanswers, hleft⟩

/-- Gateways on a line and gateways that ask its other end themselves. -/
structure Gateways.Mirrors (units : UnitId → Prop) (framing : Framing) (settings : LinkSettings)
    (g : Gateways ι κ (Line δ)) (direct : Gateways ι κ δ) : Prop where
  devices : g.devices = direct.devices
  served : g.served = direct.served
  device : g.upstream.device = direct.upstream
  ready : g.upstream.IsReady framing settings
  units : ∀ i, units (direct.devices i).id

theorem Gateways.Mirrors.serve [DecidableEq ι] [DecidableEq κ]
    (h : Line.Answers react answer units framing settings)
    (hunits : ∀ unit, units unit → unit.isBroadcast = false) (executions : κ → Execution ι)
    {g : Gateways ι κ (Line δ)} {direct : Gateways ι κ δ}
    (hm : g.Mirrors units framing settings direct) (k : κ) :
    (g.serve executions (fun unit request => (Line.course react unit request).run) k).Mirrors units
      framing settings (direct.serve executions (Line.ask answer) k) := by
  have hplan : g.plan executions k = direct.plan executions k := by
    rw [plan, plan, hm.devices]
  have hids : ∀ served i, units (Function.update direct.devices (executions k).gateway
      { direct.devices (executions k).gateway with map := served } i).id := by
    intro served i
    rw [Function.update_apply]
    split
    · exact hm.units _
    · exact hm.units i
  rcases hcase : direct.plan executions k with served | ⟨notes, request, resume⟩
  · simp only [Gateways.serve, hplan, hcase, Plan.run, hm.devices, hm.served]
    exact ⟨rfl, rfl, hm.device, hm.ready, hids _⟩
  · obtain ⟨hs, hl⟩ := Device.of_process_ask hcase
    have hunit := hm.units (executions k).gateway
    obtain ⟨l', hrun, hdevice, hready⟩ :=
      Line.run_course_of_answers h hm.ready hunit (hunits _ hunit) hs hl
    rw [hm.device] at hrun hdevice
    simp only [Gateways.serve, hplan, hcase, Plan.run, hm.devices, hm.served, hrun]
    exact ⟨rfl, rfl, hdevice, hready, hids _⟩

theorem Gateways.Mirrors.foldl [DecidableEq ι] [DecidableEq κ]
    (h : Line.Answers react answer units framing settings)
    (hunits : ∀ unit, units unit → unit.isBroadcast = false) (executions : κ → Execution ι)
    (order : List κ) {g : Gateways ι κ (Line δ)} {direct : Gateways ι κ δ}
    (hm : g.Mirrors units framing settings direct) :
    (order.foldl (Gateways.serve executions
      (fun unit request => (Line.course react unit request).run)) g).Mirrors units framing settings
        (order.foldl (Gateways.serve executions (Line.ask answer)) direct) := by
  induction order generalizing g direct with
  | nil => exact hm
  | cons k rest ih => exact ih (hm.serve h hunits executions k)

end

/-- Gateways that share a client, however the executions at them are interleaved and in whatever
pieces their calls are made. Nothing is written while the call of another execution goes on. If the
other end of the line answers each request, then every call ends with the answer to its own request,
in the order in which the client is taken, and all gateways reply and have the maps as if they had
asked the other end themselves, one after the other in that order. All executions are served, if
they are polled again and again. -/
theorem shares_one_at_a_time {ι κ δ : Type} [DecidableEq ι] [DecidableEq κ] (react : Reaction δ)
    (executions : κ → Execution ι)
    (course : UnitId → Request → Course (Line δ) (Answer Response))
    (hcourse : ∀ unit request, (course unit request).run = (Line.course react unit request).run)
    (l : Line δ) (devices : ι → Device) (schedule : List κ) :
    let w : Setting ι κ (Line δ) := ⟨executions, course, Line.written⟩
    let s := w.polls (.start l devices) schedule
    Exclusive s.log ∧
      (∀ answer, Line.Answers react answer (fun unit => ∃ i, (devices i).id = unit)
          l.client.link.framing l.client.settings →
        l.client.link.Ready .response → (∀ i, (devices i).id.isRegistrable = true) → s.IsAtRest →
        let direct := (s.log.filterMap Event.committed?).foldl
          (Gateways.serve executions (Line.ask answer)) ⟨l.device, devices, fun _ => none⟩
        conversation (Line.ask answer) l.device (s.log.filterMap Event.asked?) =
            (s.log.filterMap Event.ended?, s.upstream.device) ∧
          s.served = direct.served ∧ s.devices = direct.devices) ∧
      (Finite κ → ∀ turns : ℕ → κ, (∀ k n, ∃ m ≥ n, turns m = k) →
        ∃ n, let s' := w.polls s ((List.range n).map turns)
          s'.IsAtRest ∧ ∀ k, (s'.served k).isSome = true) := by
  intro w s
  have hcall : w.call = fun unit request => (Line.course react unit request).run :=
    funext fun unit => funext fun request => hcourse unit request
  obtain ⟨hs, hserial⟩ := Setting.polls_of_isAtRest w l devices schedule
  refine ⟨Setting.exclusive_polls w l devices schedule, ?_, fun _ turns hfair => ?_⟩
  · intro answer hanswers hready hregistrable hrest direct
    have hunits : ∀ unit, (∃ i, (devices i).id = unit) → unit.isBroadcast = false := by
      rintro _ ⟨i, rfl⟩
      exact UnitId.isBroadcast_of_isRegistrable (hregistrable i)
    have hline : l.IsReady l.client.link.framing l.client.settings := ⟨hready, rfl, rfl⟩
    obtain ⟨hgateways, hconversation⟩ := hserial hrest
    have hasked : ∀ k unit request, (k, unit, request) ∈ s.log.filterMap Event.asked? →
        (∃ i, (devices i).id = unit) ∧ request.IsSupported ∧ request.WithinLimits :=
      fun _ _ _ hmem => (w.asksSoundly_polls l devices schedule).of_mem_asked hmem
    rw [hcall] at hconversation
    have hdirect := conversation_of_answers hanswers hunits _ hline hasked
    rw [hconversation] at hdirect
    have hstart : Gateways.Mirrors (κ := κ) (fun unit => ∃ i, (devices i).id = unit)
        l.client.link.framing l.client.settings ⟨l, devices, fun _ => none⟩
        ⟨l.device, devices, fun _ => none⟩ :=
      ⟨rfl, rfl, rfl, hline, fun i => ⟨i, rfl⟩⟩
    have hmirrors := hstart.foldl hanswers hunits executions (s.log.filterMap Event.committed?)
    have hserve : w.serve = Gateways.serve executions
        (fun unit request => (Line.course react unit request).run) := by
      rw [Setting.serve, hcall]
    rw [← hserve, ← hgateways] at hmirrors
    exact ⟨Prod.ext hdirect.1.symm hdirect.2.symm, hmirrors.served, hmirrors.devices⟩
  · obtain ⟨n, hall⟩ := Setting.exists_all_served hs turns hfair
    have hs' : w.Consistent (w.polls s ((List.range n).map turns)) :=
      Setting.polls_induction hs (fun _ _ _ h hsteps => h.steps hsteps) _
    exact ⟨n, hs'.isAtRest hall, hall⟩

namespace TwoGateways

/-- A serial line whose units have one register each. -/
def line : Line (UnitId → DataMap) :=
  ⟨.ofTransport ⟨.attached .rtu true, .quiet "client"⟩ .standard false,
    fun unit => ((Device.ofId unit).declare .holdingRegister 1 1).map⟩

/-- Gateways to two of them. -/
def devices (second : Bool) : Device :=
  { (Device.ofId (if second then ⟨9⟩ else ⟨7⟩)).declare .holdingRegister 1 1 with
    forwardsTo := some 0 }

/-- At each gateway its register is written, and at one of them it is read as well. -/
def executions : Fin 3 → Execution Bool
  | 0 => ⟨false, .inProcess, (Header.tcp 9 ⟨7⟩).frame .request [0x06, 0, 0, 0, 5]⟩
  | 1 => ⟨true, .inProcess, (Header.tcp 9 ⟨7⟩).frame .request [0x06, 0, 0, 0, 6]⟩
  | 2 => ⟨false, .inProcess, (Header.tcp 9 ⟨7⟩).frame .request [0x03, 0, 0, 0, 1]⟩

def setting : Setting Bool (Fin 3) (Line (UnitId → DataMap)) :=
  ⟨executions, Line.course (Line.unitsReact .rtu), Line.written⟩

/-- The executions are polled in turn. The last one waits for the map that the first one holds, and
the second one for the client. -/
def polled : Sharing Bool (Fin 3) (Line (UnitId → DataMap)) :=
  setting.polls (.start line devices) (List.replicate 16 [0, 1, 2]).flatten

theorem isAtRest_polled : polled.IsAtRest := by
  have hworking : ∀ i, (polled.working i).isSome = false := by decide +kernel
  have hcalling : polled.calling.isSome = false := by decide +kernel
  exact ⟨fun i => Option.not_isSome_iff_eq_none.mp (Bool.eq_false_iff.mp (hworking i)),
    Option.not_isSome_iff_eq_none.mp (Bool.eq_false_iff.mp hcalling)⟩

theorem order_polled : polled.log.filterMap Event.committed? = [0, 1, 2] := by decide +kernel

theorem exists_turn (k : Fin 3) (n : ℕ) : ∃ m ≥ n, Fin.ofNat 3 m = k := by
  refine ⟨3 * n + k, by omega, Fin.ext ?_⟩
  show (3 * n + k) % 3 = k
  omega

end TwoGateways

open TwoGateways in
/-- Two registers are written and one is read, as if there were no other gateway. -/
theorem shares_one_at_a_time_registers :
    (line.client.link.Ready .response ∧ (∀ i, (devices i).id.isRegistrable = true) ∧
      polled.IsAtRest) ∧
    Exclusive polled.log ∧
    ([0, 1, 2].map fun k => (polled.served k).map fun served => served.reply.map (·.pdu)) =
      [some (some [0x06, 0, 0, 0, 5]), some (some [0x06, 0, 0, 0, 6]), some (some [0x03, 2, 0, 5])] ∧
    ([false, true].map fun i => (polled.devices i).map.model.holdingRegisters.cells 1 1) =
      [[5], [6]] ∧
    ∃ n, ∀ k, ((setting.polls polled ((List.range n).map (Fin.ofNat 3))).served k).isSome = true := by
  have hready : line.client.link.Ready .response := ⟨⟨fun _ => rfl, .inr ⟨rfl, rfl⟩⟩, rfl⟩
  have hregistrable : ∀ i, (devices i).id.isRegistrable = true := by decide
  obtain ⟨hexclusive, hdirect, hcompletes⟩ := shares_one_at_a_time (Line.unitsReact .rtu)
    executions (Line.course (Line.unitsReact .rtu)) (fun _ _ => rfl) line devices
    (List.replicate 16 [0, 1, 2]).flatten
  obtain ⟨-, hserved, hdevices⟩ := hdirect Line.unitsAnswer (Line.answers_unitsReact _ _ _) hready
    hregistrable isAtRest_polled
  obtain ⟨n, -, hall⟩ := hcompletes inferInstance (Fin.ofNat 3) exists_turn
  have hpolled : Setting.polls ⟨executions, Line.course (Line.unitsReact .rtu), Line.written⟩
      (.start line devices) (List.replicate 16 [0, 1, 2]).flatten = polled := rfl
  rw [hpolled, order_polled] at hserved hdevices
  refine ⟨⟨hready, hregistrable, isAtRest_polled⟩, hexclusive, ?_, ?_, n, hall⟩
  · rw [hserved]
    decide +kernel
  · rw [hdevices]
    decide +kernel

end Modbus

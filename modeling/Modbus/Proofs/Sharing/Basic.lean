import Mathlib.Logic.Function.Basic
import Modbus.Device.Process

/-! Gateways that share a client. The executions of requests at them go on side by side: each holds
the map of its gateway from its beginning to its end, and the client while it asks a unit with it,
and it may be left at every point where it waits. -/

namespace Modbus

/-! ### Work in pieces -/

/-- Work on a state that may be left after each piece of it. -/
inductive Course (σ α : Type) where
  | ended (result : α)
  /-- What follows the piece depends on the state before it. -/
  | piece (act : σ → σ) (next : σ → Course σ α)

namespace Course

variable {σ α : Type}

/-- What the work comes to when it is not left. -/
def run : Course σ α → σ → α × σ
  | ended result, s => (result, s)
  | piece act next, s => (next s).run (act s)

/-- The number of pieces that the work has when it is not left. -/
def length : Course σ α → σ → Nat
  | ended _, _ => 0
  | piece act next, s => (next s).length (act s) + 1

end Course

/-! ### Gateways -/

/-- A message from a peer that a gateway is to process. -/
structure Execution (ι : Type) where
  gateway : ι
  peer : Peer
  message : Message

/-- Gateways named by `ι`, what they share, and what the executions named by `κ` have left. -/
@[ext]
structure Gateways (ι κ σ : Type) where
  upstream : σ
  devices : ι → Device
  served : κ → Option Served

namespace Gateways

variable {ι κ σ : Type} (executions : κ → Execution ι)

/-- What a gateway makes of a message when it begins with it. -/
def plan (g : Gateways ι κ σ) (k : κ) : Plan Served :=
  let e := executions k
  (g.devices e.gateway).process e.peer .forward e.message

/-- Serves a message while nothing else is done. -/
def serve [DecidableEq ι] [DecidableEq κ] (call : UnitId → Request → σ → Answer Response × σ)
    (g : Gateways ι κ σ) (k : κ) : Gateways ι κ σ :=
  let i := (executions k).gateway
  let d := g.devices i
  let (served, upstream) := (g.plan executions k).run (fun _ s => s) (call d.id) g.upstream
  ⟨upstream, Function.update g.devices i { d with map := served.map },
    Function.update g.served k (some served)⟩

end Gateways

/-! ### Executions side by side -/

/-- What executions do that others can tell. -/
inductive Event (κ : Type) where
  /-- The map alone decides, and nobody is asked. -/
  | decides (k : κ)
  /-- The client has been taken to ask a unit. -/
  | asks (k : κ) (unit : UnitId) (request : Request)
  | writes (k : κ) (bytes : List UInt8)
  /-- The call has ended with the answer, and the client has been given back. -/
  | ends (k : κ) (answer : Answer Response)

/-- What is to be executed, and how calls are made: in what pieces, and what has been written to the
line upstream. -/
structure Setting (ι κ σ : Type) where
  executions : κ → Execution ι
  course : UnitId → Request → Course σ (Answer Response)
  written : σ → List (List UInt8)

/-- Gateways with the executions that are going on. -/
structure Sharing (ι κ σ : Type) extends Gateways ι κ σ where
  /-- The execution that holds the map of a gateway, and what is left of it. -/
  working : ι → Option (κ × Plan Served)
  /-- The gateway that holds the client, and what is left of its call. -/
  calling : Option (ι × Course σ (Answer Response))
  log : List (Event κ)

/-- Gateways at which nothing has begun. -/
def Sharing.start {ι κ σ : Type} (upstream : σ) (devices : ι → Device) : Sharing ι κ σ :=
  ⟨⟨upstream, devices, fun _ => none⟩, fun _ => none, none, []⟩

/-- Nothing is going on: nobody holds a map or the client. -/
structure Sharing.IsAtRest {ι κ σ : Type} (s : Sharing ι κ σ) : Prop where
  working : ∀ i, s.working i = none
  calling : s.calling = none

namespace Setting

variable {ι κ σ : Type} (w : Setting ι κ σ)

def gateway (k : κ) : ι := (w.executions k).gateway

/-- The device that an execution is for. -/
def device (s : Sharing ι κ σ) (k : κ) : Device := s.devices (w.gateway k)

def plan (s : Sharing ι κ σ) (k : κ) : Plan Served := s.toGateways.plan w.executions k

/-- A call of a unit that is not left before it ends. -/
def call (unit : UnitId) (request : Request) : σ → Answer Response × σ :=
  (w.course unit request).run

/-- What is known once an execution has begun. -/
def decision (k : κ) : Plan Served → List (Event κ)
  | .done _ => [.decides k]
  | .ask .. => []

variable [DecidableEq ι] [DecidableEq κ]

/-- The execution takes the map of its gateway. -/
def enter (s : Sharing ι κ σ) (k : κ) : Sharing ι κ σ :=
  { s with
    working := Function.update s.working (w.gateway k) (some (k, w.plan s k)),
    log := s.log ++ decision k (w.plan s k) }

/-- The execution has been served, and gives the map back. -/
def leave (s : Sharing ι κ σ) (k : κ) (served : Served) : Sharing ι κ σ :=
  { s with
    devices := Function.update s.devices (w.gateway k) { w.device s k with map := served.map },
    served := Function.update s.served k (some served),
    working := Function.update s.working (w.gateway k) none }

/-- The execution takes the client. -/
def ask (s : Sharing ι κ σ) (k : κ) (request : Request) : Sharing ι κ σ :=
  let unit := (w.device s k).id
  { s with
    calling := some (w.gateway k, w.course unit request),
    log := s.log ++ [.asks k unit request] }

/-- The execution does a piece of its call. -/
def act (s : Sharing ι κ σ) (k : κ) (act : σ → σ) (next : σ → Course σ (Answer Response)) :
    Sharing ι κ σ :=
  let upstream := act s.upstream
  { s with
    upstream,
    calling := some (w.gateway k, next s.upstream),
    log := s.log ++ ((w.written upstream).drop (w.written s.upstream).length).map (.writes k) }

/-- The call of the execution has ended, and it gives the client back. -/
def release (s : Sharing ι κ σ) (k : κ) (answer : Answer Response) (served : Served) :
    Sharing ι κ σ :=
  { s with
    working := Function.update s.working (w.gateway k) (some (k, .done served)),
    calling := none,
    log := s.log ++ [.ends k answer] }

/-- Goes on with an execution that holds the map of its gateway. It waits as long as another one
has the client. -/
def proceed (s : Sharing ι κ σ) (k : κ) : Plan Served → Sharing ι κ σ
  | .done served => w.leave s k served
  | .ask _ request resume =>
    match s.calling with
    | none => w.ask s k request
    | some (i, course) =>
      if i = w.gateway k then
        match course with
        | .ended answer => w.release s k answer (resume answer)
        | .piece act next => w.act s k act next
      else s

/-- Lets an execution go on to the next point where it may be left. It waits as long as another one
has the map of its gateway. -/
def poll (s : Sharing ι κ σ) (k : κ) : Sharing ι κ σ :=
  if (s.served k).isSome then s
  else
    match s.working (w.gateway k) with
    | none => w.enter s k
    | some (k', plan) => if k' = k then w.proceed s k plan else s

/-- Lets executions go on, each as often and in the order in which they stand in the schedule. -/
def polls (s : Sharing ι κ σ) (schedule : List κ) : Sharing ι κ σ := schedule.foldl w.poll s

/-! ### Steps -/

/-- The execution has gone on from `s`. -/
inductive Steps (k : κ) (s : Sharing ι κ σ) : Sharing ι κ σ → Prop where
  | enter (hfree : s.working (w.gateway k) = none) (hserved : s.served k = none) :
    Steps k s (w.enter s k)
  | leave {served : Served} (hworking : s.working (w.gateway k) = some (k, .done served)) :
    Steps k s (w.leave s k served)
  | ask {notes : List String} {request : Request} {resume : Answer Response → Served}
    (hworking : s.working (w.gateway k) = some (k, .ask notes request resume))
    (hcalling : s.calling = none) : Steps k s (w.ask s k request)
  | act {notes : List String} {request : Request} {resume : Answer Response → Served}
    {act : σ → σ} {next : σ → Course σ (Answer Response)}
    (hworking : s.working (w.gateway k) = some (k, .ask notes request resume))
    (hcalling : s.calling = some (w.gateway k, .piece act next)) : Steps k s (w.act s k act next)
  | release {notes : List String} {request : Request} {resume : Answer Response → Served}
    {answer : Answer Response}
    (hworking : s.working (w.gateway k) = some (k, .ask notes request resume))
    (hcalling : s.calling = some (w.gateway k, .ended answer)) :
    Steps k s (w.release s k answer (resume answer))

section

variable {w} {k : κ} {s s' : Sharing ι κ σ}

theorem poll_of_served {served : Served} (h : s.served k = some served) : w.poll s k = s :=
  if_pos (by rw [h, Option.isSome_some])

theorem steps_of_free (hserved : s.served k = none) (hfree : s.working (w.gateway k) = none) :
    w.Steps k s (w.poll s k) := by
  rw [poll, hserved, hfree]
  exact .enter hfree hserved

theorem poll_of_working (hserved : s.served k = none) {plan : Plan Served}
    (hworking : s.working (w.gateway k) = some (k, plan)) : w.poll s k = w.proceed s k plan := by
  rw [poll, hserved, hworking]
  exact if_pos rfl

/-- An execution that holds the map of its gateway goes on, unless another one has the client. -/
theorem steps_of_working (hserved : s.served k = none) {plan : Plan Served}
    (hworking : s.working (w.gateway k) = some (k, plan))
    (hcalling : ∀ i course, s.calling = some (i, course) → i = w.gateway k) :
    w.Steps k s (w.poll s k) := by
  rw [poll_of_working hserved hworking]
  cases plan with
  | done served => exact .leave hworking
  | ask notes request resume =>
    rcases hcaller : s.calling with _ | ⟨i, course⟩
    · simp only [proceed, hcaller]
      exact .ask hworking hcaller
    · obtain rfl := hcalling i course hcaller
      cases course with
      | ended answer =>
        simp only [proceed, hcaller, if_true]
        exact .release hworking hcaller
      | piece act next =>
        simp only [proceed, hcaller, if_true]
        exact .act hworking hcaller

/-- Whoever is polled goes on or waits. -/
theorem poll_eq_or_steps (w : Setting ι κ σ) (s : Sharing ι κ σ) (k : κ) :
    w.poll s k = s ∨ w.Steps k s (w.poll s k) := by
  rcases hserved : s.served k with _ | served
  · rcases hworking : s.working (w.gateway k) with _ | ⟨k', plan⟩
    · exact .inr (steps_of_free hserved hworking)
    · by_cases hk : k' = k
      · subst hk
        cases plan with
        | done served =>
          rw [poll_of_working hserved hworking]
          exact .inr (.leave hworking)
        | ask notes request resume =>
          by_cases hother : ∃ i course, s.calling = some (i, course) ∧ i ≠ w.gateway k'
          · obtain ⟨i, course, hcaller, hi⟩ := hother
            rw [poll_of_working hserved hworking]
            exact .inl (by simp only [proceed, hcaller, if_neg hi])
          · refine .inr (steps_of_working hserved hworking fun i course hcaller => ?_)
            by_contra hi
            exact hother ⟨i, course, hcaller, hi⟩
      · left
        rw [poll, hserved, hworking]
        exact if_neg hk
  · exact .inl (poll_of_served hserved)

/-- What holds at first and after each step holds whatever the schedule is. -/
theorem polls_induction {P : Sharing ι κ σ → Prop} (h : P s)
    (hsteps : ∀ s s' k, P s → w.Steps k s s' → P s') (schedule : List κ) :
    P (w.polls s schedule) := by
  induction schedule generalizing s with
  | nil => exact h
  | cons k rest ih =>
    refine ih (s := w.poll s k) ?_
    rcases w.poll_eq_or_steps s k with hsame | hgoes
    · rw [hsame]
      exact h
    · exact hsteps s _ k h hgoes

end

/-! ### Consistency -/

/-- What holds of all that executions can come to: an execution works at its own gateway and is not
served yet, it has made its plan of the map that it holds, and whoever has the client is asking. -/
structure Consistent (s : Sharing ι κ σ) : Prop where
  working : ∀ i k plan, s.working i = some (k, plan) → w.gateway k = i ∧ s.served k = none
  asking : ∀ i k notes request resume, s.working i = some (k, .ask notes request resume) →
    w.plan s k = .ask notes request resume
  calling : ∀ i course, s.calling = some (i, course) →
    ∃ k notes request resume, s.working i = some (k, .ask notes request resume)

omit [DecidableEq ι] [DecidableEq κ] in
theorem consistent_start (upstream : σ) (devices : ι → Device) :
    w.Consistent (.start upstream devices) :=
  ⟨by rintro _ _ _ ⟨⟩, by rintro _ _ _ _ _ ⟨⟩, by rintro _ _ ⟨⟩⟩

variable {w} {k : κ} {s s' : Sharing ι κ σ}

section

variable {i : ι} {course : Course σ (Answer Response)}

omit [DecidableEq ι] [DecidableEq κ]

theorem Consistent.ne_of_free (h : w.Consistent s) (hcalling : s.calling = some (i, course))
    (hfree : s.working (w.gateway k) = none) : i ≠ w.gateway k := by
  rintro rfl
  obtain ⟨_, _, _, _, hworking⟩ := h.calling _ course hcalling
  cases hfree.symm.trans hworking

theorem Consistent.ne_of_done (h : w.Consistent s) (hcalling : s.calling = some (i, course))
    {served : Served} (hdone : s.working (w.gateway k) = some (k, .done served)) :
    i ≠ w.gateway k := by
  rintro rfl
  obtain ⟨_, _, _, _, hworking⟩ := h.calling _ course hcalling
  cases hdone.symm.trans hworking

end

omit [DecidableEq ι] [DecidableEq κ] in
theorem plan_congr (h : w.device s' k = w.device s k) : w.plan s' k = w.plan s k := by
  have h' : s'.devices (w.executions k).gateway = s.devices (w.executions k).gateway := h
  rw [plan, plan, Gateways.plan, Gateways.plan, h']

omit [DecidableEq κ] in
/-- Who holds a map after one of them has been taken, kept or given back. -/
theorem of_update_working {x : Option (κ × Plan Served)} {i j : ι} {held : κ × Plan Served}
    (h : Function.update s.working j x i = some held) :
    (i = j ∧ x = some held) ∨ i ≠ j ∧ s.working i = some held := by
  rw [Function.update_apply] at h
  split at h
  · exact .inl ⟨‹_›, h⟩
  · exact .inr ⟨‹_›, h⟩

omit [DecidableEq κ] in
theorem Consistent.enter (h : w.Consistent s) (hfree : s.working (w.gateway k) = none)
    (hserved : s.served k = none) : w.Consistent (w.enter s k) := by
  refine ⟨fun i k' plan hi => ?_, fun i k' notes request resume hi => ?_, fun i course hi => ?_⟩
  · rcases of_update_working hi with ⟨rfl, hk⟩ | ⟨-, hi⟩
    · cases hk
      exact ⟨rfl, hserved⟩
    · exact h.working i k' plan hi
  · rcases of_update_working hi with ⟨rfl, hk⟩ | ⟨-, hi⟩
    · obtain ⟨rfl, hplan⟩ : k = k' ∧ w.plan s k = .ask notes request resume := by
        simpa only [Option.some.injEq, Prod.mk.injEq] using hk
      exact hplan
    · exact h.asking i k' notes request resume hi
  · obtain ⟨k', notes, request, resume, hworking⟩ := h.calling i course hi
    have hne : i ≠ w.gateway k := h.ne_of_free hi hfree
    exact ⟨k', notes, request, resume, (Function.update_of_ne hne ..).trans hworking⟩

theorem Consistent.leave (h : w.Consistent s) {served : Served}
    (hworking : s.working (w.gateway k) = some (k, .done served)) :
    w.Consistent (w.leave s k served) := by
  refine ⟨fun i k' plan hi => ?_, fun i k' notes request resume hi => ?_, fun i course hi => ?_⟩
  · rcases of_update_working hi with ⟨-, ⟨⟩⟩ | ⟨hne, hi⟩
    obtain ⟨rfl, hserved⟩ := h.working i k' plan hi
    have hk : k' ≠ k := by
      rintro rfl
      exact hne rfl
    exact ⟨rfl, (Function.update_of_ne hk ..).trans hserved⟩
  · rcases of_update_working hi with ⟨-, ⟨⟩⟩ | ⟨hne, hi⟩
    obtain ⟨rfl, -⟩ := h.working i k' _ hi
    have hdevice : w.device (w.leave s k served) k' = w.device s k' := Function.update_of_ne hne ..
    rw [plan_congr hdevice]
    exact h.asking _ k' notes request resume hi
  · obtain ⟨k', notes, request, resume, hcaller⟩ := h.calling i course hi
    have hne : i ≠ w.gateway k := h.ne_of_done hi hworking
    exact ⟨k', notes, request, resume, (Function.update_of_ne hne ..).trans hcaller⟩

omit [DecidableEq κ] in
theorem Consistent.release (h : w.Consistent s) {plan : Plan Served}
    (hworking : s.working (w.gateway k) = some (k, plan)) (answer : Answer Response)
    (served : Served) : w.Consistent (w.release s k answer served) := by
  refine ⟨fun i k' plan hi => ?_, fun i k' notes request resume hi => ?_, by rintro _ _ ⟨⟩⟩
  · rcases of_update_working hi with ⟨rfl, hk⟩ | ⟨-, hi⟩
    · cases hk
      exact h.working _ k _ hworking
    · exact h.working i k' plan hi
  · rcases of_update_working hi with ⟨-, ⟨⟩⟩ | ⟨-, hi⟩
    exact h.asking i k' notes request resume hi

theorem Consistent.steps (h : w.Consistent s) (hsteps : w.Steps k s s') : w.Consistent s' := by
  cases hsteps with
  | enter hfree hserved => exact h.enter hfree hserved
  | leave hworking => exact h.leave hworking
  | ask hworking _ | act hworking _ =>
    refine ⟨h.working, h.asking, fun i course hi => ?_⟩
    cases hi
    exact ⟨k, _, _, _, hworking⟩
  | release hworking _ => exact h.release hworking _ _

/-- What holds at first and is kept by the steps of consistent executions holds whatever the schedule
is. -/
theorem invariant_polls {P : Sharing ι κ σ → Prop} {upstream : σ} {devices : ι → Device}
    (hstart : P (.start upstream devices))
    (hsteps : ∀ s s' k, w.Consistent s → P s → w.Steps k s s' → P s') (schedule : List κ) :
    w.Consistent (w.polls (.start upstream devices) schedule) ∧
      P (w.polls (.start upstream devices) schedule) :=
  polls_induction (P := fun s => w.Consistent s ∧ P s) ⟨w.consistent_start upstream devices, hstart⟩
    (fun s s' k h hgoes => ⟨h.1.steps hgoes, hsteps s s' k h.1 h.2 hgoes⟩) schedule

end Setting

end Modbus

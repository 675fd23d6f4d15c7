import Modbus.Proofs.Sharing.Basic

/-! The order of executions side by side. What they come to is what they come to one after the
other, in the order in which they take the client. -/

namespace Modbus

/-! ### Logs -/

namespace Event

variable {κ : Type}

/-- The execution of which it is certain now what it will come to. -/
def committed? : Event κ → Option κ
  | decides k | asks k _ _ => some k
  | writes .. | ends .. => none

/-- The execution that takes the client, with what it asks. -/
def asked? : Event κ → Option (κ × UnitId × Request)
  | asks k unit request => some (k, unit, request)
  | decides _ | writes .. | ends .. => none

def ended? : Event κ → Option (κ × Answer Response)
  | ends k answer => some (k, answer)
  | decides _ | asks .. | writes .. => none

end Event

/-- Calls one after the other: their answers, and what they leave. -/
def conversation {κ σ : Type} (call : UnitId → Request → σ → Answer Response × σ) (s : σ) :
    List (κ × UnitId × Request) → List (κ × Answer Response) × σ
  | [] => ([], s)
  | (k, unit, request) :: rest =>
    let (answer, s) := call unit request s
    let (answers, s) := conversation call s rest
    ((k, answer) :: answers, s)

theorem conversation_append {κ σ : Type} (call : UnitId → Request → σ → Answer Response × σ) (s : σ)
    (asked more : List (κ × UnitId × Request)) :
    conversation call s (asked ++ more) =
      ((conversation call s asked).1 ++ (conversation call (conversation call s asked).2 more).1,
        (conversation call (conversation call s asked).2 more).2) := by
  induction asked generalizing s with
  | nil => rfl
  | cons first rest ih => simp only [List.cons_append, conversation, ih]

namespace Setting

variable {ι κ σ : Type} {w : Setting ι κ σ} {k k' : κ} {s s' : Sharing ι κ σ} [DecidableEq ι]
  [DecidableEq κ]

/-! ### What is certain -/

/-- The execution that holds the map of a gateway and what it will leave, once nobody can change
that. -/
def certain (s : Sharing ι κ σ) (i : ι) : Option (κ × Served) :=
  match s.working i with
  | none => none
  | some (k, .done served) => some (k, served)
  | some (k, .ask _ _ resume) =>
    match s.calling with
    | none => none
    | some (j, course) => if j = i then some (k, resume (course.run s.upstream).1) else none

/-- What there will be when all has been done that is certain. -/
def settled (w : Setting ι κ σ) (s : Sharing ι κ σ) : Gateways ι κ σ where
  upstream :=
    match s.calling with
    | none => s.upstream
    | some (_, course) => (course.run s.upstream).2
  devices i :=
    match certain s i with
    | none => s.devices i
    | some (_, served) => { s.devices i with map := served.map }
  served k :=
    match s.served k with
    | some served => some served
    | none =>
      match certain s (w.gateway k) with
      | none => none
      | some (k', served) => if k' = k then some served else none

omit [DecidableEq κ] in
theorem certain_of_free {i : ι} (h : s.working i = none) : certain s i = none := by
  rw [certain, h]

omit [DecidableEq κ] in
/-- What is certain changes at one gateway, when the map alone decides or when the client is
taken. -/
theorem certain_enter {served : Served} (hplan : w.plan s k = .done served) :
    certain (w.enter s k) = Function.update (certain s) (w.gateway k) (some (k, served)) := by
  funext i
  by_cases hi : i = w.gateway k
  · subst hi
    simp only [certain, enter, Function.update_self, hplan]
  · simp only [certain, enter, Function.update_of_ne hi]

omit [DecidableEq κ] in
theorem certain_ask {notes : List String} {request : Request} {resume : Answer Response → Served}
    (hworking : s.working (w.gateway k) = some (k, .ask notes request resume))
    (hcalling : s.calling = none) :
    certain (w.ask s k request) = Function.update (certain s) (w.gateway k)
      (some (k, resume (w.call (w.device s k).id request s.upstream).1)) := by
  funext i
  by_cases hi : i = w.gateway k
  · subst hi
    simp only [certain, ask, hworking, if_true, call, Function.update_self]
  · simp only [certain, ask, hcalling, if_neg (Ne.symm hi), Function.update_of_ne hi]

omit [DecidableEq κ] in
theorem certain_enter_of_ask (hs : w.Consistent s) (hfree : s.working (w.gateway k) = none)
    {notes : List String} {request : Request} {resume : Answer Response → Served}
    (hplan : w.plan s k = .ask notes request resume) : certain (w.enter s k) = certain s := by
  funext i
  by_cases hi : i = w.gateway k
  · subst hi
    simp only [certain, enter, Function.update_self, hplan, hfree]
    split
    · rfl
    · rename_i j course hcalling
      exact if_neg (hs.ne_of_free hcalling hfree)
  · simp only [certain, enter, Function.update_of_ne hi]

omit [DecidableEq κ] in
theorem certain_act {act : σ → σ} {next : σ → Course σ (Answer Response)}
    (hcalling : s.calling = some (w.gateway k, .piece act next)) :
    certain (w.act s k act next) = certain s := by
  funext i
  simp only [certain, Setting.act, hcalling, Course.run]

omit [DecidableEq κ] in
theorem certain_release {notes : List String} {request : Request}
    {resume : Answer Response → Served} {answer : Answer Response}
    (hworking : s.working (w.gateway k) = some (k, .ask notes request resume))
    (hcalling : s.calling = some (w.gateway k, .ended answer)) :
    certain (w.release s k answer (resume answer)) = certain s := by
  funext i
  by_cases hi : i = w.gateway k
  · subst hi
    simp only [certain, release, Function.update_self, hworking, hcalling, if_true, Course.run]
  · simp only [certain, release, Function.update_of_ne hi, hcalling, if_neg (Ne.symm hi)]

theorem certain_leave (served : Served) :
    certain (w.leave s k served) = Function.update (certain s) (w.gateway k) none := by
  funext i
  by_cases hi : i = w.gateway k
  · subst hi
    simp only [certain, leave, Function.update_self]
  · simp only [certain, leave, Function.update_of_ne hi]

/-! ### Commitment -/

/-- An execution commits itself: from now on it is certain what it will leave. -/
theorem settled_of_commits {u : σ} {served : Served} (hnone : certain s (w.gateway k) = none)
    (hserved : s.served k = none) (hdevices : s'.devices = s.devices)
    (hserved' : s'.served = s.served)
    (hcertain : certain s' = Function.update (certain s) (w.gateway k) (some (k, served)))
    (hupstream : (w.settled s').upstream = u) :
    w.settled s' =
      ⟨u, Function.update (w.settled s).devices (w.gateway k)
          { w.device s k with map := served.map },
        Function.update (w.settled s).served k (some served)⟩ := by
  refine Gateways.ext hupstream (funext fun i => ?_) (funext fun k' => ?_)
  · by_cases hi : i = w.gateway k
    · subst hi
      simp only [settled, hcertain, Function.update_self, hdevices, device]
    · simp only [settled, hcertain, Function.update_of_ne hi, hdevices]
  · by_cases hk : k' = k
    · subst hk
      simp only [settled, hcertain, Function.update_self, hserved', hserved, if_true]
    · by_cases hi : w.gateway k' = w.gateway k
      · simp only [settled, hcertain, hi, Function.update_self, hserved', hnone,
          if_neg (Ne.symm hk), Function.update_of_ne hk]
      · simp only [settled, hcertain, Function.update_of_ne hi, hserved', Function.update_of_ne hk]

/-- Serves a message while nothing else is done. -/
def serve (w : Setting ι κ σ) : Gateways ι κ σ → κ → Gateways ι κ σ :=
  Gateways.serve w.executions w.call

theorem serve_settled (hnone : certain s (w.gateway k) = none) :
    w.serve (w.settled s) k =
      let served :=
        (w.plan s k).run (fun _ u => u) (w.call (w.device s k).id) (w.settled s).upstream
      ⟨served.2, Function.update (w.settled s).devices (w.gateway k)
          { w.device s k with map := served.1.map },
        Function.update (w.settled s).served k (some served.1)⟩ := by
  have hdevice : (w.settled s).devices (w.executions k).gateway = w.device s k := by
    have hnone' : certain s (w.executions k).gateway = none := hnone
    simp only [settled, hnone', device, gateway]
  have hplan : (w.settled s).plan w.executions k = w.plan s k := by
    rw [Gateways.plan, hdevice]
    rfl
  simp only [serve, Gateways.serve, hdevice, hplan]
  rfl

theorem settled_congr (hupstream : (w.settled s').upstream = (w.settled s).upstream)
    (hdevices : s'.devices = s.devices) (hserved : s'.served = s.served)
    (hcertain : certain s' = certain s) : w.settled s' = w.settled s := by
  refine Gateways.ext hupstream (funext fun i => ?_) (funext fun k => ?_)
  · simp only [settled, hcertain, hdevices]
  · simp only [settled, hcertain, hserved]

theorem settled_enter {served : Served} (hfree : s.working (w.gateway k) = none)
    (hserved : s.served k = none) (hplan : w.plan s k = .done served) :
    w.settled (w.enter s k) = w.serve (w.settled s) k := by
  rw [serve_settled (certain_of_free hfree), hplan]
  exact settled_of_commits (certain_of_free hfree) hserved rfl rfl (certain_enter hplan) rfl

theorem settled_ask (hs : w.Consistent s) {notes : List String} {request : Request}
    {resume : Answer Response → Served}
    (hworking : s.working (w.gateway k) = some (k, .ask notes request resume))
    (hcalling : s.calling = none) : w.settled (w.ask s k request) = w.serve (w.settled s) k := by
  have hnone : certain s (w.gateway k) = none := by simp only [certain, hworking, hcalling]
  have hupstream : (w.settled s).upstream = s.upstream := by simp only [settled, hcalling]
  rw [serve_settled hnone, hs.asking _ k _ _ _ hworking, hupstream]
  exact settled_of_commits hnone (hs.working _ k _ hworking).2 rfl rfl
    (certain_ask hworking hcalling) rfl

theorem settled_leave (hs : w.Consistent s) {served : Served}
    (hworking : s.working (w.gateway k) = some (k, .done served)) :
    w.settled (w.leave s k served) = w.settled s := by
  have hcertain : certain s (w.gateway k) = some (k, served) := by simp only [certain, hworking]
  have hserved : s.served k = none := (hs.working _ k _ hworking).2
  have hself : certain (w.leave s k served) (w.gateway k) = none := by
    rw [certain_leave, Function.update_self]
  have hother : ∀ i, i ≠ w.gateway k → certain (w.leave s k served) i = certain s i := by
    intro i hi
    rw [certain_leave, Function.update_of_ne hi]
  refine Gateways.ext rfl (funext fun i => ?_) (funext fun k' => ?_)
  · by_cases hi : i = w.gateway k
    · subst hi
      have hmap : (w.leave s k served).devices (w.gateway k) =
          { w.device s k with map := served.map } := Function.update_self ..
      simp only [settled, hself, hcertain, hmap, device]
    · have hsame : (w.leave s k served).devices i = s.devices i := Function.update_of_ne hi ..
      simp only [settled, hother i hi, hsame]
  · by_cases hk : k' = k
    · subst hk
      have hleft : (w.leave s k' served).served k' = some served := Function.update_self ..
      simp only [settled, hleft, hserved, hcertain, if_true]
    · have hleft : (w.leave s k served).served k' = s.served k' := Function.update_of_ne hk ..
      by_cases hi : w.gateway k' = w.gateway k
      · simp only [settled, hi, hself, hleft, hcertain, if_neg (Ne.symm hk)]
      · simp only [settled, hother _ hi, hleft]

/-! ### Conversations -/

/-- The answer that is certain and has not come yet. -/
def awaited (s : Sharing ι κ σ) : List (κ × Answer Response) :=
  match s.calling with
  | none => []
  | some (i, course) => (s.working i).toList.map fun (k, _) => (k, (course.run s.upstream).1)

/-- The log tells the order in which executions one after the other come to what is certain, and the
conversation that they have with the units. -/
structure Ordered (w : Setting ι κ σ) (g : Gateways ι κ σ) (s : Sharing ι κ σ) : Prop where
  settled : w.settled s = (s.log.filterMap Event.committed?).foldl w.serve g
  conversation : conversation w.call g.upstream (s.log.filterMap Event.asked?) =
    (s.log.filterMap Event.ended? ++ awaited s, (w.settled s).upstream)

theorem ordered_start (w : Setting ι κ σ) (upstream : σ) (devices : ι → Device) :
    w.Ordered ⟨upstream, devices, fun _ => none⟩ (.start upstream devices) :=
  ⟨rfl, rfl⟩

omit [DecidableEq ι] [DecidableEq κ] in
/-- What has been written has nothing to do with the order. -/
theorem filterMap_writes {α : Type} {f : Event κ → Option α}
    (hf : ∀ bytes, f (.writes k bytes) = none) (groups : List (List UInt8)) :
    (groups.map (Event.writes k)).filterMap f = [] := by
  rw [List.filterMap_map]
  exact List.filterMap_eq_nil_iff.mpr fun bytes _ => hf bytes

omit [DecidableEq ι] [DecidableEq κ] in
theorem awaited_congr (hupstream : s'.upstream = s.upstream) (hcalling : s'.calling = s.calling)
    (hworking : ∀ i course, s.calling = some (i, course) → s'.working i = s.working i) :
    awaited s' = awaited s := by
  rw [awaited, awaited, hcalling, hupstream]
  split
  · rfl
  · rename_i i course h
    rw [hworking i course h]

variable {g : Gateways ι κ σ}

/-- What an execution adds to the log when it takes the map of its gateway. -/
theorem Ordered.enter (h : w.Ordered g s) (hs : w.Consistent s)
    (hfree : s.working (w.gateway k) = none) (hserved : s.served k = none) :
    w.Ordered g (w.enter s k) := by
  have hawaited : awaited (w.enter s k) = awaited s := 
    awaited_congr rfl rfl fun _ _ hcalling =>
      Function.update_of_ne (hs.ne_of_free hcalling hfree) ..
  rcases hplan : w.plan s k with served | ⟨notes, request, resume⟩
  · have hlog : (w.enter s k).log = s.log ++ [.decides k] := by
      rw [Setting.enter, hplan]
      rfl
    refine ⟨?_, ?_⟩
    · rw [settled_enter hfree hserved hplan, h.settled, hlog, List.filterMap_append,
        List.foldl_append]
      rfl
    · simp only [hlog, hawaited, List.filterMap_append, List.filterMap_cons, List.filterMap_nil,
        Event.asked?, Event.ended?, List.append_nil]
      exact h.conversation
  · have hlog : (w.enter s k).log = s.log := by
      rw [Setting.enter, hplan]
      exact List.append_nil _
    have hsettled : w.settled (w.enter s k) = w.settled s :=
      settled_congr rfl rfl rfl (certain_enter_of_ask hs hfree hplan)
    refine ⟨?_, ?_⟩
    · rw [hsettled, hlog]
      exact h.settled
    · rw [hsettled, hlog, hawaited]
      exact h.conversation

theorem Ordered.leave (h : w.Ordered g s) (hs : w.Consistent s) {served : Served}
    (hworking : s.working (w.gateway k) = some (k, .done served)) :
    w.Ordered g (w.leave s k served) := by
  have hawaited : awaited (w.leave s k served) = awaited s := 
    awaited_congr rfl rfl fun _ _ hcalling =>
      Function.update_of_ne (hs.ne_of_done hcalling hworking) ..
  refine ⟨?_, ?_⟩
  · rw [settled_leave hs hworking]
    exact h.settled
  · rw [settled_leave hs hworking, hawaited]
    exact h.conversation

theorem Ordered.ask (h : w.Ordered g s) (hs : w.Consistent s) {notes : List String}
    {request : Request} {resume : Answer Response → Served}
    (hworking : s.working (w.gateway k) = some (k, .ask notes request resume))
    (hcalling : s.calling = none) : w.Ordered g (w.ask s k request) := by
  refine ⟨?_, ?_⟩
  · rw [settled_ask hs hworking hcalling, h.settled, Setting.ask, List.filterMap_append,
      List.foldl_append]
    rfl
  · have hnobody : awaited s = [] := by simp only [awaited, hcalling]
    have hupstream : (w.settled s).upstream = s.upstream := by
      simp only [Setting.settled, hcalling]
    have hnow : awaited (w.ask s k request) =
        [(k, (w.call (w.device s k).id request s.upstream).1)] := by
      simp only [awaited, Setting.ask, hworking]
      rfl
    have hbefore := h.conversation
    rw [hnobody, List.append_nil, hupstream] at hbefore
    rw [hnow]
    simp only [Setting.ask, List.filterMap_append, List.filterMap_cons, List.filterMap_nil,
      Event.asked?, Event.ended?, List.append_nil, conversation_append, hbefore]
    rfl

theorem Ordered.act (h : w.Ordered g s) {act : σ → σ} {next : σ → Course σ (Answer Response)}
    (hcalling : s.calling = some (w.gateway k, .piece act next)) :
    w.Ordered g (w.act s k act next) := by
  have hsettled : w.settled (w.act s k act next) = w.settled s := by
    refine settled_congr ?_ rfl rfl (certain_act hcalling)
    simp only [Setting.settled, Setting.act, hcalling, Course.run]
  have hawaited : awaited (w.act s k act next) = awaited s := by
    simp only [awaited, Setting.act, hcalling, Course.run]
  refine ⟨?_, ?_⟩
  · rw [hsettled, h.settled, Setting.act, List.filterMap_append,
      filterMap_writes fun _ => rfl, List.append_nil]
  · rw [hsettled, hawaited, Setting.act, List.filterMap_append, List.filterMap_append,
      filterMap_writes fun _ => rfl, filterMap_writes fun _ => rfl, List.append_nil,
      List.append_nil]
    exact h.conversation

theorem Ordered.release (h : w.Ordered g s) {notes : List String} {request : Request}
    {resume : Answer Response → Served} {answer : Answer Response}
    (hworking : s.working (w.gateway k) = some (k, .ask notes request resume))
    (hcalling : s.calling = some (w.gateway k, .ended answer)) :
    w.Ordered g (w.release s k answer (resume answer)) := by
  have hsettled : w.settled (w.release s k answer (resume answer)) = w.settled s := by
    refine settled_congr ?_ rfl rfl (certain_release hworking hcalling)
    simp only [Setting.settled, Setting.release, hcalling, Course.run]
  have hbefore : awaited s = [(k, answer)] := by
    simp only [awaited, hcalling, hworking]
    rfl
  have hnow : awaited (w.release s k answer (resume answer)) = [] := rfl
  refine ⟨?_, ?_⟩
  · rw [hsettled, h.settled, Setting.release, List.filterMap_append]
    exact congrArg (List.foldl w.serve g) (List.append_nil _).symm
  · have hconversation := h.conversation
    rw [hbefore] at hconversation
    rw [hsettled, hnow]
    simp only [Setting.release, List.filterMap_append, List.filterMap_cons, List.filterMap_nil,
      Event.asked?, Event.ended?, List.append_nil]
    exact hconversation

theorem Ordered.steps (h : w.Ordered g s) (hs : w.Consistent s) (hsteps : w.Steps k s s') :
    w.Ordered g s' := by
  cases hsteps with
  | enter hfree hserved => exact h.enter hs hfree hserved
  | leave hworking => exact h.leave hs hworking
  | ask hworking hcalling => exact h.ask hs hworking hcalling
  | act _ hcalling => exact h.act hcalling
  | release hworking hcalling => exact h.release hworking hcalling

/-- What is certain is certain of executions that have nothing left to do. -/
theorem settled_of_isAtRest (h : s.IsAtRest) : w.settled s = s.toGateways := by
  have hcertain : ∀ i, certain s i = none := fun i => certain_of_free (h.working i)
  refine Gateways.ext ?_ (funext fun i => ?_) (funext fun k => ?_)
  · simp only [settled, h.calling]
  · simp only [settled, hcertain]
  · simp only [settled, hcertain]
    cases s.served k <;> rfl

/-- Executions side by side come to what they come to one after the other, in the order in which
they commit themselves. -/
theorem polls_of_isAtRest (w : Setting ι κ σ) (upstream : σ) (devices : ι → Device)
    (schedule : List κ) :
    let s := w.polls (.start upstream devices) schedule
    w.Consistent s ∧ (s.IsAtRest →
      s.toGateways =
        (s.log.filterMap Event.committed?).foldl w.serve ⟨upstream, devices, fun _ => none⟩ ∧
      conversation w.call upstream (s.log.filterMap Event.asked?) =
        (s.log.filterMap Event.ended?, s.upstream)) := by
  intro s
  obtain ⟨hs, hordered⟩ : w.Consistent s ∧ w.Ordered ⟨upstream, devices, fun _ => none⟩ s :=
    invariant_polls (ordered_start w upstream devices) (fun _ _ _ hs h => h.steps hs) schedule
  refine ⟨hs, fun hrest => ?_⟩
  have hsettled : w.settled s = s.toGateways := settled_of_isAtRest hrest
  have hawaited : awaited s = [] := by simp only [awaited, hrest.calling]
  refine ⟨hsettled ▸ hordered.settled, ?_⟩
  have hconversation := hordered.conversation
  rw [hsettled, hawaited, List.append_nil] at hconversation
  exact hconversation

end Setting

end Modbus

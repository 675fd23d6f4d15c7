import Mathlib.Logic.Function.Iterate
import Modbus.Proofs.Link.Work
import Modbus.Server.Service

/-! The calls that a run makes of a service: it is started, polled some number of times, and
stopped once. Whatever runs a service runs one that keeps a record of its calls just as well
(`Service.recorded`). The loop of a run is made of polls that succeed (`Polls`), and a run that ends
leaves a record with one shape (`Record.Brackets`). A state holds all that a run depends on, also
whether its end has been called for, which any call may find changed. -/

namespace Modbus.Service

/-- What is asked of a service. -/
inductive Order where
  | start
  | poll
  | stop
deriving DecidableEq

/-- A call of a service: what is asked of it, in which state, what comes of it and the state that
it leaves. -/
structure Call (σ : Type) where
  order : Order
  before : σ
  result : Except Error Unit
  leaves : σ

variable {σ α : Type}

def Call.of (order : Order) (work : EStateM Error σ α) (s : σ) : Call σ :=
  ⟨order, s, discard (resultOf work s), after work s⟩

theorem Call.of_ok {order : Order} {work : EStateM Error σ α} {s t : σ} {a : α}
    (h : work s = .ok a t) : Call.of order work s = ⟨order, s, .ok (), t⟩ := by
  rw [Call.of, resultOf, after, h]
  rfl

theorem Call.of_error {order : Order} {work : EStateM Error σ α} {s t : σ} {e : Error}
    (h : work s = .error e t) : Call.of order work s = ⟨order, s, .error e, t⟩ := by
  rw [Call.of, resultOf, after, h]
  rfl

/-- The error of a call that failed. -/
def Call.error? (c : Call σ) : Option Error :=
  match c.result with
  | .ok () => none
  | .error e => some e

theorem Call.error?_eq_none_iff {c : Call σ} : c.error? = none ↔ c.result = .ok () := by
  rw [Call.error?]
  rcases c.result with e | _
  · exact ⟨nofun, nofun⟩
  · exact ⟨fun _ => rfl, fun _ => rfl⟩

theorem Call.resultOf_eq (order : Order) (work : EStateM Error σ Unit) (s : σ) :
    resultOf work s = (Call.of order work s).error?.elim (.ok ()) .error := by
  rw [Call.of, Call.error?]
  rcases resultOf work s with e | _ <;> rfl

/-- Each of the calls is made in the state that the one before it leaves, the first one in `s`,
and the last one leaves `t`. -/
def Follows : σ → List (Call σ) → σ → Prop
  | s, [], t => s = t
  | s, c :: rest, t => c.before = s ∧ Follows c.leaves rest t

theorem follows_append {s t u : σ} {front back : List (Call σ)} (hfront : Follows s front t)
    (hback : Follows t back u) : Follows s (front ++ back) u := by
  induction front generalizing s with
  | nil =>
    cases hfront
    exact hback
  | cons c rest ih => exact ⟨hfront.1, ih hfront.2⟩

/-- What a service makes of a call in a state. -/
def call (service : Service σ) (interval : Nat) (order : Order) (s : σ) : Call σ :=
  match order with
  | .start => .of .start service.start s
  | .poll => .of .poll (service.poll interval) s
  | .stop => .of .stop service.stop s

@[simp] theorem order_call (service : Service σ) (interval : Nat) (order : Order) (s : σ) :
    (service.call interval order s).order = order := by
  cases order <;> rfl

@[simp] theorem before_call (service : Service σ) (interval : Nat) (order : Order) (s : σ) :
    (service.call interval order s).before = s := by
  cases order <;> rfl

/-- Work that adds its call to those made before. -/
def noted (order : Order) (work : EStateM Error σ α) : EStateM Error (σ × List (Call σ)) α :=
  fun (s, calls) =>
    match work s with
    | .ok a t => .ok a (t, calls ++ [.of order work s])
    | .error e t => .error e (t, calls ++ [.of order work s])

theorem of_noted_ok {order : Order} {work : EStateM Error σ α} {a : α} {s t : σ × List (Call σ)}
    (h : noted order work s = .ok a t) :
    ∃ u, work s.1 = .ok a u ∧ t = (u, s.2 ++ [.of order work s.1]) := by
  rw [noted] at h
  rcases hwork : work s.1 with ⟨b, u⟩ | ⟨e, u⟩ <;> rw [hwork] at h <;> cases h
  exact ⟨u, rfl, rfl⟩

theorem of_noted_error {order : Order} {work : EStateM Error σ α} {e : Error}
    {s t : σ × List (Call σ)} (h : noted order work s = .error e t) :
    ∃ u, work s.1 = .error e u ∧ t = (u, s.2 ++ [.of order work s.1]) := by
  rw [noted] at h
  rcases hwork : work s.1 with ⟨a, u⟩ | ⟨e, u⟩ <;> rw [hwork] at h <;> cases h
  exact ⟨u, rfl, rfl⟩

/-- The service beside a record of the calls made of it. -/
def recorded (service : Service σ) : Service (σ × List (Call σ)) where
  start := noted .start service.start
  stop := noted .stop service.stop
  poll interval := noted .poll (service.poll interval)

/-- A run that has ended: its calls in order, what it came to and the state that it left. -/
structure Record (σ : Type) where
  calls : List (Call σ)
  result : Except Error Unit
  final : σ

/-- The result of work that comes to `x` and leaves `t`. -/
def ending (x : Except Error Unit) (t : σ) : EStateM.Result Error σ Unit :=
  match x with
  | .ok () => .ok () t
  | .error e => .error e t

def Record.ofResult : EStateM.Result Error (σ × List (Call σ)) Unit → Record σ
  | .ok () (t, calls) => ⟨calls, .ok (), t⟩
  | .error e (t, calls) => ⟨calls, .error e, t⟩

def Record.outcome (r : Record σ) : EStateM.Result Error σ Unit := ending r.result r.final

/-- The record of a run; there is none of one that goes on for ever. -/
def record (service : Service σ) (interval : Nat) (ended : σ → Bool) (s : σ) :
    Option (Record σ) :=
  (service.recorded.run interval (fun s => ended s.1) (s, [])).map .ofResult

/-! ### The loop -/

section Loop

variable {service : Service σ} {interval : Nat} {ended : σ → Bool} {s t : σ}

/-- What is so of the loop when it is left, and before a poll that succeeds if it is after it, is
so of a loop that ends. -/
theorem pollUntil_induction {motive : σ → EStateM.Result Error σ Unit → Prop}
    (left : ∀ s, ended s = true → motive s (.ok () s))
    (failed : ∀ s e t, ended s = false → service.poll interval s = .error e t →
      motive s (.error e t))
    (polled : ∀ s p t r, ended s = false → service.poll interval s = .ok p t → motive t r →
      motive s r)
    {r : EStateM.Result Error σ Unit} (h : service.pollUntil interval ended s = some r) :
    motive s r := by
  refine pollUntil.partial_correctness service interval ended motive
    (fun loop ih s r hs => ?_) s r h
  cases hended : ended s with
  | true =>
    rw [if_pos hended] at hs
    cases hs
    exact left s hended
  | false =>
    rw [if_neg (by simp [hended])] at hs
    rcases hpoll : service.poll interval s with ⟨p, t⟩ | ⟨e, t⟩ <;> rw [hpoll] at hs
    · exact polled s p t r hended hpoll (ih t r hs)
    · cases hs
      exact failed s e t hended hpoll

theorem pollUntil_of_ended (h : ended s = true) :
    service.pollUntil interval ended s = some (.ok () s) := by
  rw [pollUntil, if_pos h]

theorem pollUntil_of_poll {p : Polled} (h : ended s = false)
    (hpoll : service.poll interval s = .ok p t) :
    service.pollUntil interval ended s = service.pollUntil interval ended t := by
  rw [pollUntil, if_neg (by simp [h]), hpoll]

theorem pollUntil_of_error {e : Error} (h : ended s = false)
    (hpoll : service.poll interval s = .error e t) :
    service.pollUntil interval ended s = some (.error e t) := by
  rw [pollUntil, if_neg (by simp [h]), hpoll]

/-- The loop goes on for ever when no poll fails and the end is never called for. -/
theorem pollUntil_eq_none_iff : service.pollUntil interval ended s = none ↔
    ∃ f : Nat → σ, f 0 = s ∧ ∀ n, ended (f n) = false ∧
      ∃ p, service.poll interval (f n) = .ok p (f (n + 1)) := by
  constructor
  · intro hnone
    let f (n : Nat) : σ := (after (service.poll interval))^[n] s
    have hsucc (n : Nat) : f (n + 1) = after (service.poll interval) (f n) :=
      Function.iterate_succ_apply' _ n s
    have hstep {t : σ} (ht : service.pollUntil interval ended t = none) :
        ended t = false ∧ ∃ p, service.poll interval t =
          .ok p (after (service.poll interval) t) := by
      cases hended : ended t with
      | true => rw [pollUntil_of_ended hended] at ht; cases ht
      | false =>
        rcases hpoll : service.poll interval t with ⟨p, u⟩ | ⟨e, u⟩
        · exact ⟨rfl, p, by rw [after, hpoll]⟩
        · rw [pollUntil_of_error hended hpoll] at ht
          cases ht
    have hnever (n : Nat) : service.pollUntil interval ended (f n) = none := by
      induction n with
      | zero => exact hnone
      | succ n ih =>
        obtain ⟨hended, p, hpoll⟩ := hstep ih
        rw [hsucc, ← pollUntil_of_poll hended hpoll]
        exact ih
    exact ⟨f, rfl, fun n => hsucc n ▸ hstep (hnever n)⟩
  · rintro ⟨f, rfl, hf⟩
    by_contra hne
    obtain ⟨r, hr⟩ := Option.ne_none_iff_exists'.mp hne
    -- An endless run of polls begins in no state in which the loop ends.
    refine pollUntil_induction (motive := fun s _ => ∀ f : Nat → σ, f 0 = s →
      (∀ n, ended (f n) = false ∧ ∃ p, service.poll interval (f n) = .ok p (f (n + 1))) → False)
      ?_ ?_ ?_ hr f rfl hf
    · rintro s hs f rfl hf
      rw [(hf 0).1] at hs
      cases hs
    · rintro s e t - hpoll f rfl hf
      obtain ⟨-, p, hp⟩ := hf 0
      rw [hpoll] at hp
      cases hp
    · rintro s p t r - hpoll ih f rfl hf
      refine ih (fun n => f (n + 1)) ?_ fun n => hf (n + 1)
      obtain ⟨-, q, hq⟩ := hf 0
      rw [hpoll] at hq
      cases hq
      rfl

/-- A loop that ends, with its calls, what it comes to and the state that it leaves: the end is
called for, a poll fails, or it goes on after a poll that succeeds. -/
inductive Loop (service : Service σ) (interval : Nat) (ended : σ → Bool) :
    σ → List (Call σ) → Except Error Unit → σ → Prop
  | left {s : σ} (hended : ended s = true) : Loop service interval ended s [] (.ok ()) s
  | failed {s t : σ} {e : Error} (hended : ended s = false)
      (hpoll : service.poll interval s = .error e t) :
      Loop service interval ended s [service.call interval .poll s] (.error e) t
  | polled {s t u : σ} {p : Polled} {calls : List (Call σ)} {x : Except Error Unit}
      (hended : ended s = false) (hpoll : service.poll interval s = .ok p t)
      (rest : Loop service interval ended t calls x u) :
      Loop service interval ended s (service.call interval .poll s :: calls) x u

namespace Loop

variable {calls : List (Call σ)} {x : Except Error Unit}

theorem genuine (h : Loop service interval ended s calls x t) :
    ∀ c ∈ calls, c = service.call interval .poll c.before ∧ ended c.before = false := by
  induction h with
  | left => exact fun c hc => nomatch hc
  | failed hended => exact List.forall_mem_singleton.mpr ⟨rfl, hended⟩
  | polled hended _ _ ih => exact List.forall_mem_cons.mpr ⟨⟨rfl, hended⟩, ih⟩

theorem orders (h : Loop service interval ended s calls x t) :
    calls.map (·.order) = List.replicate calls.length .poll := by
  rw [List.eq_replicate_iff, List.length_map]
  refine ⟨rfl, List.forall_mem_map.mpr fun c hc => ?_⟩
  rw [(h.genuine c hc).1]
  rfl

theorem follows (h : Loop service interval ended s calls x t) : Follows s calls t := by
  induction h with
  | left => rfl
  | failed _ hpoll => exact ⟨rfl, congrArg Call.leaves (Call.of_error hpoll)⟩
  | polled _ hpoll _ ih =>
    refine ⟨rfl, ?_⟩
    rw [call, Call.of_ok hpoll]
    exact ih

/-- Only the last of the calls can have failed. -/
theorem pairwise (h : Loop service interval ended s calls x t) :
    calls.Pairwise fun c _ => c.result = .ok () := by
  induction h with
  | left => exact .nil
  | failed => exact List.pairwise_singleton _ _
  | polled _ hpoll _ ih =>
    refine .cons (fun _ _ => ?_) ih
    rw [call, Call.of_ok hpoll]

/-- The error that the loop ends with is that of its calls. -/
theorem findSome?_error? (h : Loop service interval ended s calls x t) :
    x = (calls.findSome? Call.error?).elim (.ok ()) .error := by
  induction h with
  | left => rfl
  | failed _ hpoll =>
    rw [call, Call.of_error hpoll]
    rfl
  | polled _ hpoll _ ih =>
    rw [call, Call.of_ok hpoll]
    exact ih

/-- An error of the loop comes before one of the stop that follows it. -/
theorem findSome?_error?_append (h : Loop service interval ended s calls x t) (u : σ) :
    (x >>= fun _ => resultOf service.stop u) =
      ((calls ++ [service.call interval .stop u]).findSome? Call.error?).elim (.ok ()) .error := by
  rw [List.findSome?_append, h.findSome?_error?]
  cases calls.findSome? Call.error? with
  | some e => rfl
  | none =>
    show resultOf service.stop u = _
    rw [Call.resultOf_eq .stop, Option.none_or, List.findSome?_singleton]
    rfl

theorem ended_of_ok (h : Loop service interval ended s calls (.ok ()) t) : ended t = true := by
  generalize hx : Except.ok () = x at h
  induction h with
  | left hended => exact hended
  | failed => cases hx
  | polled _ _ _ ih => exact ih hx

theorem exists_of_error {e : Error} (h : Loop service interval ended s calls (.error e) t) :
    ∃ c ∈ calls, c.result ≠ .ok () := by
  have hfirst := h.findSome?_error?
  cases hcalls : calls.findSome? Call.error? with
  | none =>
    rw [hcalls] at hfirst
    cases hfirst
  | some e' =>
    obtain ⟨c, hc, herror⟩ := List.exists_of_findSome?_eq_some hcalls
    refine ⟨c, hc, fun hok => ?_⟩
    rw [Call.error?_eq_none_iff.mpr hok] at herror
    cases herror

/-- The loop of the service beside its record ends as that of the service. -/
theorem of_recorded {done : List (Call σ)} {r : EStateM.Result Error (σ × List (Call σ)) Unit}
    (h : service.recorded.pollUntil interval (fun s => ended s.1) (s, done) = some r) :
    ∃ calls x t, Loop service interval ended s calls x t ∧ r = ending x (t, done ++ calls) := by
  refine pollUntil_induction (motive := fun s r => ∃ calls x t,
    Loop service interval ended s.1 calls x t ∧ r = ending x (t, s.2 ++ calls)) ?_ ?_ ?_ h
  · intro s hended
    exact ⟨[], .ok (), s.1, .left hended, by rw [List.append_nil]; rfl⟩
  · intro s e t hended hpoll
    obtain ⟨u, hwork, rfl⟩ := of_noted_error hpoll
    exact ⟨_, .error e, u, .failed hended hwork, rfl⟩
  · intro s p t r hended hpoll ⟨calls, x, u, hloop, hr⟩
    obtain ⟨v, hwork, rfl⟩ := of_noted_ok hpoll
    refine ⟨_, x, u, .polled hended hwork hloop, ?_⟩
    rw [hr, List.append_assoc]
    rfl

/-- The loop of the service ends as it does beside the record. -/
theorem pollUntil_eq (h : Loop service interval ended s calls x t) :
    service.pollUntil interval ended s = some (ending x t) := by
  induction h with
  | left hended => exact pollUntil_of_ended hended
  | failed hended hpoll => exact pollUntil_of_error hended hpoll
  | polled hended hpoll _ ih =>
    rw [pollUntil_of_poll hended hpoll]
    exact ih

end Loop

end Loop

/-! ### Runs -/

section Runs

variable {service : Service σ} {interval : Nat} {ended : σ → Bool} {s t u : σ}

theorem run_of_start_error {e : Error} (h : service.start s = .error e t) :
    service.run interval ended s = some (.error e t) := by
  rw [run, h]

/-- After a start, the service is stopped where the loop ends, and an error of the loop comes
before one of the stop. -/
theorem run_of_loop {x : Except Error Unit} (hstart : service.start s = .ok () t)
    (hloop : service.pollUntil interval ended t = some (ending x u)) :
    service.run interval ended s =
      some (ending (x >>= fun _ => resultOf service.stop u) (after service.stop u)) := by
  rw [run, hstart]
  simp only [hloop]
  rcases x with e | _
  · have hstop := run_outcome_eq service.stop u
    show some ((discard (outcome service.stop) >>= fun _ => throw e) u) = _
    rw [run_bind (run_discard hstop)]
    rfl
  · show some (service.stop u) = some (ending (resultOf service.stop u) _)
    rw [resultOf, after]
    rcases service.stop u with ⟨_, v⟩ | ⟨e, v⟩ <;> rfl

theorem run_eq_none_iff_of_start (hstart : service.start s = .ok () t) :
    service.run interval ended s = none ↔ service.pollUntil interval ended t = none := by
  rw [run, hstart]
  exact Option.map_eq_none_iff

theorem resultOf_noted (order : Order) (work : EStateM Error σ α) (calls : List (Call σ)) :
    resultOf (noted order work) (s, calls) = resultOf work s := by
  rw [resultOf, resultOf, noted]
  rcases work s with ⟨a, t⟩ | ⟨e, t⟩ <;> rfl

theorem after_noted (order : Order) (work : EStateM Error σ α) (calls : List (Call σ)) :
    after (noted order work) (s, calls) = (after work s, calls ++ [.of order work s]) := by
  rw [after, after, noted]
  rcases work s with ⟨a, t⟩ | ⟨e, t⟩ <;> rfl

theorem record_of_start_error {e : Error} (h : service.start s = .error e t) :
    service.record interval ended s = some ⟨[service.call interval .start s], .error e, t⟩ := by
  have hstart : service.recorded.start (s, []) =
      .error e (t, [service.call interval .start s]) := by
    show noted .start service.start (s, []) = _
    rw [noted, h]
    rfl
  rw [record, run_of_start_error hstart]
  rfl

theorem exists_of_record {r : Record σ} (hstart : service.start s = .ok () t)
    (h : service.record interval ended s = some r) :
    ∃ polls x u, Loop service interval ended t polls x u ∧
      r = ⟨service.call interval .start s :: polls ++ [service.call interval .stop u],
        x >>= fun _ => resultOf service.stop u, after service.stop u⟩ := by
  have hrecorded : service.recorded.start (s, []) =
      .ok () (t, [service.call interval .start s]) := by
    show noted .start service.start (s, []) = _
    rw [noted, hstart]
    rfl
  rw [record] at h
  obtain ⟨r, hr, rfl⟩ := Option.map_eq_some_iff.mp h
  cases hloop : service.recorded.pollUntil interval (fun s => ended s.1)
      (t, [service.call interval .start s]) with
  | none =>
    rw [(run_eq_none_iff_of_start hrecorded).mpr hloop] at hr
    cases hr
  | some r' =>
    obtain ⟨polls, x, u, hpolls, rfl⟩ := Loop.of_recorded hloop
    rw [run_of_loop hrecorded hloop] at hr
    refine ⟨polls, x, u, hpolls, ?_⟩
    cases hr
    show Record.ofResult (ending (x >>= fun _ => resultOf (noted .stop service.stop) _)
      (after (noted .stop service.stop) _)) = _
    rw [resultOf_noted, after_noted]
    rcases x >>= fun _ => resultOf service.stop u with e | _ <;> rfl

/-- A run goes on for ever when it has started, no poll fails and the end is never called for. -/
theorem run_eq_none_iff : service.run interval ended s = none ↔
    ∃ f : Nat → σ, service.start s = .ok () (f 0) ∧ ∀ n, ended (f n) = false ∧
      ∃ p, service.poll interval (f n) = .ok p (f (n + 1)) := by
  rcases hstart : service.start s with ⟨_, t⟩ | ⟨e, t⟩
  · rw [run_eq_none_iff_of_start hstart, pollUntil_eq_none_iff]
    refine exists_congr fun f => and_congr_left fun _ => ⟨?_, ?_⟩
    · rintro rfl
      rfl
    · intro h
      cases h
      rfl
  · rw [run_of_start_error hstart]
    exact ⟨nofun, fun ⟨_, h, _⟩ => nomatch h⟩

/-- Keeping the record changes nothing about a run. -/
theorem outcome_record (service : Service σ) (interval : Nat) (ended : σ → Bool) (s : σ) :
    (service.record interval ended s).map Record.outcome = service.run interval ended s := by
  rcases hstart : service.start s with ⟨_, t⟩ | ⟨e, t⟩
  · cases hrecord : service.record interval ended s with
    | some r =>
      obtain ⟨polls, x, u, hloop, rfl⟩ := exists_of_record hstart hrecord
      exact (run_of_loop hstart hloop.pollUntil_eq).symm
    | none =>
      obtain ⟨f, hf, hpolls⟩ := run_eq_none_iff.mp (Option.map_eq_none_iff.mp hrecord)
      symm
      refine run_eq_none_iff.mpr ⟨fun n => (f n).1, ?_, fun n => ⟨(hpolls n).1, ?_⟩⟩
      · have hnoted : noted .start service.start (s, []) = .ok () (f 0) := hf
        obtain ⟨u, hwork, h⟩ := of_noted_ok hnoted
        simp only [h]
        exact hwork
      · obtain ⟨p, hp⟩ := (hpolls n).2
        obtain ⟨u, hwork, h⟩ := of_noted_ok hp
        simp only [h]
        exact ⟨p, hwork⟩
  · rw [record_of_start_error hstart, run_of_start_error hstart]
    rfl

/-- What is so of a run of `service` from `s` that has ended. -/
structure Record.Brackets (service : Service σ) (interval : Nat) (ended : σ → Bool) (s : σ)
    (r : Record σ) : Prop where
  /-- The calls are calls of the service, the first one in `s` and each of the others in the state
  that the one before it left. -/
  genuine : ∀ c ∈ r.calls, c = service.call interval c.order c.before
  follows : Follows s r.calls r.final
  /-- A start that fails is the only call. -/
  refused : ∀ e, resultOf service.start s = .error e → r.calls.map (·.order) = [.start]
  /-- After a start that succeeds there are some polls and one stop. -/
  bracketed : resultOf service.start s = .ok () →
    ∃ n, r.calls.map (·.order) = .start :: List.replicate n .poll ++ [.stop]
  /-- No poll begins once the end has been seen to be called for, or after a call that failed. -/
  not_ended : ∀ c ∈ r.calls, c.order = .poll → ended c.before = false
  not_failed : r.calls.Pairwise fun c d => d.order = .poll → c.result = .ok ()
  /-- The service is stopped because the end has been called for or because a poll has failed. -/
  left : ∀ c ∈ r.calls, c.order = .stop → ended c.before = true ∨
    ∃ d ∈ r.calls, d.order = .poll ∧ d.result ≠ .ok ()
  /-- The run succeeds if all calls do, and otherwise its error is that of the first call that
  failed. -/
  succeeds : r.result = .ok () ↔ ∀ c ∈ r.calls, c.result = .ok ()
  fails : ∀ e, r.result = .error e ↔ r.calls.findSome? Call.error? = some e

/-- What the first error among the calls of a run says of its result. -/
theorem result_of_findSome? {calls : List (Call σ)} {x : Except Error Unit}
    (h : x = (calls.findSome? Call.error?).elim (.ok ()) .error) :
    (x = .ok () ↔ ∀ c ∈ calls, c.result = .ok ()) ∧
      ∀ e, x = .error e ↔ calls.findSome? Call.error? = some e := by
  have hall : (calls.findSome? Call.error? = none) ↔ ∀ c ∈ calls, c.result = .ok () := by
    simp only [List.findSome?_eq_none_iff, Call.error?_eq_none_iff]
  rw [← hall, h]
  cases calls.findSome? Call.error? with
  | none => exact ⟨⟨fun _ => rfl, fun _ => rfl⟩, fun e => ⟨nofun, nofun⟩⟩
  | some e =>
    refine ⟨⟨nofun, nofun⟩, fun e' => ?_⟩
    simp only [Option.elim_some, Except.error.injEq, Option.some.injEq]

theorem brackets_of_start_error {e : Error} {r : Record σ} (hstart : service.start s = .error e t)
    (h : service.record interval ended s = some r) : r.Brackets service interval ended s := by
  rw [record_of_start_error hstart, Option.some_inj] at h
  subst h
  have hcall : service.call interval .start s = ⟨.start, s, .error e, t⟩ := Call.of_error hstart
  have hfirst : Except.error e =
      ([service.call interval .start s].findSome? Call.error?).elim (.ok ()) .error := by
    rw [hcall]
    rfl
  exact {
    genuine := List.forall_mem_singleton.mpr rfl
    follows := ⟨rfl, congrArg Call.leaves hcall⟩
    refused := fun _ _ => rfl
    bracketed := fun hok => by rw [resultOf, hstart] at hok; cases hok
    not_ended := List.forall_mem_singleton.mpr nofun
    not_failed := List.pairwise_singleton _ _
    left := List.forall_mem_singleton.mpr nofun
    succeeds := (result_of_findSome? hfirst).1
    fails := (result_of_findSome? hfirst).2 }

theorem brackets_of_start {r : Record σ} (hstart : service.start s = .ok () t)
    (h : service.record interval ended s = some r) : r.Brackets service interval ended s := by
  obtain ⟨polls, x, u, hloop, rfl⟩ := exists_of_record hstart h
  have hcall : service.call interval .start s = ⟨.start, s, .ok (), t⟩ := Call.of_ok hstart
  have hpoll : ∀ c ∈ polls, c.order = .poll := fun c hc => by
    rw [(hloop.genuine c hc).1]
    rfl
  have hfirst : (x >>= fun _ => resultOf service.stop u) =
      ((service.call interval .start s :: polls ++
        [service.call interval .stop u]).findSome? Call.error?).elim (.ok ()) .error := by
    rw [hcall]
    exact hloop.findSome?_error?_append u
  exact {
    genuine := by
      simp only [List.cons_append, List.forall_mem_cons, List.forall_mem_append, order_call,
        before_call, List.not_mem_nil, false_implies, implies_true, and_true, true_and]
      intro c hc
      rw [hpoll c hc]
      exact (hloop.genuine c hc).1
    follows := by
      refine ⟨rfl, ?_⟩
      rw [hcall]
      exact follows_append hloop.follows ⟨rfl, rfl⟩
    refused := fun e he => by rw [resultOf, hstart] at he; cases he
    bracketed := fun _ => ⟨polls.length, by
      rw [List.map_append, List.map_cons, hloop.orders]
      rfl⟩
    not_ended := by
      simp only [List.cons_append, List.forall_mem_cons, List.forall_mem_append, order_call,
        reduceCtorEq, List.not_mem_nil, false_implies, implies_true, and_true, true_and]
      exact fun c hc _ => (hloop.genuine c hc).2
    not_failed := by
      have hpolls : polls.Pairwise fun c d => d.order = .poll → c.result = .ok () := by
        apply hloop.pairwise.imp
        intro c d hok _
        exact hok
      rw [List.cons_append, List.pairwise_cons, List.pairwise_append]
      refine ⟨fun _ _ _ => by rw [hcall], hpolls, List.pairwise_singleton _ _,
        fun _ _ d hd hpoll => ?_⟩
      rw [List.mem_singleton.mp hd, order_call] at hpoll
      cases hpoll
    left := by
      simp only [List.cons_append, List.forall_mem_cons, List.forall_mem_append, order_call,
        before_call, reduceCtorEq, List.not_mem_nil, false_implies, implies_true, and_true,
        true_and, forall_const]
      refine ⟨fun c hc hstop => ?_, ?_⟩
      · rw [hpoll c hc] at hstop
        cases hstop
      · rcases x with e | _
        · obtain ⟨d, hd, hfails⟩ := hloop.exists_of_error
          exact .inr ⟨d, List.mem_cons_of_mem _ (List.mem_append_left _ hd), hpoll d hd, hfails⟩
        · exact .inl hloop.ended_of_ok
    succeeds := (result_of_findSome? hfirst).1
    fails := (result_of_findSome? hfirst).2 }

/-- Whatever comes of its calls and whenever its end is called for, a service that is run is
started, polled and stopped once: a run that ends brackets its polls, and one goes on for ever only
while no poll fails and the end is not called for. -/
theorem brackets_run (service : Service σ) (interval : Nat) (ended : σ → Bool) (s : σ) :
    (service.record interval ended s).map Record.outcome = service.run interval ended s ∧
    (∀ r ∈ service.record interval ended s, r.Brackets service interval ended s) ∧
    (service.run interval ended s = none ↔
      ∃ f : Nat → σ, service.start s = .ok () (f 0) ∧ ∀ n, ended (f n) = false ∧
        ∃ p, service.poll interval (f n) = .ok p (f (n + 1))) := by
  refine ⟨outcome_record service interval ended s, fun r hr => ?_, run_eq_none_iff⟩
  rcases hstart : service.start s with ⟨_, t⟩ | ⟨e, t⟩
  · exact brackets_of_start hstart hr
  · exact brackets_of_start_error hstart hr

end Runs

end Modbus.Service

import Mathlib.Order.Defs.Unbundled
import Mathlib.Tactic.Common
import Modbus.Link.Basic

/-! Work on a state, which may fail: how a run of it goes from one step to the next, and relations
between the states before and after it that hold of a whole run once they hold of each step. -/

namespace Modbus

section Runs

variable {ε σ α β : Type} {x : EStateM ε σ α} {f : α → EStateM ε σ β} {s s' : σ}

/-- After work that succeeds, its continuation runs where it ended. -/
theorem run_bind {a : α} (h : x s = .ok a s') : (x >>= f) s = f a s' := by
  show EStateM.bind x f s = f a s'
  rw [EStateM.bind, h]

theorem run_bind_of_error {e : ε} (h : x s = .error e s') : (x >>= f) s = .error e s' := by
  show EStateM.bind x f s = .error e s'
  rw [EStateM.bind, h]

/-- Work that runs alike is followed alike. -/
theorem run_bind_congr {y : EStateM ε σ α} (h : x s = y s') : (x >>= f) s = (y >>= f) s' := by
  show EStateM.bind x f s = EStateM.bind y f s'
  rw [EStateM.bind, EStateM.bind, h]

theorem of_run_bind {b : β} {s'' : σ} (h : (x >>= f) s = .ok b s'') :
    ∃ a s', x s = .ok a s' ∧ f a s' = .ok b s'' := by
  rcases hx : x s with ⟨a, s'⟩ | ⟨e, s'⟩
  · rw [run_bind hx] at h
    exact ⟨a, s', rfl, h⟩
  · rw [run_bind_of_error hx] at h
    cases h

theorem run_discard {a : α} (h : x s = .ok a s') : discard x s = .ok () s' := by
  show EStateM.map _ x s = .ok () s'
  rw [EStateM.map, h]

theorem run_get_bind (f : σ → EStateM ε σ β) (s : σ) : (get >>= f) s = f s s := rfl

theorem run_set_bind (f : PUnit → EStateM ε σ β) (s s' : σ) : (set s' >>= f) s = f ⟨⟩ s' := rfl

end Runs

theorem run_outcome {σ α : Type} {x : EStateM Error σ α} {s s' : σ} {a : α} (h : x s = .ok a s') :
    outcome x s = .ok (.ok a) s' := by
  rw [outcome, h]

theorem run_outcome_of_error {σ α : Type} {x : EStateM Error σ α} {s s' : σ} {e : Error}
    (h : x s = .error e s') : outcome x s = .ok (.error e) s' := by
  rw [outcome, h]

/-! ### Relations between the states before and after -/

/-- The state that work leaves, whether or not it fails. -/
def after {σ α : Type} (work : EStateM Error σ α) (s : σ) : σ :=
  match work s with
  | .ok _ s => s
  | .error _ s => s

theorem after_outcome {σ α : Type} (x : EStateM Error σ α) (s : σ) :
    after (outcome x) s = after x s := by
  rw [after, after, outcome]
  rcases x s with ⟨a, s'⟩ | ⟨e, s'⟩ <;> rfl

/-- What work comes to, without the state that it leaves. -/
def resultOf {σ α : Type} (work : EStateM Error σ α) (s : σ) : Except Error α :=
  match work s with
  | .ok a _ => .ok a
  | .error e _ => .error e

theorem run_outcome_eq {σ α : Type} (work : EStateM Error σ α) (s : σ) :
    outcome work s = .ok (resultOf work s) (after work s) := by
  rw [outcome, resultOf, after]
  rcases work s with ⟨a, s'⟩ | ⟨e, s'⟩ <;> rfl

theorem run_of_resultOf {σ α : Type} {work : EStateM Error σ α} {s : σ} {a : α}
    (h : resultOf work s = .ok a) : work s = .ok a (after work s) := by
  rw [resultOf] at h
  rw [after]
  rcases hrun : work s with ⟨a', s'⟩ | ⟨e, s'⟩ <;> rw [hrun] at h <;> cases h
  rfl

theorem run_of_resultOf_error {σ α : Type} {work : EStateM Error σ α} {s : σ} {e : Error}
    (h : resultOf work s = .error e) : work s = .error e (after work s) := by
  rw [resultOf] at h
  rw [after]
  rcases hrun : work s with ⟨a, s'⟩ | ⟨e', s'⟩ <;> rw [hrun] at h <;> cases h
  rfl

theorem after_bind {σ α β : Type} {x : EStateM Error σ α} {f : α → EStateM Error σ β} {s s' : σ}
    {a : α} (h : x s = .ok a s') : after (x >>= f) s = after (f a) s' := by
  rw [after, run_bind h, after]

theorem resultOf_bind {σ α β : Type} {x : EStateM Error σ α} {f : α → EStateM Error σ β}
    {s s' : σ} {a : α} (h : x s = .ok a s') : resultOf (x >>= f) s = resultOf (f a) s' := by
  rw [resultOf, run_bind h, resultOf]

/-- The state that the work leaves is in the relation `R` to the one that it begins with, also when
it fails. -/
def Within {σ α : Type} (R : σ → σ → Prop) (work : EStateM Error σ α) : Prop :=
  ∀ s, R s (after work s)

namespace Within

variable {σ α β : Type} {R : σ → σ → Prop} {x : EStateM Error σ α} {f : α → EStateM Error σ β}

theorem of_ok (h : Within R x) {s s' : σ} {a : α} (hx : x s = .ok a s') : R s s' := by
  have hs := h s
  rw [after, hx] at hs
  exact hs

theorem of_error (h : Within R x) {s s' : σ} {e : Error} (hx : x s = .error e s') : R s s' := by
  have hs := h s
  rw [after, hx] at hs
  exact hs

theorem modify {f : σ → σ} (h : ∀ s, R s (f s)) :
    Within R (modify f : EStateM Error σ PUnit) := h

theorem outcome (h : Within R x) : Within R (Modbus.outcome x) := by
  intro s
  rw [after_outcome]
  exact h s

theorem map (f : α → β) (h : Within R x) : Within R (f <$> x) := by
  intro s
  have hs := h s
  have hmap : after (f <$> x) s = after x s := by
    show after (EStateM.map f x) s = _
    rw [after, after, EStateM.map]
    rcases x s with ⟨a, s'⟩ | ⟨e, s'⟩ <;> rfl
  rw [hmap]
  exact hs

theorem pure [IsPreorder σ R] (a : α) : Within R (Pure.pure a) := fun s => refl s

theorem throw [IsPreorder σ R] (e : Error) :
    Within R (MonadExcept.throw e : EStateM Error σ α) := fun s => refl s

theorem get [IsPreorder σ R] : Within R (MonadState.get : EStateM Error σ σ) := fun s => refl s

theorem bind [IsPreorder σ R] (hx : Within R x) (hf : ∀ a, Within R (f a)) :
    Within R (x >>= f) := by
  intro s
  have hs := hx s
  rw [after] at hs ⊢
  rcases hrun : x s with ⟨a, s'⟩ | ⟨e, s'⟩
  · rw [hrun] at hs
    rw [run_bind hrun]
    exact IsTrans.trans _ _ _ hs (hf a s')
  · rw [hrun] at hs
    rw [run_bind_of_error hrun]
    exact hs

end Within

/-- Each error that the work can end with is one of `P`. -/
def Throws {σ α : Type} (P : Error → Prop) (work : EStateM Error σ α) : Prop :=
  ∀ s e s', work s = .error e s' → P e

namespace Throws

variable {σ α β : Type} {P : Error → Prop} {x : EStateM Error σ α} {f : α → EStateM Error σ β}

theorem pure (a : α) : Throws P (Pure.pure a : EStateM Error σ α) := by rintro _ _ _ ⟨⟩

theorem get : Throws P (MonadState.get : EStateM Error σ σ) := by rintro _ _ _ ⟨⟩

theorem set (s : σ) : Throws P (MonadStateOf.set s : EStateM Error σ PUnit) := by rintro _ _ _ ⟨⟩

theorem modify (f : σ → σ) : Throws P (modify f : EStateM Error σ PUnit) := by rintro _ _ _ ⟨⟩

theorem throw {e : Error} (h : P e) : Throws P (MonadExcept.throw e : EStateM Error σ α) := by
  rintro s e' s' he
  cases he
  exact h

theorem outcome (x : EStateM Error σ α) : Throws P (Modbus.outcome x) := by
  intro s e s' h
  rw [Modbus.outcome] at h
  rcases hx : x s with ⟨a, s₁⟩ | ⟨e₁, s₁⟩ <;> rw [hx] at h <;> cases h

theorem map (f : α → β) (h : Throws P x) : Throws P (f <$> x) := by
  intro s e s' hmap
  have hrun : EStateM.map f x s = .error e s' := hmap
  rw [EStateM.map] at hrun
  rcases hx : x s with ⟨a, s₁⟩ | ⟨e₁, s₁⟩ <;> rw [hx] at hrun <;> cases hrun
  exact h s e s' hx

theorem bind (hx : Throws P x) (hf : ∀ a, Throws P (f a)) : Throws P (x >>= f) := by
  intro s e s' h
  rcases hrun : x s with ⟨a, s₁⟩ | ⟨e₁, s₁⟩
  · rw [run_bind hrun] at h
    exact hf a s₁ e s' h
  · rw [run_bind_of_error hrun] at h
    cases h
    exact hx s e s' hrun

theorem mono {Q : Error → Prop} (h : Throws P x) (hPQ : ∀ e, P e → Q e) : Throws Q x :=
  fun s e s' he => hPQ e (h s e s' he)

end Throws

/-! ### Work on a link

A relation holds of the work on a link once it holds of the changes that the work is made of. -/

namespace Link

variable {R : Link → Link → Prop}

theorem within_attempt (h : ∀ l faults, R l (l.withWire { l.transport.wire with faults }))
    (a : Action) : Within R (attempt a) := by
  intro l
  have hwire : ∃ faults, (l.transport.wire.attempt a).2 = { l.transport.wire with faults } := by
    unfold Wire.attempt
    split <;> exact ⟨_, rfl⟩
  have hafter : after (attempt a) l = l.withWire (l.transport.wire.attempt a).2 := by
    rw [after, attempt]
    rcases l.transport.wire.attempt a with ⟨_ | kind, wire⟩ <;> rfl
  obtain ⟨faults, hfaults⟩ := hwire
  rw [hafter, hfaults]
  exact h l faults

variable [IsPreorder Link R]

theorem within_perform {a : Action} (hrecord : ∀ l, R l (l.record (.did l.transport.wire.name a)))
    (hattempt : Within R (attempt a)) : Within R (perform a) := by
  intro l
  by_cases hdoes : l.transport.kind.does a = true
  · have hrun : perform a l = attempt a (l.record (.did l.transport.wire.name a)) := by
      rw [perform, run_get_bind, if_pos hdoes, run_set_bind]
    rw [after, hrun]
    exact IsTrans.trans _ _ _ (hrecord l) (hattempt _)
  · rw [after, perform, run_get_bind, if_neg hdoes]
    exact refl l

theorem within_takeStream (h : ∀ l framing, l.transport.kind = .attached framing true →
    R l { l with transport := { l.transport with kind := .attached framing false } }) :
    Within R takeStream := by
  intro l
  rw [after, takeStream, run_get_bind]
  rcases hkind : l.transport.kind with ⟨framing, _ | _⟩ | _ | _ | _
  case attached.true => exact h l framing hkind
  all_goals exact refl l

/-- What is left of meeting a peer when the transport has been told to connect. -/
def greet (deadline : Option Nat) : LinkM (Option Peer) := do
  let l ← get
  let w := l.transport.wire
  set (l.withWire { w with meetings := w.meetings.tail })
  match w.meetings.headD l.transport.kind.defaultMeeting with
  | .peer peer => return some peer
  | .refused kind => throw (.transport (.scripted kind))
  | .never =>
    sleepUntil (deadline.getD 0)
    return none

theorem within_greet
    (hmeetings : ∀ l meetings, R l (l.withWire { l.transport.wire with meetings }))
    (hsleep : ∀ t, Within R (sleepUntil t)) (deadline : Option Nat) :
    Within R (greet deadline) := by
  intro l
  let l' := l.withWire { l.transport.wire with meetings := l.transport.wire.meetings.tail }
  refine IsTrans.trans l l' _ (hmeetings l _) ?_
  rw [after, greet, run_get_bind, run_set_bind]
  rcases l.transport.wire.meetings.headD l.transport.kind.defaultMeeting with peer | kind | _
  · exact refl l'
  · exact refl l'
  · exact ((hsleep (deadline.getD 0)).bind fun _ => Within.pure (none : Option Peer)) l'

theorem within_meet (hconnect : Within R (perform .connecting))
    (hmeetings : ∀ l meetings, R l (l.withWire { l.transport.wire with meetings }))
    (hsleep : ∀ t, Within R (sleepUntil t)) (deadline : Option Nat) :
    Within R (meet deadline) :=
  .bind hconnect fun _ => within_greet hmeetings hsleep deadline

theorem within_write (hattempt : Within R (attempt .writing)) (hrecord : ∀ l e, R l (l.record e))
    (bytes : List UInt8) : Within R (write bytes) := by
  refine .bind hattempt.outcome fun wrote => .bind .get fun l => ?_
  rcases wrote with e | _
  · exact .bind (.modify fun l => hrecord l _) fun _ => .throw e
  · exact .modify fun l => hrecord l _

theorem within_send (hattempt : ∀ a, Within R (attempt a)) (hrecord : ∀ l e, R l (l.record e))
    (hsleep : ∀ ms, Within R (sleep ms)) (message : Message) : Within R (send message) := by
  have hperform : ∀ a, Within R (perform a) := fun a =>
    within_perform (fun l => hrecord l _) (hattempt a)
  exact .bind (hperform .beginning) fun _ =>
    .bind (within_write (hattempt .writing) hrecord _) fun _ => .bind (hattempt .flushing) fun _ =>
      .bind (hperform .ending) fun _ => .bind .get fun _ => hsleep _

end Link

end Modbus

import Modbus.Proofs.Link.Unread

/-! Work that does not look at what a link has received. It does the same, and comes to the same
end, whatever is left of earlier reads and whatever is still to arrive. -/

namespace Modbus

/-- The work goes on in the same way when its state is changed by `f`. -/
def Blind {σ α : Type} (f : σ → σ) (work : EStateM Error σ α) : Prop := ∀ s,
  work (f s) =
    match work s with
    | .ok a s' => .ok a (f s')
    | .error e s' => .error e (f s')

namespace Blind

variable {σ α β : Type} {f : σ → σ} {x : EStateM Error σ α} {k : α → EStateM Error σ β} {s s' : σ}

theorem run (h : Blind f x) {a : α} (hx : x s = .ok a s') : x (f s) = .ok a (f s') := by
  rw [h s, hx]

theorem pure (a : α) : Blind f (Pure.pure a) := fun _ => rfl

theorem throw (e : Error) : Blind f (MonadExcept.throw e : EStateM Error σ α) := fun _ => rfl

theorem modify {g : σ → σ} (h : ∀ s, g (f s) = f (g s)) :
    Blind f (modify g : EStateM Error σ PUnit) :=
  fun s => congrArg (EStateM.Result.ok ()) (h s)

theorem bind (hx : Blind f x) (hk : ∀ a, Blind f (k a)) : Blind f (x >>= k) := by
  intro s
  have hs := hx s
  rcases hrun : x s with ⟨a, s'⟩ | ⟨e, s'⟩ <;> rw [hrun] at hs
  · rw [run_bind hs, run_bind hrun]
    exact hk a s'
  · rw [run_bind_of_error hs, run_bind_of_error hrun]

/-- Work that looks at its state is blind if what it sees is the same. -/
theorem get_bind {k : σ → EStateM Error σ β} (hsame : ∀ s, k (f s) = k s)
    (hk : ∀ s, Blind f (k s)) : Blind f (get >>= k) := by
  intro s
  rw [run_get_bind, run_get_bind, hsame]
  exact hk s s

theorem map (g : α → β) (hx : Blind f x) : Blind f (g <$> x) := by
  intro s
  have hs := hx s
  show EStateM.map g x (f s) = match EStateM.map g x s with
    | .ok b s' => .ok b (f s')
    | .error e s' => .error e (f s')
  rw [EStateM.map, EStateM.map, hs]
  rcases x s with ⟨a, s'⟩ | ⟨e, s'⟩ <;> rfl

theorem outcome (hx : Blind f x) : Blind f (Modbus.outcome x) := by
  intro s
  rw [Modbus.outcome, Modbus.outcome, hx s]
  rcases x s with ⟨a, s'⟩ | ⟨e, s'⟩ <;> rfl

end Blind

namespace Link

/-- The link with another channel and with other arrivals to come. -/
def given (channel : Option Channel → Option Channel) (arrivals : List Arrival) (l : Link) : Link :=
  { l.withWire { l.transport.wire with arrivals } with channel := channel l.channel }

variable {channel : Option Channel → Option Channel} {arrivals : List Arrival}

theorem kind_given (l : Link) : (given channel arrivals l).transport.kind = l.transport.kind := rfl

theorem blind_attempt (a : Action) : Blind (given channel arrivals) (attempt a) := by
  intro l
  rcases hfaults : l.transport.wire.faults a with _ | ⟨_ | kind, rest⟩ <;>
    simp only [attempt, Wire.attempt, given, withWire, hfaults]

theorem blind_perform (a : Action) : Blind (given channel arrivals) (perform a) := by
  intro l
  rw [perform, run_get_bind, run_get_bind, kind_given]
  by_cases hdoes : l.transport.kind.does a = true
  · rw [if_pos hdoes, if_pos hdoes, run_set_bind, run_set_bind]
    exact blind_attempt a (l.record (.did l.transport.wire.name a))
  · rw [if_neg hdoes, if_neg hdoes]
    rfl

theorem blind_sleep (ms : Nat) : Blind (given channel arrivals) (sleep ms) :=
  .modify fun _ => rfl

theorem blind_sleepUntil (t : Nat) : Blind (given channel arrivals) (sleepUntil t) :=
  .modify fun _ => rfl

theorem blind_write (bytes : List UInt8) : Blind (given channel arrivals) (write bytes) := by
  refine .bind (.outcome (blind_attempt .writing)) fun wrote =>
    .get_bind (fun _ => rfl) fun l => ?_
  rcases wrote with e | _
  · exact .bind (.modify fun _ => rfl) fun _ => .throw e
  · exact .modify fun _ => rfl

theorem blind_send (message : Message) : Blind (given channel arrivals) (send message) :=
  .bind (blind_perform .beginning) fun _ => .bind (blind_write _) fun _ =>
    .bind (blind_attempt .flushing) fun _ => .bind (blind_perform .ending) fun _ =>
      .get_bind (fun _ => rfl) fun _ => blind_sleep _

theorem blind_takeStream : Blind (given channel arrivals) takeStream := by
  intro l
  rw [takeStream, run_get_bind, run_get_bind, kind_given]
  rcases l.transport.kind with ⟨framing, _ | _⟩ | _ | _ | _ <;> rfl

theorem blind_meet (deadline : Option Nat) : Blind (given channel arrivals) (meet deadline) := by
  refine .bind (blind_perform .connecting) fun _ => fun l => ?_
  rw [run_get_bind, run_get_bind, run_set_bind, run_set_bind]
  have hmeetings : (given channel arrivals l).transport.wire.meetings =
      l.transport.wire.meetings := rfl
  rw [kind_given, hmeetings]
  rcases l.transport.wire.meetings.headD l.transport.kind.defaultMeeting with peer | kind | _ <;>
    rfl

theorem blind_seek (deadline : Option Nat) : Blind (given channel arrivals) (seek deadline) := by
  intro l
  rw [seek, run_get_bind, run_get_bind, kind_given]
  rcases l.transport.kind with _ | _ | _ | _
  case attached => exact blind_takeStream.map some l
  all_goals exact blind_meet deadline l

/-- What is to arrive on a stream does not count when it is connected. -/
theorem blind_connect (role : Role) (debug : Bool) (deadline : Option Nat) :
    Blind (given id arrivals) (connect role debug deadline) := by
  rw [connect_eq]
  refine .bind (blind_seek deadline) fun peer => ?_
  rcases peer with _ | peer
  · exact .pure _
  · exact .bind (.modify fun _ => rfl) fun _ => .pure _

/-- Sending leaves the stream and what is to arrive on it alone. -/
theorem send_spares {l l' : Link} {message : Message} (h : send message l = .ok () l') :
    l'.channel = l.channel ∧ l'.transport.wire.arrivals = l.transport.wire.arrivals := by
  have hsame : given (fun _ => l.channel) l.transport.wire.arrivals l = l := rfl
  have hsent := (blind_send message).run (f := given (fun _ => l.channel)
    l.transport.wire.arrivals) h
  rw [hsame, h] at hsent
  have hlink := (EStateM.Result.ok.inj hsent).2
  exact ⟨congrArg (·.channel) hlink, congrArg (·.transport.wire.arrivals) hlink⟩

end Link

end Modbus

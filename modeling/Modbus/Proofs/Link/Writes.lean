import Modbus.Proofs.Client.Work
import Modbus.Proofs.Link.Failures

/-! What is written to a wire. The journal of a link tells it, also when the writing fails, and it
tells one wire from another by their names: a client writes to its own wire alone. -/

namespace Modbus

/-- The bytes of a write to the wire `wire`, whether or not they went out. -/
def Entry.written? (wire : String) : Entry → Option (List UInt8)
  | .sent name bytes | .unsent name bytes => if name = wire then some bytes else none
  | _ => none

/-- The journal `j'` is `j` with new entries, of which `groups` of bytes are writes to `wire`. -/
def Journal.Writes (wire : String) (groups : List (List UInt8)) (j j' : Journal) : Prop :=
  ∃ added, j'.entries = j.entries ++ added ∧ added.filterMap (Entry.written? wire) = groups

namespace Journal.Writes

variable {wire : String} {groups groups' : List (List UInt8)} {j j' j'' : Journal}

theorem of_entries_eq (h : j'.entries = j.entries) : Writes wire [] j j' :=
  ⟨[], by rw [h, List.append_nil], rfl⟩

theorem trans (h : Writes wire groups j j') (h' : Writes wire groups' j' j'') :
    Writes wire (groups ++ groups') j j'' := by
  obtain ⟨added, hadded, hgroups⟩ := h
  obtain ⟨added', hadded', hgroups'⟩ := h'
  exact ⟨added ++ added', by rw [hadded', hadded, List.append_assoc],
    by rw [List.filterMap_append, hgroups, hgroups']⟩

theorem add (j : Journal) (e : Entry) : Writes wire (e.written? wire).toList j (j.add e) := by
  refine ⟨[e], rfl, ?_⟩
  rcases h : e.written? wire with _ | bytes
  · exact List.filterMap_cons_none h
  · exact List.filterMap_cons_some h

theorem addNotes (j : Journal) (notes : List String) : Writes wire [] j (j.addNotes notes) := by
  refine ⟨notes.map .note, rfl, ?_⟩
  rw [List.filterMap_map]
  exact List.filterMap_eq_nil_iff.mpr fun _ _ => rfl

/-- What was written is found in the part of the record that was added. -/
theorem since (h : Writes wire groups j j') :
    (Pair.since j' j.entries.length).filterMap (Entry.written? wire) = groups := by
  obtain ⟨added, hadded, hgroups⟩ := h
  rw [Pair.since, hadded, List.drop_left, hgroups]

end Journal.Writes

/-- Nothing has gone out if nothing has been written to any wire. -/
theorem Pair.sentBytes_eq_nil {entries : List Entry}
    (h : ∀ wire, entries.filterMap (Entry.written? wire) = []) : sentBytes entries = [] := by
  induction entries with
  | nil => rfl
  | cons e rest ih =>
    have hwrites : ∀ wire, ∀ e' ∈ e :: rest, e'.written? wire = none :=
      fun wire => List.filterMap_eq_nil_iff.mp (h wire)
    have hrest : sentBytes rest = [] := ih fun wire =>
      List.filterMap_eq_nil_iff.mpr fun e' he' => hwrites wire e' (List.mem_cons_of_mem _ he')
    cases e with
    | sent wire bytes =>
      have hnone := hwrites wire _ List.mem_cons_self
      rw [Entry.written?, if_pos rfl] at hnone
      cases hnone
    | _ => exact hrest

/-- The link `l'` comes from `l` by work that has written `groups` of bytes to the wire `wire`. -/
structure Link.Writes (wire : String) (groups : List (List UInt8)) (l l' : Link) : Prop where
  name : l'.transport.wire.name = l.transport.wire.name
  journal : Journal.Writes wire groups l.journal l'.journal

theorem Link.Writes.trans {wire : String} {groups groups' : List (List UInt8)} {l l' l'' : Link}
    (h : l.Writes wire groups l') (h' : l'.Writes wire groups' l'') :
    l.Writes wire (groups ++ groups') l'' :=
  ⟨h'.name.trans h.name, h.journal.trans h'.journal⟩

/-- Nothing has been written to the wire `wire`. -/
def Silent {σ : Type} (wire : String) (link : σ → Link) (s s' : σ) : Prop :=
  (link s).Writes wire [] (link s')

/-- Nothing has been written to the wire `wire`, unless the link is on it. -/
def Avoiding {σ : Type} (wire : String) (link : σ → Link) (s s' : σ) : Prop :=
  (link s).transport.wire.name ≠ wire → Silent wire link s s'

section

variable {σ : Type} {wire : String} {link : σ → Link}

instance : IsPreorder σ (Silent wire link) where
  refl _ := ⟨rfl, .of_entries_eq rfl⟩
  trans _ _ _ h h' := Link.Writes.trans h h'

instance : IsPreorder σ (Avoiding wire link) where
  refl s _ := refl s
  trans _ _ _ h h' hname := by
    have hfirst := h hname
    refine IsTrans.trans _ _ _ hfirst (h' ?_)
    rw [hfirst.name]
    exact hname

theorem avoiding_of_silent {α : Type} {work : EStateM Error σ α}
    (h : Within (Silent wire link) work) : Within (Avoiding wire link) work := fun s _ => h s

end

/-- What is written first is all that is written, if what follows is silent. -/
theorem Link.writes_bind {σ α β : Type} {wire : String} {link : σ → Link} {work : EStateM Error σ α}
    {f : α → EStateM Error σ β} {groups : List (List UInt8)} {s : σ}
    (h : (link s).Writes wire groups (link (after work s)))
    (hf : ∀ a, Within (Silent wire link) (f a)) :
    (link s).Writes wire groups (link (after (work >>= f) s)) := by
  rcases hrun : work s with ⟨a, s'⟩ | ⟨e, s'⟩ <;> rw [after, hrun] at h
  · have hrest : (link s').Writes wire [] (link (after (f a) s')) := hf a s'
    have hafter : after (work >>= f) s = after (f a) s' := by
      rw [after, run_bind hrun, ← after]
    have htrans := h.trans hrest
    rw [List.append_nil] at htrans
    rw [hafter]
    exact htrans
  · rw [after, run_bind_of_error hrun]
    exact h

namespace Link

variable {wire : String} {l : Link}

theorem silent_of_same {l l' : Link} (hname : l'.transport.wire.name = l.transport.wire.name)
    (hentries : l'.journal.entries = l.journal.entries) : Silent wire id l l' :=
  ⟨hname, .of_entries_eq hentries⟩

theorem silent_attempt (a : Action) : Within (Silent wire id) (attempt a) :=
  within_attempt (fun _ _ => silent_of_same rfl rfl) a

theorem silent_perform (a : Action) : Within (Silent wire id) (perform a) :=
  within_perform (fun l => ⟨rfl, .add l.journal _⟩) (silent_attempt a)

theorem silent_sleep (ms : Nat) : Within (Silent wire id) (sleep ms) :=
  .modify fun _ => silent_of_same rfl rfl

theorem silent_sleepUntil (t : Nat) : Within (Silent wire id) (sleepUntil t) :=
  .modify fun _ => silent_of_same rfl rfl

theorem silent_setDeadline (t : Nat) : Within (Silent wire id) (setDeadline t) :=
  .modify fun _ => silent_of_same rfl rfl

theorem silent_dropChannel : Within (Silent wire id) dropChannel :=
  .modify fun _ => silent_of_same rfl rfl

theorem silent_clearBuffer : Within (Silent wire id) clearBuffer :=
  .modify fun _ => silent_of_same rfl rfl

theorem silent_connect (role : Role) (debug : Bool) (deadline : Option Nat) :
    Within (Silent wire id) (connect role debug deadline) := by
  have hmeet : Within (Silent wire id) (meet deadline) :=
    within_meet (silent_perform .connecting) (fun _ _ => silent_of_same rfl rfl) silent_sleepUntil
      deadline
  rw [connect_eq]
  refine .bind (within_seek (within_takeStream fun _ _ _ => silent_of_same rfl rfl) hmeet)
    fun peer => ?_
  rcases peer with _ | peer
  · exact .pure _
  · exact .bind (.modify fun _ => silent_of_same rfl rfl) fun _ => .pure _

theorem silent_receive (timeout byteTimeout : Nat) :
    Within (Silent wire id) (receive timeout byteTimeout) := by
  intro l
  rcases hc : l.channel with _ | c
  · rw [after, receive, hc]
    exact refl l
  · rw [after_receive hc]
    exact silent_of_same rfl rfl

/-! ### Sending -/

/-- The groups of bytes that a write of `bytes` by the link comes to on the wire `wire`. -/
def share (wire : String) (bytes : List UInt8) (l : Link) : List (List UInt8) :=
  if l.transport.wire.name = wire then [bytes] else []

theorem writes_write (bytes : List UInt8) (l : Link) :
    l.Writes wire (l.share wire bytes) (after (write bytes) l) := by
  have hadd : ∀ (l' : Link) (e : Entry), Silent wire id l l' →
      e.written? wire = (if l'.transport.wire.name = wire then some bytes else none) →
      l.Writes wire (l.share wire bytes) (l'.record e) := by
    intro l' e hsilent he
    have hname : l'.transport.wire.name = l.transport.wire.name := hsilent.name
    have hrecord := hsilent.journal.trans (.add l'.journal e)
    have hshare : (e.written? wire).toList = l.share wire bytes := by
      rw [he, hname, share]
      split <;> rfl
    rw [hshare, List.nil_append] at hrecord
    exact ⟨hname, hrecord⟩
  have hattempt : Silent wire id l (after (attempt .writing) l) := silent_attempt .writing l
  rw [after] at hattempt ⊢
  rw [write_eq]
  rcases hrun : attempt .writing l with ⟨_, l'⟩ | ⟨e, l'⟩ <;> rw [hrun] at hattempt
  · exact hadd l' _ hattempt rfl
  · exact hadd l' _ hattempt rfl

/-- Sending a message writes its frame once to the wire of the link, if sending can begin. -/
theorem writes_send (message : Message) (l : Link) :
    l.Writes wire (l.share wire (FrameCodec.encode message)) (after (send message) l) ∨
      l.Writes wire [] (after (send message) l) ∧
        ∃ e, send message l = .error e (after (send message) l) ∧
          l.transport.Fails [.beginning] (after (send message) l).transport e := by
  have hbegin : Silent wire id l (after (perform .beginning) l) := silent_perform .beginning l
  rcases hrun : perform .beginning l with ⟨_, l₁⟩ | ⟨e, l₁⟩ <;> rw [after, hrun] at hbegin
  · refine .inl ?_
    have hafter : after (send message) l = after (write (FrameCodec.encode message) >>= fun _ =>
        do attempt .flushing; perform .ending; sleep (← get).transport.kind.silence) l₁ := by
      rw [after, send, run_bind hrun, ← after]
    have hwrite : l₁.Writes wire _ _ := writes_write (FrameCodec.encode message) l₁
    have hrest := writes_bind hwrite fun _ =>
      Within.bind (silent_attempt .flushing) fun _ => .bind (silent_perform .ending) fun _ =>
        .bind .get fun l => silent_sleep l.transport.kind.silence
    have hshare : l₁.share wire (FrameCodec.encode message) =
        l.share wire (FrameCodec.encode message) := by
      rw [share, share, show l₁.transport.wire.name = l.transport.wire.name from hbegin.name]
    rw [hafter, ← hshare]
    exact Writes.trans hbegin hrest
  · have hsend : send message l = .error e l₁ := by
      rw [send, run_bind_of_error hrun]
    rw [after, hsend]
    exact .inr ⟨hbegin, e, rfl, (honest_perform .beginning).fails l e l₁ hrun⟩

theorem avoiding_send (message : Message) : Within (Avoiding wire id) (send message) := by
  intro l hname
  have hshare : l.share wire (FrameCodec.encode message) = [] := if_neg hname
  have hsend : l.Writes wire _ _ ∨ l.Writes wire [] _ ∧ _ := writes_send message l
  rcases hsend with h | ⟨h, -⟩
  · rw [hshare] at h
    exact h
  · exact h

/-- A client does nothing on its link that writes to another wire. -/
theorem spans_avoiding : Spans (Avoiding wire id) where
  perform a := avoiding_of_silent (silent_perform a)
  connect debug := avoiding_of_silent (silent_connect .response debug none)
  dropChannel := avoiding_of_silent silent_dropChannel
  sleepUntil t := avoiding_of_silent (silent_sleepUntil t)
  setDeadline t := avoiding_of_silent (silent_setDeadline t)
  clearBuffer := avoiding_of_silent silent_clearBuffer
  send := avoiding_send
  receive timeout byteTimeout := avoiding_of_silent (silent_receive timeout byteTimeout)

end Link

/-! ### Clients -/

namespace SharedClient

variable {wire : String}

/-- The wire of a client, if it has one of its own. -/
def wire? : SharedClient → Option String
  | .linked c => some c.link.transport.wire.name
  | .scripted _ => none

/-- A client writes to no wire but its own. -/
theorem writes_call {client : SharedClient} (h : client.wire? ≠ some wire) (unit : UnitId)
    (request : Request) (j : Journal) :
    let (_, client', j') := client.call unit request j
    client'.wire? = client.wire? ∧ j.Writes wire [] j' := by
  cases client with
  | linked c =>
    let c₀ : Client := { c with link := { c.link with journal := j } }
    have hname : c₀.link.transport.wire.name ≠ wire := fun heq => h (congrArg some heq)
    have hcall : Within (Avoiding wire Client.link) (Client.call unit request) :=
      Client.within_call
        (.ofLink Link.spans_avoiding (fun _ _ => id) fun _ _ _ => Link.silent_of_same rfl rfl)
        (fun _ _ _ => Link.silent_of_same rfl rfl) unit request
    have hafter := hcall c₀ hname
    rw [after] at hafter
    rcases hrun : Client.call unit request c₀ with ⟨a, c'⟩ | ⟨e, c'⟩ <;> rw [hrun] at hafter
    all_goals
      simp only [call, work, c₀, hrun]
      exact ⟨congrArg some hafter.name, hafter.journal⟩
  | scripted c =>
    have hadd : j.Writes wire [] (j.add (.called c.name unit request)) := .add j _
    rcases hanswer : c.answers.headD .timeout with response | exception | kind | _
    all_goals
      simp only [call, work, ScriptedClient.call, run_get_bind, run_set_bind, hanswer]
      exact ⟨rfl, hadd⟩

end SharedClient

end Modbus

import Modbus.Proofs.Client.Work
import Modbus.Proofs.Link.Failures

/-! What has been done to a transport, in order, and which of it has succeeded. The record of a link
tells what has been tried under the name of its wire, and the wire has said in advance which of it
would fail and which peers would be there. -/

namespace Modbus

/-- An action on a transport, and whether it has succeeded. -/
structure Deed where
  action : Action
  succeeded : Bool
deriving DecidableEq

namespace Deed

variable {deeds before later : List Deed} {d d' : Deed} {ends : Deed → Prop}

/-- The deed `d` has been done, and since then nothing that `ends` it. -/
def Since (d : Deed) (ends : Deed → Prop) (deeds : List Deed) : Prop :=
  ∃ before later, deeds = before ++ d :: later ∧ ∀ d' ∈ later, ¬ ends d'

theorem of_concat_eq (h : deeds ++ [d] = before ++ d' :: later) :
    (deeds = before ∧ d = d' ∧ later = []) ∨
      ∃ rest, later = rest ++ [d] ∧ deeds = before ++ d' :: rest := by
  rcases List.eq_nil_or_concat later with rfl | ⟨rest, last, rfl⟩
  · obtain ⟨hdeeds, hlast⟩ := List.append_inj' h rfl
    exact .inl ⟨hdeeds, List.singleton_inj.mp hlast, rfl⟩
  · rw [List.concat_eq_append, ← List.cons_append, ← List.append_assoc] at h
    obtain ⟨hdeeds, hlast⟩ := List.append_inj' h rfl
    rw [List.singleton_inj] at hlast
    exact .inr ⟨rest, by rw [hlast, List.concat_eq_append], hdeeds⟩

theorem since_concat :
    Since d ends (deeds ++ [d']) ↔ d' = d ∨ Since d ends deeds ∧ ¬ ends d' := by
  constructor
  · rintro ⟨before, later, hdeeds, hnone⟩
    rcases of_concat_eq hdeeds with ⟨-, hsame, -⟩ | ⟨rest, rfl, hrest⟩
    · exact .inl hsame
    · rw [List.forall_mem_append, List.forall_mem_singleton] at hnone
      exact .inr ⟨⟨before, rest, hrest, hnone.1⟩, hnone.2⟩
  · rintro (rfl | ⟨⟨before, later, rfl, hnone⟩, hd⟩)
    · exact ⟨deeds, [], rfl, nofun⟩
    · refine ⟨before, later ++ [d'], by simp, ?_⟩
      rw [List.forall_mem_append, List.forall_mem_singleton]
      exact ⟨hnone, hd⟩

theorem not_since_of_forall (h : ∀ d' ∈ deeds, d' ≠ d) : ¬ Since d ends deeds := by
  rintro ⟨before, later, rfl, -⟩
  exact h d (List.mem_append_right _ List.mem_cons_self) rfl

end Deed

/-- The record tells of the action by itself. It tells of writing by the bytes, and of flushing not
at all. -/
def Action.isRecorded : Action → Bool
  | writing | flushing => false
  | _ => true

def Meeting.isPeer : Meeting → Bool
  | peer _ => true
  | _ => false

/-- The action does not fail the next time. -/
def Wire.allows (w : Wire) (a : Action) : Bool := (w.faults a).head?.join.isNone

/-- What is in store for the actions on a transport that are recorded. -/
structure Prospect where
  name : String
  meetings : List Meeting
  defaultMeeting : Meeting
  faults : Action → List (Option FaultKind)

def Transport.prospect (t : Transport) : Prospect :=
  ⟨t.wire.name, t.wire.meetings, t.kind.defaultMeeting,
    fun a => if a.isRecorded then t.wire.faults a else []⟩

namespace Prospect

/-- The action does not fail the next time. -/
def allows (p : Prospect) (a : Action) : Bool := (p.faults a).head?.join.isNone

/-- The action succeeds the next time. There also has to be a peer to connect to. -/
def succeeds (p : Prospect) (a : Action) : Bool :=
  p.allows a && (a ≠ .connecting || (p.meetings.headD p.defaultMeeting).isPeer)

/-- What is in store after the action has been tried. -/
def tried (p : Prospect) (a : Action) : Prospect :=
  { p with
    faults := fun b => if b = a then (p.faults a).tail else p.faults b
    meetings := if a = .connecting ∧ p.allows a then p.meetings.tail else p.meetings }

/-- What the entries tell of the transport, and what is in store for it after them. -/
def follow : Prospect → List Entry → List Deed × Prospect
  | p, [] => ([], p)
  | p, .did wire a :: rest =>
    if wire = p.name then
      let (deeds, left) := (p.tried a).follow rest
      (⟨a, p.succeeds a⟩ :: deeds, left)
    else p.follow rest
  | p, _ :: rest => p.follow rest

theorem follow_append (p : Prospect) (entries entries' : List Entry) :
    p.follow (entries ++ entries') =
      ((p.follow entries).1 ++ ((p.follow entries).2.follow entries').1,
        ((p.follow entries).2.follow entries').2) := by
  induction entries generalizing p with
  | nil => rfl
  | cons e rest ih =>
    rw [List.cons_append]
    cases e with
    | did wire a =>
      simp only [follow]
      split
      · rw [ih]
        rfl
      · exact ih p
    | _ => exact ih p

/-- What is not recorded of an action is not a deed. -/
theorem action_ne_of_mem_follow {a : Action} {entries : List Entry} (p : Prospect)
    (h : ∀ wire, .did wire a ∉ entries) : ∀ d ∈ (p.follow entries).1, d.action ≠ a := by
  induction entries generalizing p with
  | nil => exact nofun
  | cons e rest ih =>
    have hrest : ∀ wire, .did wire a ∉ rest :=
      fun wire hmem => h wire (List.mem_cons_of_mem e hmem)
    cases e with
    | did wire b =>
      rw [follow]
      split
      · refine List.forall_mem_cons.mpr ⟨?_, ih _ hrest⟩
        rintro rfl
        exact h wire List.mem_cons_self
      · exact ih p hrest
    | _ => exact ih p hrest

/-- What is recorded of other wires is no matter of this one. -/
theorem follow_of_forall_not_mem {entries : List Entry} {p : Prospect}
    (h : ∀ a, .did p.name a ∉ entries) : p.follow entries = ([], p) := by
  induction entries with
  | nil => rfl
  | cons e rest ih =>
    have hrest := ih fun a hmem => h a (List.mem_cons_of_mem e hmem)
    cases e with
    | did wire a =>
      rw [follow, if_neg]
      · exact hrest
      · rintro rfl
        exact h a List.mem_cons_self
    | _ => exact hrest

theorem name_follow (p : Prospect) (entries : List Entry) :
    (p.follow entries).2.name = p.name := by
  induction entries generalizing p with
  | nil => rfl
  | cons e rest ih =>
    cases e with
    | did wire a =>
      rw [follow]
      split
      · exact ih (p.tried a)
      · exact ih p
    | _ => exact ih p

theorem follow_did (p : Prospect) (a : Action) :
    p.follow [.did p.name a] = ([⟨a, p.succeeds a⟩], p.tried a) := by
  rw [follow, if_pos rfl]
  rfl

end Prospect

namespace Link

/-- The deeds on the transport of the link `l` between it and the later link `l'`. -/
def deedsUntil (l l' : Link) : List Deed :=
  (l.transport.prospect.follow (l'.journal.entries.drop l.journal.entries.length)).1

/-- The link `l'` comes from `l` by work that has done `deeds` to the transport. -/
structure Did (deeds : List Deed) (l l' : Link) : Prop where
  does : l'.transport.kind.does = l.transport.kind.does
  record : ∃ added, l'.journal.entries = l.journal.entries ++ added ∧
    l.transport.prospect.follow added = (deeds, l'.transport.prospect)

variable {l l' l'' : Link} {deeds deeds' : List Deed}

theorem Did.deedsUntil_eq (h : l.Did deeds l') : l.deedsUntil l' = deeds := by
  obtain ⟨added, hadded, hfollow⟩ := h.record
  rw [deedsUntil, hadded, List.drop_left, hfollow]

theorem Did.of_same (hdoes : l'.transport.kind.does = l.transport.kind.does)
    (hprospect : l'.transport.prospect = l.transport.prospect)
    (hentries : l'.journal.entries = l.journal.entries) : l.Did [] l' :=
  ⟨hdoes, [], by rw [hentries, List.append_nil], by rw [hprospect, Prospect.follow]⟩

theorem Did.name (h : l.Did deeds l') : l'.transport.wire.name = l.transport.wire.name := by
  obtain ⟨added, -, hfollow⟩ := h.record
  have hname := Prospect.name_follow l.transport.prospect added
  rw [hfollow] at hname
  exact hname

theorem Did.refl (l : Link) : l.Did [] l := .of_same rfl rfl rfl

theorem Did.trans (h : l.Did deeds l') (h' : l'.Did deeds' l'') : l.Did (deeds ++ deeds') l'' := by
  obtain ⟨added, hadded, hfollow⟩ := h.record
  obtain ⟨added', hadded', hfollow'⟩ := h'.record
  refine ⟨h'.does.trans h.does, added ++ added', ?_, ?_⟩
  · rw [hadded', hadded, List.append_assoc]
  · rw [Prospect.follow_append, hfollow, hfollow']

/-- Nothing has been done to the transport but some of the actions. -/
def Touching {σ : Type} (actions : List Action) (link : σ → Link) (s s' : σ) : Prop :=
  ∃ deeds : List Deed, (∀ d ∈ deeds, d.action ∈ actions) ∧ (link s).Did deeds (link s')

instance {σ : Type} (actions : List Action) (link : σ → Link) :
    IsPreorder σ (Touching actions link) where
  refl s := ⟨[], nofun, .refl (link s)⟩
  trans s s' s'' h h' := by
    obtain ⟨deeds, hactions, hdid⟩ := h
    obtain ⟨deeds', hactions', hdid'⟩ := h'
    refine ⟨deeds ++ deeds', fun d hd => ?_, hdid.trans hdid'⟩
    rcases List.mem_append.mp hd with hd | hd
    · exact hactions d hd
    · exact hactions' d hd

theorem Did.touching {actions : List Action} (h : l.Did [] l') : Touching actions id l l' :=
  ⟨[], nofun, h⟩

theorem did_of_touching (h : Touching [] id l l') : l.Did [] l' := by
  obtain ⟨deeds, hnone, hdid⟩ := h
  rw [List.eq_nil_iff_forall_not_mem.mpr fun d hd => List.not_mem_nil (hnone d hd)] at hdid
  exact hdid

/-! ### One action -/

/-- The link when an action has been tried: one outcome less is to come of it. -/
def spent (a : Action) (l : Link) : Link :=
  l.withWire { l.transport.wire with
    faults := fun b => if b = a then (l.transport.wire.faults a).tail
      else l.transport.wire.faults b }

theorem spent_of_nil {a : Action} (h : l.transport.wire.faults a = []) : l.spent a = l := by
  have hfaults : (fun b => if b = a then (l.transport.wire.faults a).tail
      else l.transport.wire.faults b) = l.transport.wire.faults := by
    funext b
    split
    · rename_i hb
      rw [hb, h, List.tail_nil]
    · rfl
  rw [spent, hfaults]
  rfl

theorem attempt_of_allows {a : Action} (h : l.transport.wire.allows a = true) :
    attempt a l = .ok () (l.spent a) := by
  rw [Wire.allows] at h
  rcases hfaults : l.transport.wire.faults a with _ | ⟨_ | kind, rest⟩
  · rw [spent_of_nil hfaults, attempt, Wire.attempt, hfaults]
    rfl
  · rw [attempt, Wire.attempt, spent, hfaults]
    rfl
  · rw [hfaults] at h
    cases h

theorem attempt_of_not_allows {a : Action} (h : l.transport.wire.allows a = false) :
    ∃ e, attempt a l = .error e (l.spent a) := by
  rw [Wire.allows] at h
  rcases hfaults : l.transport.wire.faults a with _ | ⟨_ | kind, rest⟩
  · rw [hfaults] at h
    cases h
  · rw [hfaults] at h
    cases h
  · rw [attempt, Wire.attempt, spent, hfaults]
    exact ⟨_, rfl⟩

theorem prospect_spent {a : Action} (ha : a.isRecorded = true) (hc : a ≠ .connecting) (l : Link) :
    (l.spent a).transport.prospect = l.transport.prospect.tried a := by
  simp only [Transport.prospect, Prospect.tried, spent, withWire, hc, false_and, if_false,
    Prospect.mk.injEq, true_and]
  funext b
  by_cases hb : b = a
  · rw [hb, if_pos ha, if_pos rfl, if_pos rfl, if_pos ha]
  · rw [if_neg hb, if_neg hb]

theorem prospect_spent_of_not_isRecorded {a : Action} (ha : a.isRecorded = false) (l : Link) :
    (l.spent a).transport.prospect = l.transport.prospect := by
  simp only [Transport.prospect, spent, withWire, Prospect.mk.injEq, true_and]
  funext b
  by_cases hb : b = a
  · rw [hb, ha]
    rfl
  · rw [if_neg hb]

theorem allows_prospect {a : Action} (ha : a.isRecorded = true) (t : Transport) :
    t.prospect.allows a = t.wire.allows a := by
  rw [Prospect.allows, Wire.allows, Transport.prospect]
  dsimp only
  rw [if_pos ha]

theorem did_attempt {a : Action} (ha : a.isRecorded = false) (l : Link) :
    l.Did [] (after (attempt a) l) := by
  have hafter : after (attempt a) l = l.spent a := by
    rw [after]
    rcases hallows : l.transport.wire.allows a with _ | _
    · obtain ⟨e, he⟩ := attempt_of_not_allows hallows
      rw [he]
    · rw [attempt_of_allows hallows]
  rw [hafter]
  exact .of_same rfl (prospect_spent_of_not_isRecorded ha l) rfl

/-- The link when an action has been recorded and tried. -/
def performed (a : Action) (l : Link) : Link := (l.record (.did l.transport.wire.name a)).spent a

theorem perform_of_does {a : Action} (h : l.transport.kind.does a = true) :
    perform a l = attempt a (l.record (.did l.transport.wire.name a)) := by
  rw [perform, run_get_bind, if_pos h, run_set_bind]

theorem perform_of_not_does {a : Action} (h : l.transport.kind.does a = false) :
    perform a l = .ok () l := by
  rw [perform, run_get_bind, h]
  rfl

theorem perform_of_allows {a : Action} (h : l.transport.kind.does a = true)
    (hallows : l.transport.wire.allows a = true) : perform a l = .ok () (l.performed a) := by
  have hrecord : (l.record (.did l.transport.wire.name a)).transport.wire.allows a = true := hallows
  rw [perform_of_does h, attempt_of_allows hrecord, performed]

theorem perform_of_not_allows {a : Action} (h : l.transport.kind.does a = true)
    (hallows : l.transport.wire.allows a = false) :
    ∃ e, perform a l = .error e (l.performed a) := by
  have hrecord : (l.record (.did l.transport.wire.name a)).transport.wire.allows a = false :=
    hallows
  rw [perform_of_does h]
  exact attempt_of_not_allows hrecord

theorem did_performed {a : Action} (ha : a.isRecorded = true) (hc : a ≠ .connecting) (l : Link) :
    l.Did [⟨a, l.transport.wire.allows a⟩] (l.performed a) := by
  have hsucceeds : l.transport.prospect.succeeds a = l.transport.wire.allows a := by
    rw [Prospect.succeeds, allows_prospect ha, decide_eq_true hc, Bool.true_or, Bool.and_true]
  refine ⟨rfl, [.did l.transport.wire.name a], rfl, ?_⟩
  rw [performed, prospect_spent ha hc, ← hsucceeds]
  exact Prospect.follow_did _ a

/-- What is recorded of an action, if the transport takes part in it. -/
def deed (a : Action) (l : Link) : List Deed :=
  if l.transport.kind.does a then [⟨a, l.transport.wire.allows a⟩] else []

/-- An action other than connecting is recorded with its outcome. -/
theorem did_perform {a : Action} (ha : a.isRecorded = true) (hc : a ≠ .connecting) (l : Link) :
    l.Did (l.deed a) (after (perform a) l) := by
  rcases hdoes : l.transport.kind.does a with _ | _
  · rw [deed, hdoes, after, perform_of_not_does hdoes]
    exact .refl l
  · have hdid := did_performed ha hc l
    rw [deed, hdoes, if_pos rfl, after]
    rcases hallows : l.transport.wire.allows a with _ | _ <;> rw [hallows] at hdid
    · obtain ⟨e, he⟩ := perform_of_not_allows hdoes hallows
      rw [he]
      exact hdid
    · rw [perform_of_allows hdoes hallows]
      exact hdid

/-- The outcome that is recorded of an action is the one that it has had. -/
theorem allows_of_perform {a : Action} (hdoes : l.transport.kind.does a = true)
    (h : perform a l = .ok () l') : l.transport.wire.allows a = true := by
  by_contra hnot
  obtain ⟨e, he⟩ := perform_of_not_allows hdoes (Bool.eq_false_iff.mpr hnot)
  cases he.symm.trans h

theorem not_allows_of_perform_error {a : Action} {e : Error} (h : perform a l = .error e l') :
    l.transport.kind.does a = true ∧ l.transport.wire.allows a = false := by
  rcases hdoes : l.transport.kind.does a with _ | _
  · cases (perform_of_not_does hdoes).symm.trans h
  · refine ⟨rfl, Bool.eq_false_iff.mpr fun hallows => ?_⟩
    cases (perform_of_allows hdoes hallows).symm.trans h

/-! ### Connecting -/

/-- A peer has come. -/
def isMet : Except Error (Option Peer) → Bool
  | .ok (some _) => true
  | _ => false

/-- The link when connecting has not failed, and the next meeting has taken place. -/
def met (l : Link) : Link :=
  let l := l.performed .connecting
  l.withWire { l.transport.wire with meetings := l.transport.wire.meetings.tail }

theorem meet_of_allows (h : l.transport.kind.does .connecting = true)
    (hallows : l.transport.wire.allows .connecting = true) (deadline : Option Nat) :
    isMet (resultOf (meet deadline) l) =
        (l.transport.wire.meetings.headD l.transport.kind.defaultMeeting).isPeer ∧
      (after (meet deadline) l).transport = l.met.transport ∧
      (after (meet deadline) l).journal.entries = l.met.journal.entries := by
  rw [resultOf, after, meet, run_bind (perform_of_allows h hallows), run_get_bind, run_set_bind]
  have hmeetings : (l.performed .connecting).transport.wire.meetings =
      l.transport.wire.meetings := rfl
  have hkind : (l.performed .connecting).transport.kind = l.transport.kind := rfl
  rw [hmeetings, hkind]
  rcases l.transport.wire.meetings.headD l.transport.kind.defaultMeeting with peer | kind | _
  all_goals exact ⟨rfl, rfl, rfl⟩

theorem meet_of_not_allows (h : l.transport.kind.does .connecting = true)
    (hallows : l.transport.wire.allows .connecting = false) (deadline : Option Nat) :
    ∃ e, meet deadline l = .error e (l.performed .connecting) := by
  obtain ⟨e, he⟩ := perform_of_not_allows h hallows
  exact ⟨e, by rw [meet, run_bind_of_error he]⟩

/-- What is in store after connecting has been tried. -/
theorem prospect_tried_connecting (l : Link) :
    l.transport.prospect.tried .connecting =
      if l.transport.wire.allows .connecting then l.met.transport.prospect
      else (l.performed .connecting).transport.prospect := by
  have hfaults : (fun b => if b = .connecting then (l.transport.prospect.faults .connecting).tail
        else l.transport.prospect.faults b) =
      (l.performed .connecting).transport.prospect.faults := by
    funext b
    cases b <;> rfl
  have hallows : l.transport.prospect.allows .connecting = l.transport.wire.allows .connecting :=
    rfl
  rw [Prospect.tried, hfaults, hallows]
  rcases l.transport.wire.allows .connecting with _ | _ <;> rfl

theorem did_meet (h : l.transport.kind.does .connecting = true) (deadline : Option Nat) :
    l.Did [⟨.connecting, isMet (resultOf (meet deadline) l)⟩] (after (meet deadline) l) := by
  have hprospect := prospect_tried_connecting l
  have hfollow := Prospect.follow_did l.transport.prospect .connecting
  have hsucceeds : l.transport.prospect.succeeds .connecting =
      (l.transport.wire.allows .connecting &&
        (l.transport.wire.meetings.headD l.transport.kind.defaultMeeting).isPeer) := rfl
  rcases hallows : l.transport.wire.allows .connecting with _ | _
  · obtain ⟨e, he⟩ := meet_of_not_allows h hallows deadline
    rw [hallows, if_neg Bool.false_ne_true] at hprospect
    rw [hallows, Bool.false_and] at hsucceeds
    rw [hprospect, hsucceeds] at hfollow
    rw [resultOf, after, he]
    exact ⟨rfl, [.did l.transport.wire.name .connecting], rfl, hfollow⟩
  · obtain ⟨hmet, htransport, hentries⟩ := meet_of_allows h hallows deadline
    rw [hallows, if_pos rfl, ← htransport] at hprospect
    rw [hallows, Bool.true_and, ← hmet] at hsucceeds
    rw [hprospect, hsucceeds] at hfollow
    exact ⟨by rw [htransport]; rfl, [.did l.transport.wire.name .connecting], hentries, hfollow⟩

theorem touching_takeStream {actions : List Action} :
    Within (Touching actions id) takeStream := by
  apply within_takeStream
  intro l framing hkind
  refine Did.touching (.of_same ?_ ?_ rfl)
  · rw [hkind]
    funext a
    cases a <;> rfl
  · simp only [Transport.prospect, hkind]
    rfl

theorem touching_settle {actions : List Action} (role : Role) (debug : Bool)
    (peer : Option Peer) : Within (Touching actions id) (settle role debug peer) := by
  rcases peer with _ | peer
  · exact .pure _
  · exact .bind (.modify fun l => Did.touching (.of_same rfl rfl rfl)) fun _ => .pure _

theorem did_settle (role : Role) (debug : Bool) (peer : Option Peer) (l : Link) :
    l.Did [] (after (settle role debug peer) l) :=
  did_of_touching (touching_settle role debug peer l)

/-- The record tells of the first part of connecting, unless the stream is there already. -/
theorem did_seek (deadline : Option Nat) (l : Link) :
    (l.Did [] (after (seek deadline) l) ∧
        ∃ framing present, l.transport.kind = .attached framing present) ∨
      l.Did [⟨.connecting, isMet (resultOf (seek deadline) l)⟩] (after (seek deadline) l) := by
  have hmeet := fun h => did_meet (l := l) h deadline
  rw [resultOf, after, seek, run_get_bind]
  rcases hkind : l.transport.kind with _ | _ | _ | _ <;> rw [hkind] at hmeet
  case attached framing present =>
    exact .inl ⟨did_of_touching ((touching_takeStream.map some) l), framing, present, rfl⟩
  all_goals exact .inr (hmeet rfl)

theorem isMet_seek (role : Role) (debug : Bool) (deadline : Option Nat) (l : Link) :
    isMet (resultOf (seek deadline) l) = true ↔
      resultOf (connect role debug deadline) l = .ok true := by
  rw [connect_eq]
  rcases hrun : seek deadline l with ⟨_ | peer, l₁⟩ | ⟨e, l₁⟩
  · rw [resultOf_bind hrun, resultOf, hrun]
    exact ⟨by rintro ⟨⟩, by rintro ⟨⟩⟩
  · rw [resultOf_bind hrun, resultOf, hrun]
    exact ⟨fun _ => rfl, fun _ => rfl⟩
  · rw [resultOf, resultOf, run_bind_of_error hrun, hrun]
    exact ⟨by rintro ⟨⟩, by rintro ⟨⟩⟩

theorem did_connect_of_seek {role : Role} {debug : Bool} {deadline : Option Nat}
    (h : l.Did deeds (after (seek deadline) l)) :
    l.Did deeds (after (connect role debug deadline) l) := by
  rw [connect_eq]
  rw [after] at h
  rcases hrun : seek deadline l with ⟨peer, l₁⟩ | ⟨e, l₁⟩ <;> rw [hrun] at h
  · have hsettle := h.trans (did_settle role debug peer l₁)
    rw [List.append_nil] at hsettle
    rw [after_bind hrun]
    exact hsettle
  · rw [after, run_bind_of_error hrun]
    exact h

/-- Connecting is recorded with its outcome, unless the stream is there already. -/
theorem did_connect (role : Role) (debug : Bool) (deadline : Option Nat) (l : Link) :
    (l.Did [] (after (connect role debug deadline) l) ∧
        ∃ framing present, l.transport.kind = .attached framing present) ∨
      ∃ succeeded, l.Did [⟨.connecting, succeeded⟩] (after (connect role debug deadline) l) ∧
        (succeeded = true ↔ resultOf (connect role debug deadline) l = .ok true) := by
  rcases did_seek deadline l with ⟨hseek, hattached⟩ | hseek
  · exact .inl ⟨did_connect_of_seek hseek, hattached⟩
  · exact .inr ⟨_, did_connect_of_seek hseek, isMet_seek role debug deadline l⟩

/-! ### Sending and receiving -/

section

variable {α β : Type} {work : LinkM α} {f : α → LinkM β}

theorem Did.bind {a : α} (h : l.Did deeds l') (hrun : work l = .ok a l')
    (hrest : l'.Did deeds' (after (f a) l')) : l.Did (deeds ++ deeds') (after (work >>= f) l) := by
  rw [after_bind hrun]
  exact h.trans hrest

theorem Did.of_ok {a : α} (h : l.Did deeds (after work l)) (hrun : work l = .ok a l') :
    l.Did deeds l' := by
  rw [after, hrun] at h
  exact h

theorem Did.of_error {e : Error} (h : l.Did deeds (after work l)) (hrun : work l = .error e l') :
    l.Did deeds l' := by
  rw [after, hrun] at h
  exact h

theorem Did.bind_of_error {e : Error} (h : l.Did deeds l') (hrun : work l = .error e l') :
    l.Did deeds (after (work >>= f) l) := by
  rw [after, run_bind_of_error hrun]
  exact h

end

theorem allows_spent {a b : Action} (h : b ≠ a) :
    (l.spent a).transport.wire.allows b = l.transport.wire.allows b := by
  simp only [Wire.allows, spent, withWire, if_neg h]

theorem write_of_allows (h : l.transport.wire.allows .writing = true) (bytes : List UInt8) :
    write bytes l = .ok () ((l.spent .writing).record (.sent l.transport.wire.name bytes)) := by
  rw [write_eq, attempt_of_allows h]
  rfl

theorem write_of_not_allows (h : l.transport.wire.allows .writing = false) (bytes : List UInt8) :
    ∃ e, write bytes l =
      .error e ((l.spent .writing).record (.unsent l.transport.wire.name bytes)) := by
  obtain ⟨e, he⟩ := attempt_of_not_allows h
  rw [write_eq, he]
  exact ⟨e, rfl⟩

theorem did_spent {a : Action} (ha : a.isRecorded = false) (l : Link) : l.Did [] (l.spent a) :=
  .of_same rfl (prospect_spent_of_not_isRecorded ha l) rfl

theorem did_written (l : Link) {e : Entry} (he : ∀ p : Prospect, p.follow [e] = ([], p)) :
    l.Did [] ((l.spent .writing).record e) :=
  ⟨rfl, [e], rfl, by rw [he, record, prospect_spent_of_not_isRecorded rfl]⟩

theorem did_write (bytes : List UInt8) (l : Link) : l.Did [] (after (write bytes) l) := by
  rw [after]
  rcases hallows : l.transport.wire.allows .writing with _ | _
  · obtain ⟨e, he⟩ := write_of_not_allows hallows bytes
    rw [he]
    exact did_written l fun p => rfl
  · rw [write_of_allows hallows]
    exact did_written l fun p => rfl

theorem did_sleep (ms : Nat) (l : Link) : l.Did [] (after (sleep ms) l) := .of_same rfl rfl rfl

/-- What is recorded of sending a frame on a transport that takes part in it. -/
def hooks (w : Wire) : List Deed :=
  if w.allows .beginning then
    if w.allows .writing && w.allows .flushing then
      [⟨.beginning, true⟩, ⟨.ending, w.allows .ending⟩]
    else [⟨.beginning, true⟩]
  else [⟨.beginning, false⟩]

/-- The part of sending that follows when it has begun. -/
def transmit (message : Message) : LinkM Unit := do
  write (FrameCodec.encode message)
  attempt .flushing
  perform .ending
  sleep (← get).transport.kind.silence

theorem does_ending (kind : TransportKind) : kind.does .ending = kind.does .beginning := by
  cases kind <;> rfl

/-- A frame that is written and flushed is followed by the end of sending, and a frame that is not
is followed by nothing. -/
theorem did_transmit (message : Message) (l : Link) :
    l.Did (if l.transport.wire.allows .writing && l.transport.wire.allows .flushing then
      l.deed .ending else []) (after (transmit message) l) := by
  rcases hwrite : l.transport.wire.allows .writing with _ | _
  · obtain ⟨e, he⟩ := write_of_not_allows hwrite (FrameCodec.encode message)
    exact (did_written l fun p => rfl).bind_of_error he
  · have hwritten := write_of_allows hwrite (FrameCodec.encode message)
    refine Did.bind (did_written l fun p => rfl) hwritten ?_
    generalize hl₁ : (l.spent .writing).record _ = l₁
    have hflushing : l₁.transport.wire.allows .flushing = l.transport.wire.allows .flushing := by
      rw [← hl₁]
      exact allows_spent (by decide)
    rcases hflush : l.transport.wire.allows .flushing with _ | _ <;> rw [hflush] at hflushing
    · obtain ⟨e, he⟩ := attempt_of_not_allows hflushing
      exact (did_spent rfl l₁).bind_of_error he
    · have hsame : l₁.transport.wire.allows .ending = l.transport.wire.allows .ending := by
        rw [← hl₁]
        exact allows_spent (by decide)
      have hending : (l₁.spent .flushing).deed .ending = l.deed .ending := by
        rw [deed, deed, allows_spent (by decide), hsame, ← hl₁]
        rfl
      have hend := did_perform (a := .ending) rfl (by decide) (l₁.spent .flushing)
      have hrest : (l₁.spent .flushing).Did (l.deed .ending) (after
          (perform .ending >>= fun _ => get >>= fun l => sleep l.transport.kind.silence)
          (l₁.spent .flushing)) := by
        rw [hending, after] at hend
        rcases hrun : perform .ending (l₁.spent .flushing) with ⟨_, l₂⟩ | ⟨e, l₂⟩ <;>
          rw [hrun] at hend
        · have hsleep := Did.trans hend (did_sleep l₂.transport.kind.silence l₂)
          rw [List.append_nil] at hsleep
          rw [after_bind hrun]
          exact hsleep
        · exact hend.bind_of_error hrun
      exact (did_spent rfl l₁).bind (attempt_of_allows hflushing) hrest

/-- Sending a frame is recorded by its hooks, if the transport has any. -/
theorem did_send (message : Message) (l : Link) :
    l.Did (if l.transport.kind.does .beginning then hooks l.transport.wire else [])
      (after (send message) l) := by
  have htransmit := did_transmit message
  rcases hdoes : l.transport.kind.does .beginning with _ | _
  · have hrest := htransmit l
    have hnone : l.deed .ending = [] := by
      rw [deed, does_ending, hdoes]
      rfl
    rw [hnone, ite_self] at hrest
    exact (Did.refl l).bind (perform_of_not_does hdoes) hrest
  · have hbegin := did_performed (a := .beginning) rfl (by decide) l
    rw [if_pos rfl, hooks]
    rcases hallows : l.transport.wire.allows .beginning with _ | _ <;> rw [hallows] at hbegin
    · obtain ⟨e, he⟩ := perform_of_not_allows hdoes hallows
      exact hbegin.bind_of_error he
    · have hsame : ∀ a, a ≠ .beginning →
          (l.performed .beginning).transport.wire.allows a = l.transport.wire.allows a :=
        fun a ha => allows_spent ha
      have hend : (l.performed .beginning).deed .ending =
          [⟨.ending, l.transport.wire.allows .ending⟩] := by
        rw [deed, hsame _ (by decide), does_ending]
        exact if_pos hdoes
      have hrest := htransmit (l.performed .beginning)
      rw [hsame _ (by decide), hsame _ (by decide), hend] at hrest
      have hsend := hbegin.bind (f := fun _ => transmit message)
        (perform_of_allows hdoes hallows) hrest
      rw [if_pos rfl]
      split
      · rename_i hboth
        rw [if_pos hboth] at hsend
        exact hsend
      · rename_i hnot
        rw [if_neg hnot] at hsend
        exact hsend

/-- The stream and what has been read from it are the same. -/
def SameChannel (l l' : Link) : Prop := l'.channel = l.channel

instance : IsPreorder Link SameChannel where
  refl _ := rfl
  trans _ _ _ h h' := Eq.trans h' h

theorem sameChannel_perform (a : Action) : Within SameChannel (perform a) :=
  within_perform (fun _ => rfl) (within_attempt (fun _ _ => rfl) a)

theorem sameChannel_send (message : Message) : Within SameChannel (send message) :=
  within_send (within_attempt fun _ _ => rfl) (fun _ _ => rfl) (fun _ => .modify fun _ => rfl)
    message

theorem did_receive (timeout byteTimeout : Nat) (l : Link) :
    l.Did [] (after (receive timeout byteTimeout) l) := by
  rcases hc : l.channel with _ | c
  · rw [after, receive, hc]
    exact .refl l
  · rw [after_receive hc]
    exact .of_same rfl rfl rfl

end Link

/-! ### What is recorded

Work on a link adds entries of its own to the record, of actions that its transport takes part
in. -/

/-- Work on a link with the transport may add the entry to the record. -/
def Transport.Tells (t : Transport) : Entry → Prop
  | .did wire a => wire = t.wire.name ∧ t.kind.does a = true
  | .sent wire _ | .unsent wire _ => wire = t.wire.name
  | _ => False

namespace Link

/-- The link `l'` comes from `l` by work of which the record tells. -/
structure Logs (l l' : Link) : Prop where
  name : l'.transport.wire.name = l.transport.wire.name
  does : l'.transport.kind.does = l.transport.kind.does
  entries : ∃ added, l'.journal.entries = l.journal.entries ++ added ∧
    ∀ e ∈ added, l.transport.Tells e

variable {l l' : Link}

theorem Logs.of_same (hname : l'.transport.wire.name = l.transport.wire.name)
    (hdoes : l'.transport.kind.does = l.transport.kind.does)
    (hentries : l'.journal.entries = l.journal.entries) : l.Logs l' :=
  ⟨hname, hdoes, [], by rw [hentries, List.append_nil], nofun⟩

theorem Logs.tells (h : l.Logs l') {e : Entry} (he : l'.transport.Tells e) :
    l.transport.Tells e := by
  cases e with
  | did wire a => exact ⟨he.1.trans h.name, h.does ▸ he.2⟩
  | sent wire bytes | unsent wire bytes => exact Eq.trans he h.name
  | _ => exact he

instance : IsPreorder Link Logs where
  refl l := .of_same rfl rfl rfl
  trans l l' l'' h h' := by
    obtain ⟨added, hadded, htells⟩ := h.entries
    obtain ⟨added', hadded', htells'⟩ := h'.entries
    refine ⟨h'.name.trans h.name, h'.does.trans h.does, added ++ added', ?_, fun e he => ?_⟩
    · rw [hadded', hadded, List.append_assoc]
    · rcases List.mem_append.mp he with he | he
      · exact htells e he
      · exact h.tells (htells' e he)

theorem logs_record {e : Entry} (he : l.transport.Tells e) : l.Logs (l.record e) := by
  refine ⟨rfl, rfl, [e], rfl, fun e' he' => ?_⟩
  rw [List.mem_singleton.mp he']
  exact he

theorem logs_attempt (a : Action) : Within Logs (attempt a) :=
  within_attempt (fun _ _ => .of_same rfl rfl rfl) a

theorem logs_perform (a : Action) : Within Logs (perform a) := by
  intro l
  rcases hdoes : l.transport.kind.does a with _ | _
  · rw [after, perform_of_not_does hdoes]
    exact refl l
  · rw [after, perform_of_does hdoes, ← after]
    exact IsTrans.trans _ _ _ (logs_record (e := .did _ a) ⟨rfl, hdoes⟩) (logs_attempt a _)

theorem logs_connect (role : Role) (debug : Bool) (deadline : Option Nat) :
    Within Logs (connect role debug deadline) := by
  have htake : Within Logs takeStream := by
    apply within_takeStream
    intro l framing hkind
    refine .of_same rfl ?_ rfl
    rw [hkind]
    funext a
    cases a <;> rfl
  have hmeet : Within Logs (meet deadline) :=
    within_meet (logs_perform .connecting) (fun _ _ => .of_same rfl rfl rfl)
      (fun _ => .modify fun _ => .of_same rfl rfl rfl) deadline
  rw [connect_eq]
  refine .bind (within_seek htake hmeet) fun peer => ?_
  rcases peer with _ | peer
  · exact .pure _
  · exact .bind (.modify fun _ => .of_same rfl rfl rfl) fun _ => .pure _

theorem logs_write (bytes : List UInt8) : Within Logs (write bytes) := by
  intro l
  have hspent : l.Logs (l.spent .writing) := .of_same rfl rfl rfl
  rw [after]
  rcases hallows : l.transport.wire.allows .writing with _ | _
  · obtain ⟨e, he⟩ := write_of_not_allows hallows bytes
    rw [he]
    exact IsTrans.trans _ _ _ hspent (logs_record rfl)
  · rw [write_of_allows hallows]
    exact IsTrans.trans _ _ _ hspent (logs_record rfl)

theorem logs_send (message : Message) : Within Logs (send message) :=
  .bind (logs_perform .beginning) fun _ => .bind (logs_write _) fun _ =>
    .bind (logs_attempt .flushing) fun _ => .bind (logs_perform .ending) fun _ =>
      .bind .get fun _ => .modify fun _ => .of_same rfl rfl rfl

theorem logs_receive (timeout byteTimeout : Nat) : Within Logs (receive timeout byteTimeout) := by
  intro l
  rcases hc : l.channel with _ | c
  · rw [after, receive, hc]
    exact refl l
  · rw [after_receive hc]
    exact .of_same rfl rfl rfl

theorem spans_logs : Spans Logs where
  perform := logs_perform
  connect debug := logs_connect .response debug none
  dropChannel := .modify fun _ => .of_same rfl rfl rfl
  sleepUntil _ := .modify fun _ => .of_same rfl rfl rfl
  setDeadline _ := .modify fun _ => .of_same rfl rfl rfl
  clearBuffer := .modify fun _ => .of_same rfl rfl rfl
  send := logs_send
  receive := logs_receive

end Link

theorem Client.spans_logs : Client.Spans fun c c' => c.link.Logs c'.link :=
  .ofLink Link.spans_logs (fun _ _ => id) fun c _ => refl c.link

end Modbus

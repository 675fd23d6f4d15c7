import Modbus.Proofs.Client.Balance
import Modbus.Proofs.Server.Failures

/-! Whether the transmitter of a stream is turned off again. Sending a frame begins and ends with a
hook of the transport; after a frame that cannot be written or flushed the second one is left out,
and the transmitter stays on. No frame is waited for on such a stream nevertheless: a client waits
for an answer only when its request has been sent, and a server gives up the stream. -/

namespace Modbus

namespace Deed

/-- What is done next after the beginning of a transmission is its end, whether or not that
succeeds. -/
def Ended (deeds : List Deed) : Prop :=
  ∀ before later, deeds = before ++ ⟨.beginning, true⟩ :: later →
    ∃ succeeded rest, later = ⟨.ending, succeeded⟩ :: rest

/-- The transmitter of the stream has been turned on, and it has not been turned off since then. A
stream that is connected later has a transmitter of its own. -/
def Transmitting (deeds : List Deed) : Prop :=
  Since ⟨.beginning, true⟩ (fun d => d = ⟨.ending, true⟩ ∨ d = ⟨.connecting, true⟩) deeds

variable {deeds deeds' : List Deed} {d : Deed}

theorem ended_of_forall (h : ∀ d ∈ deeds, d ≠ ⟨.beginning, true⟩) : Ended deeds := by
  rintro before later rfl
  exact (h _ (List.mem_append_right _ List.mem_cons_self) rfl).elim

theorem ended_pair (succeeded : Bool) : Ended [⟨.beginning, true⟩, ⟨.ending, succeeded⟩] := by
  intro before later h
  rcases List.cons_eq_append_iff.mp h with ⟨-, hlater⟩ | ⟨before', -, hrest⟩
  · cases hlater
    exact ⟨succeeded, [], rfl⟩
  · rcases List.cons_eq_append_iff.mp hrest with ⟨-, hlater⟩ | ⟨before'', -, hnil⟩
    · cases hlater
    · exact (List.append_ne_nil_of_right_ne_nil _ (List.cons_ne_nil _ _) hnil.symm).elim

theorem transmitting_concat :
    Transmitting (deeds ++ [d]) ↔ d = ⟨.beginning, true⟩ ∨
      Transmitting deeds ∧ ¬ (d = ⟨.ending, true⟩ ∨ d = ⟨.connecting, true⟩) :=
  since_concat

theorem not_transmitting_append (h : ¬ Transmitting deeds)
    (h' : ∀ d ∈ deeds', d.action ≠ .beginning) : ¬ Transmitting (deeds ++ deeds') := by
  induction deeds' generalizing deeds with
  | nil =>
    rw [List.append_nil]
    exact h
  | cons d deeds' ih =>
    rw [List.forall_mem_cons] at h'
    rw [List.append_cons]
    refine ih ?_ h'.2
    rw [transmitting_concat]
    rintro (rfl | ⟨hon, -⟩)
    · exact h'.1 rfl
    · exact h hon

theorem not_transmitting_concat_off (before : List Deed) :
    ¬ Transmitting (before ++ [⟨.beginning, true⟩, ⟨.ending, true⟩]) := by
  rw [List.append_cons, transmitting_concat]
  rintro (h | ⟨-, h⟩)
  · cases h
  · exact h (.inl rfl)

end Deed

/-! ### Sending -/

namespace Link

open Deed

variable {l l' : Link} {message : Message}

theorem ended_hooks {w : Wire} :
    Ended (hooks w) ↔ (w.allows .beginning = true →
      w.allows .writing = true ∧ w.allows .flushing = true) := by
  rw [hooks]
  rcases w.allows .beginning with _ | _
  · exact ⟨by rintro - ⟨⟩, fun _ => ended_of_forall (by simp)⟩
  · rcases hboth : w.allows .writing && w.allows .flushing with _ | _
    · rw [Bool.and_eq_false_iff] at hboth
      refine ⟨fun hended => ?_, fun h => ?_⟩
      · obtain ⟨succeeded, rest, hnil⟩ := hended [] [] rfl
        cases hnil
      · obtain ⟨hwriting, hflushing⟩ := h rfl
        rcases hboth with hnot | hnot
        · cases hnot.symm.trans hwriting
        · cases hnot.symm.trans hflushing
    · rw [Bool.and_eq_true] at hboth
      exact ⟨fun _ _ => hboth, fun _ => ended_pair _⟩

/-- A transmission that begins is ended just when its frame can be written and flushed. -/
theorem ended_deedsUntil_send_iff (message : Message) (l : Link) :
    Ended (l.deedsUntil (after (send message) l)) ↔
      (l.transport.kind.does .beginning = true → l.transport.wire.allows .beginning = true →
        l.transport.wire.allows .writing = true ∧ l.transport.wire.allows .flushing = true) := by
  rw [(did_send message l).deedsUntil_eq]
  rcases l.transport.kind.does .beginning with _ | _
  · exact ⟨fun _ => nofun, fun _ => ended_of_forall nofun⟩
  · exact ended_hooks.trans ⟨fun h _ => h, fun h => h rfl⟩

/-- When a frame has been sent the transmitter has been turned on and off. -/
theorem did_of_send (hdoes : l.transport.kind.does .beginning = true)
    (h : send message l = .ok () l') : l.Did [⟨.beginning, true⟩, ⟨.ending, true⟩] l' := by
  obtain ⟨_, l₁, hbegin, h₁⟩ := of_run_bind h
  obtain ⟨_, l₂, hwrite, h₂⟩ := of_run_bind h₁
  obtain ⟨_, l₃, hflush, h₃⟩ := of_run_bind h₂
  obtain ⟨_, l₄, hend, hsleep⟩ := of_run_bind h₃
  have hbegun := (did_perform rfl (by decide) l).of_ok hbegin
  have hflushed := (((did_write _ l₁).of_ok hwrite).trans ((did_attempt rfl l₂).of_ok hflush))
  have hended := (did_perform rfl (by decide) l₃).of_ok hend
  have hdoes' : l₃.transport.kind.does .ending = true := by
    rw [does_ending, hflushed.does, hbegun.does, hdoes]
  rw [deed, if_pos hdoes, allows_of_perform hdoes hbegin] at hbegun
  rw [deed, if_pos hdoes', allows_of_perform hdoes' hend] at hended
  exact (hbegun.trans hflushed).trans (hended.trans ((did_sleep _ l₄).of_ok hsleep))

end Link

/-! ### Clients -/

namespace Client

variable {c c' : Client} {unit : UnitId} {request : Request} {p : Pending}

/-- The record tells what has been done to the transport on the way from `c` to `c'`. -/
def Traced (c c' : Client) : Prop := ∃ deeds, c.link.Did deeds c'.link

instance : IsPreorder Client Traced where
  refl c := ⟨[], .refl c.link⟩
  trans _ _ _ h h' := by
    obtain ⟨deeds, hdid⟩ := h
    obtain ⟨deeds', hdid'⟩ := h'
    exact ⟨deeds ++ deeds', hdid.trans hdid'⟩

theorem traced_onLink {α : Type} {work : LinkM α}
    (h : ∀ l : Link, ∃ deeds, l.Did deeds (after work l)) : Within Traced (onLink work) := by
  intro c
  rw [after_onLink]
  exact h c.link

theorem traced_connect : Within Traced connect := by
  refine .bind .get fun c => ?_
  dsimp only
  split
  · exact .pure _
  · have hconnect : ∀ l : Link, ∃ deeds, l.Did deeds
        (after (Link.connect .response c.settings.debug none) l) := by
      intro l
      rcases Link.did_connect .response c.settings.debug none l with ⟨hdid, -⟩ | ⟨_, hdid, -⟩
      · exact ⟨_, hdid⟩
      · exact ⟨_, hdid⟩
    have hreset : Within Traced (modify fun c => { c with reconnectAt := none } : ClientM PUnit) :=
      .modify fun c => ⟨[], .refl c.link⟩
    refine .bind (traced_onLink fun l => ⟨_, Link.did_perform rfl (by decide) l⟩) fun _ =>
      .bind (traced_onLink hconnect) fun connected => ?_
    split
    · exact hreset
    · exact .bind (.throw _) fun _ => hreset

theorem traced_announce (unit : UnitId) : Within Traced (announce unit) := by
  have hheader : Within Traced (nextHeader unit) :=
    within_nextHeader (fun c _ => ⟨[], .refl c.link⟩) unit
  have hconnected : Within Traced ensureConnected := by
    refine .bind .get fun c => ?_
    dsimp only
    split
    · exact .pure _
    · split
      · exact .bind (traced_onLink fun l => ⟨[], .of_same rfl rfl rfl⟩) fun _ => traced_connect
      · exact traced_connect
  exact .bind hconnected fun _ => hheader

/-- The last that is done to submit a request is to turn the transmitter on and off. -/
theorem did_of_submit (hdoes : c.link.transport.kind.does .beginning = true)
    (h : submit unit request c = .ok p c') :
    ∃ before, c.link.Did (before ++ [⟨.beginning, true⟩, ⟨.ending, true⟩]) c'.link := by
  rw [submit_eq] at h
  obtain ⟨header, c₁, hannounce, hdispatch⟩ := of_run_bind h
  obtain ⟨before, hbefore⟩ := (traced_announce unit).of_ok hannounce
  rw [dispatch] at hdispatch
  rcases hmessage : Message.ofRequest header request with e | message <;> rw [hmessage] at hdispatch
  · cases hdispatch
  · obtain ⟨_, c₂, hclear, hrest⟩ := of_run_bind hdispatch
    obtain ⟨_, c₃, hsend, hend⟩ := of_run_bind hrest
    cases hend
    obtain ⟨l₁, hcleared, rfl⟩ := of_onLink hclear
    obtain ⟨l₂, hsent, rfl⟩ := of_onLink hsend
    have hclears : c₁.link.Did [] l₁ := by
      cases hcleared
      exact .of_same rfl rfl rfl
    have hsends := Link.did_of_send (by rw [hclears.does, hbefore.does, hdoes]) hsent
    exact ⟨before, hbefore.trans (hclears.trans hsends)⟩

end Client

namespace Account

open Client (Pending submit)
open Deed

variable {s : Account} {unit : UnitId} {request : Request} {p : Pending}

/-- When a client begins to wait for an answer, its transmitter is off. -/
theorem not_transmitting_submit (h : s.Reach)
    (hsubmit : resultOf (submit unit request) s.client = .ok p) :
    ¬ Transmitting (s.run (submit unit request)).deeds := by
  rcases hdoes : s.client.link.transport.kind.does .beginning with _ | _
  · have hlogs : Within (fun c c' : Client => c.link.Logs c'.link) (submit unit request) := by
      rw [Client.submit_eq, Client.announce]
      exact .bind (.bind (Client.within_ensureConnected Client.spans_logs) fun _ =>
        Client.within_nextHeader (fun c _ => refl c.link) unit) fun header =>
          Client.within_dispatch Client.spans_logs request header
    refine not_since_of_forall fun d hd => ?_
    rintro rfl
    have hundone := h.good.undone.run hlogs .beginning (by rw [does_run hlogs, hdoes])
    exact hundone _ hd rfl
  · obtain ⟨before, hdid⟩ := Client.did_of_submit hdoes (run_of_resultOf hsubmit)
    rw [Account.run, hdid.deedsUntil_eq, ← List.append_assoc]
    exact not_transmitting_concat_off _

end Account

/-! ### Servers -/

/-- The journal `j'` is `j` with new entries, none of which tells of an action on `wire`. -/
def Journal.Passes (wire : String) (j j' : Journal) : Prop :=
  ∃ added, j'.entries = j.entries ++ added ∧ ∀ a, .did wire a ∉ added

namespace Journal.Passes

variable {wire : String} {j j' j'' : Journal}

theorem of_entries_eq (h : j'.entries = j.entries) : Passes wire j j' :=
  ⟨[], by rw [h, List.append_nil], fun _ => List.not_mem_nil⟩

theorem trans (h : Passes wire j j') (h' : Passes wire j' j'') : Passes wire j j'' := by
  obtain ⟨added, hadded, hnone⟩ := h
  obtain ⟨added', hadded', hnone'⟩ := h'
  refine ⟨added ++ added', by rw [hadded', hadded, List.append_assoc], fun a hmem => ?_⟩
  rcases List.mem_append.mp hmem with hmem | hmem
  · exact hnone a hmem
  · exact hnone' a hmem

theorem addNotes (j : Journal) (notes : List String) : Passes wire j (j.addNotes notes) :=
  ⟨notes.map .note, rfl, fun a => by simp⟩

end Journal.Passes

/-- A client records what it does under the name of its own wire. -/
theorem SharedClient.passes_call {wire : String} {client : SharedClient}
    (h : client.wire? ≠ some wire) (unit : UnitId) (request : Request) (j : Journal) :
    let (_, client', j') := client.call unit request j
    client'.wire? = client.wire? ∧ j.Passes wire j' := by
  cases client with
  | linked c =>
    let c₀ : Client := { c with link := { c.link with journal := j } }
    have hcall : Within (fun c c' : Client => c.link.Logs c'.link) (Client.call unit request) :=
      Client.within_call Client.spans_logs (fun c _ => refl c.link) unit request
    have hafter : c₀.link.Logs (after (Client.call unit request) c₀).link := hcall c₀
    rw [after] at hafter
    rcases hrun : Client.call unit request c₀ with ⟨a, c'⟩ | ⟨e, c'⟩ <;> rw [hrun] at hafter
    all_goals
      obtain ⟨added, hadded, htells⟩ := hafter.entries
      simp only [call, work, c₀, hrun]
      refine ⟨congrArg some hafter.name, added, hadded, fun a hmem => ?_⟩
      exact h (congrArg some (htells _ hmem).1.symm)
  | scripted c =>
    have hadd : j.Passes wire (j.add (.called c.name unit request)) :=
      ⟨[.called c.name unit request], rfl, fun a => by simp⟩
    rcases hanswer : c.answers.headD .timeout with response | exception | kind | _
    all_goals
      simp only [call, work, ScriptedClient.call, run_get_bind, run_set_bind, hanswer]
      exact ⟨rfl, hadd⟩

namespace Server

open Deed

variable {s s' : Server}

/-- The server `s'` comes from `s` by what its devices do about requests: nothing is done on its
link, and nothing is recorded of a wire that no client is on. -/
structure StandsApart (s s' : Server) : Prop where
  transport : s'.link.transport = s.link.transport
  channel : s'.link.channel = s.link.channel
  shuns : ∀ wire, s.Shuns wire → s'.Shuns wire ∧ s.journal.Passes wire s'.journal

instance : IsPreorder Server StandsApart where
  refl _ := ⟨rfl, rfl, fun _ hs => ⟨hs, .of_entries_eq rfl⟩⟩
  trans s s' s'' h h' := by
    refine ⟨h'.transport.trans h.transport, h'.channel.trans h.channel, fun wire hs => ?_⟩
    obtain ⟨hshuns, hpasses⟩ := h.shuns wire hs
    obtain ⟨hshuns', hpasses'⟩ := h'.shuns wire hshuns
    exact ⟨hshuns', hpasses.trans hpasses'⟩

theorem standsApart_forward (id : ClientId) (unit : UnitId) (request : Request) (s : Server) :
    s.StandsApart (forward id unit request s).2 := by
  obtain ⟨clients, journal, hforward, hshuns⟩ := exists_forward id unit request s
  rw [hforward]
  refine ⟨rfl, rfl, fun wire hs => ?_⟩
  exact hshuns wire (s.journal.Passes wire) hs (.of_entries_eq rfl)
    fun client h => SharedClient.passes_call h unit request s.journal

theorem standsApart_dispatch (s : Server) (peer : Peer) (message : Message) :
    s.StandsApart (s.dispatch peer message).2 := by
  refine related_dispatch (P := fun _ => True)
    (fun _ id unit request s _ _ => standsApart_forward id unit request s) (fun notes s => ?_)
    (fun s d map _ => ?_) (fun _ _ => trivial) peer message
  · exact ⟨rfl, rfl, fun wire hs => ⟨hs, .addNotes s.journal notes⟩⟩
  · exact ⟨rfl, rfl, fun wire hs => ⟨hs, .of_entries_eq rfl⟩⟩

/-- Neither is the transmitter of the stream on, nor has it been on at all, if the transport has
none. -/
structure Off (deeds : List Deed) (s : Server) : Prop where
  without : s.link.transport.kind.does .beginning = false → ∀ d ∈ deeds, d.action ≠ .beginning
  off : s.link.isConnected = true → ¬ Transmitting deeds

/-- If no client is on the wire of the server, what is done on the way from `s` to `s'` leaves the
transmitter off. -/
def Resting (s s' : Server) : Prop :=
  s.Shuns s.link.transport.wire.name → s'.Shuns s'.link.transport.wire.name ∧
    ∃ deeds, s.link.Did deeds s'.link ∧ ∀ before, Off before s → Off (before ++ deeds) s'

instance : IsPreorder Server Resting where
  refl s hs := ⟨hs, [], .refl s.link, fun before h => by rw [List.append_nil]; exact h⟩
  trans s s' s'' h h' hs := by
    obtain ⟨hs', deeds, hdid, hoff⟩ := h hs
    obtain ⟨hs'', deeds', hdid', hoff'⟩ := h' hs'
    refine ⟨hs'', deeds ++ deeds', hdid.trans hdid', fun before hbefore => ?_⟩
    rw [← List.append_assoc]
    exact hoff' _ (hoff before hbefore)

theorem resting_of_did {deeds : List Deed} {l : Link} (hdid : s.link.Did deeds l)
    (hoff : ∀ before, Off before s → Off (before ++ deeds) { s with link := l }) :
    Resting s { s with link := l } := by
  refine fun hs => ⟨?_, deeds, hdid, hoff⟩
  show s.Shuns l.transport.wire.name
  rw [hdid.name]
  exact hs

theorem Off.withLink {before deeds : List Deed} {l : Link} (h : Off before s)
    (hdid : s.link.Did deeds l)
    (hwithout : s.link.transport.kind.does .beginning = false → ∀ d ∈ deeds, d.action ≠ .beginning)
    (hoff : l.isConnected = true → ¬ Transmitting (before ++ deeds)) :
    Off (before ++ deeds) { s with link := l } := by
  refine ⟨fun hdoes => ?_, hoff⟩
  have hnone : s.link.transport.kind.does .beginning = false := by
    rw [← hdid.does]
    exact hdoes
  exact List.forall_mem_append.mpr ⟨h.without hnone, hwithout hnone⟩

theorem Off.not_transmitting {deeds : List Deed} (h : Off deeds s)
    (hnone : s.link.transport.kind.does .beginning = false) : ¬ Transmitting deeds := by
  refine not_since_of_forall fun d hd => ?_
  rintro rfl
  exact h.without hnone _ hd rfl

/-- Work that begins no transmission and connects no stream leaves the transmitter off. -/
theorem resting_onLink {α : Type} {work : LinkM α}
    (h : ∀ l : Link, ∃ deeds, l.Did deeds (after work l) ∧ ∀ d ∈ deeds, d.action ≠ .beginning)
    (hconnected : ∀ l, (after work l).isConnected = true → l.isConnected = true) :
    Within Resting (onLink work) := by
  intro s
  obtain ⟨deeds, hdid, hnone⟩ := h s.link
  rw [after_onLink]
  refine resting_of_did hdid fun before hbefore =>
    hbefore.withLink hdid (fun _ => hnone) fun hc => ?_
  exact not_transmitting_append (hbefore.off (hconnected s.link hc)) hnone

theorem resting_dropChannel : Within Resting (onLink Link.dropChannel) :=
  resting_onLink (fun _ => ⟨[], .of_same rfl rfl rfl, nofun⟩) fun _ => nofun

theorem resting_sleep (ms : Nat) : Within Resting (onLink (Link.sleep ms)) :=
  resting_onLink (fun l => ⟨[], Link.did_sleep ms l, nofun⟩) fun _ => id

theorem resting_perform {a : Action} (ha : a.isRecorded = true)
    (hc : a ≠ .connecting ∧ a ≠ .beginning) : Within Resting (onLink (Link.perform a)) := by
  refine resting_onLink (fun l => ⟨_, Link.did_perform ha hc.1 l, fun d hd => ?_⟩) fun l h => ?_
  · rw [Link.deed] at hd
    split at hd
    · rw [List.mem_singleton.mp hd]
      exact hc.2
    · cases hd
  · rw [Link.isConnected, show (after (Link.perform a) l).channel = l.channel from
      Link.sameChannel_perform a l] at h
    exact h

theorem resting_receive (timeout byteTimeout : Nat) :
    Within Resting (onLink (Link.receive timeout byteTimeout)) := by
  refine resting_onLink (fun l => ⟨[], Link.did_receive timeout byteTimeout l, nofun⟩) fun l h => ?_
  rcases hc : l.channel with _ | c
  · rw [after, Link.receive, hc] at h
    exact h
  · rw [Link.isConnected, hc]
    rfl

/-- A stream that is connected has its transmitter off. -/
theorem resting_connect (debug : Bool) (deadline : Option Nat) :
    Within Resting (onLink (Link.connect .request debug deadline)) := by
  intro s
  rw [after_onLink]
  rcases Link.did_connect .request debug deadline s.link with
    ⟨hdid, framing, present, hattached⟩ | ⟨succeeded, hdid, hsucceeded⟩
  · refine resting_of_did hdid fun before hbefore =>
      hbefore.withLink hdid (fun _ => nofun) fun _ => ?_
    exact not_transmitting_append (hbefore.not_transmitting (by rw [hattached]; rfl)) nofun
  · have hconnecting : ∀ d ∈ [(⟨.connecting, succeeded⟩ : Deed)], d.action ≠ .beginning := by
      simp
    refine resting_of_did hdid fun before hbefore =>
      hbefore.withLink hdid (fun _ => hconnecting) fun hc => ?_
    by_cases hmet : resultOf (Link.connect .request debug deadline) s.link = .ok true
    · rw [transmitting_concat, hsucceeded.mpr hmet]
      rintro (h | ⟨-, h⟩)
      · cases h
      · exact h (.inr rfl)
    · have hspares := Link.spares_of_connect _ _ _ hmet
      refine not_transmitting_append (hbefore.off ?_) hconnecting
      by_contra hnot
      rw [Bool.not_eq_true, Link.isConnected, Option.isSome_eq_false_iff,
        Option.isNone_iff_eq_none] at hnot
      rw [Link.isConnected, hspares.channel_eq_none hnot] at hc
      cases hc

theorem resting_recover (e : Error) : Within Resting (recover e) :=
  within_recover resting_dropChannel (resting_perform rfl (by decide))
    (resting_perform rfl (by decide)) resting_sleep e

/-- When a reply has been sent the transmitter is off again. -/
theorem resting_of_sent {reply : Message} (h : onLink (Link.send reply) s = .ok () s') :
    Resting s s' := by
  rcases hsend : Link.send reply s.link with ⟨_, l⟩ | ⟨e, l⟩ <;> rw [onLink, hsend] at h <;> cases h
  rcases hdoes : s.link.transport.kind.does .beginning with _ | _
  · have hdid := (Link.did_send reply s.link).of_ok hsend
    rw [hdoes, if_neg Bool.false_ne_true] at hdid
    refine resting_of_did hdid fun before hbefore => ?_
    rw [List.append_nil]
    exact ⟨fun _ => hbefore.without hdoes, fun _ => hbefore.not_transmitting hdoes⟩
  · have hdid := Link.did_of_send hdoes hsend
    refine resting_of_did hdid fun before hbefore =>
      hbefore.withLink hdid (fun hnone => ?_) fun _ => not_transmitting_concat_off before
    cases hdoes.symm.trans hnone

/-- When a reply cannot be sent the stream is given up first of all. -/
theorem resting_of_unsent {reply : Message} {e : Error}
    (h : onLink (Link.send reply) s = .error e s') : Resting s (after (recover e) s') := by
  obtain ⟨l, hsend, rfl⟩ := of_onLink_error h
  obtain ⟨left, hrecover, -⟩ := recover_eq e { s with link := l }
  have hdropped : l.Did [] { l with channel := none } := .of_same rfl rfl rfl
  have hdid := ((Link.did_send reply s.link).of_error hsend).trans hdropped
  rw [List.append_nil] at hdid
  have hdrop : Resting s { s with link := { l with channel := none } } := by
    refine resting_of_did hdid fun before hbefore => hbefore.withLink hdid (fun hnone => ?_) nofun
    rw [hnone, if_neg Bool.false_ne_true]
    exact nofun
  rw [after, hrecover, ← after]
  exact IsTrans.trans _ _ _ hdrop (within_setRight (resting_perform rfl (by decide))
    (resting_perform rfl (by decide)) resting_sleep left e s.settings _)

theorem resting_accept (timeout : Nat) : Within Resting (accept timeout) :=
  .bind .get fun _ => resting_connect _ _

theorem resting_dispatch (s : Server) (peer : Peer) (message : Message) :
    Resting s (s.dispatch peer message).2 := by
  have hapart := standsApart_dispatch s peer message
  generalize (s.dispatch peer message).2 = s' at hapart
  intro hs
  obtain ⟨hshuns, added, hadded, hnone⟩ := hapart.shuns _ hs
  have hdid : s.link.Did [] s'.link :=
    ⟨by rw [hapart.transport], added, hadded, by
      rw [hapart.transport, Prospect.follow_of_forall_not_mem hnone]⟩
  refine ⟨by rw [hapart.transport]; exact hshuns, [], hdid, fun before hbefore => ?_⟩
  rw [List.append_nil]
  refine ⟨?_, ?_⟩
  · rw [hapart.transport]
    exact hbefore.without
  · rw [Link.isConnected, hapart.channel]
    exact hbefore.off

theorem resting_poll (timeout : Nat) : Within Resting (poll timeout) :=
  within_poll_of_handle resting_dropChannel resting_recover (resting_accept timeout)
    (fun s => resting_receive timeout s.settings.byteTimeout s)
    (within_handle_of_send resting_dispatch (fun _ _ _ => resting_of_sent)
      fun _ _ _ _ => resting_of_unsent)

theorem resting_polled (timeouts : List Nat) (s : Server) : Resting s (s.polled timeouts) := by
  induction timeouts generalizing s with
  | nil => exact refl s
  | cons timeout rest ih => exact IsTrans.trans _ _ _ (resting_poll timeout s) (ih _)

/-- A server whose transmitter is off at first has it off when it waits for a request. -/
theorem Resting.not_transmitting (h : Resting s s') (hs : s.Shuns s.link.transport.wire.name)
    (hnot : s.link.isConnected = false) (hc : s'.link.isConnected = true) :
    ¬ Transmitting (s.link.deedsUntil s'.link) := by
  obtain ⟨-, deeds, hdid, hoff⟩ := h hs
  have hfirst : Off [] s := ⟨fun _ => nofun, fun h => by rw [hnot] at h; cases h⟩
  rw [hdid.deedsUntil_eq]
  exact (hoff [] hfirst).off hc

end Server

/-! ### Transmissions -/

open Deed

/-- A transmission that begins is ended, on the stream on which it has begun, just when its frame
can be written and flushed. Whether or not it is, no client or server has its transmitter on when it
begins to wait for a frame, and none turns it on while it waits. -/
theorem ended_iff_and_not_transmitting (l : Link) (message : Message) :
    ((after (Link.send message) l).channel = l.channel ∧
        (Ended (l.deedsUntil (after (Link.send message) l)) ↔
          (l.transport.kind.does .beginning = true → l.transport.wire.allows .beginning = true →
            l.transport.wire.allows .writing = true ∧ l.transport.wire.allows .flushing = true))) ∧
      (∀ timeout byteTimeout, l.deedsUntil (after (Link.receive timeout byteTimeout) l) = []) ∧
      (∀ (s : Account) (unit : UnitId) (request : Request) (p : Client.Pending),
        s.Reach → resultOf (Client.submit unit request) s.client = .ok p →
          ¬ Transmitting (s.run (Client.submit unit request)).deeds) ∧
      ∀ (s : Server) (timeouts : List Nat) (timeout : Nat),
        s.Shuns s.link.transport.wire.name → s.link.isConnected = false →
          let s' := s.polled timeouts
          (s'.link.isConnected = true → ¬ Transmitting (s.link.deedsUntil s'.link)) ∧
            (resultOf (Server.accept timeout) s' = .ok true →
              ¬ Transmitting (s.link.deedsUntil (after (Server.accept timeout) s').link)) := by
  refine ⟨⟨Link.sameChannel_send message l, Link.ended_deedsUntil_send_iff message l⟩,
    fun timeout byteTimeout => ?_, fun s unit request p => Account.not_transmitting_submit,
    fun s timeouts timeout hs hnot => ?_⟩
  · exact (Link.did_receive timeout byteTimeout l).deedsUntil_eq
  · have hpolled := Server.resting_polled timeouts s
    refine ⟨hpolled.not_transmitting hs hnot, fun haccept => ?_⟩
    have haccepted := IsTrans.trans _ _ _ hpolled (Server.resting_accept timeout _)
    obtain ⟨⟨c, hchannel, -⟩, -⟩ := Server.accept_spec (run_of_resultOf haccept)
    refine haccepted.not_transmitting hs hnot ?_
    rw [Link.isConnected, hchannel]
    rfl

/-- The end of a transmission may fail. A frame that cannot be written leaves the transmitter of a
client on until the next request, and it makes a server give up its stream. -/
theorem ended_iff_and_not_transmitting_brokenPipe :
    let failing := fun (a : Action) (name : String) => { Wire.quiet name with
      faults := fun b => if b = a then [some .brokenPipe] else [] }
    let l : Link := .ofTransport ⟨.hooked .tcp false 0, failing .ending "line"⟩
    let message : Message := ⟨.tcp 1 ⟨7⟩, .request, [3, 0, 0, 0, 1]⟩
    let request : Request := .readHoldingRegisters 0 1
    let start : Account :=
      ⟨.ofTransport ⟨.hooked .rtu false 0, failing .writing "client"⟩ .standard true, []⟩
    let failed := start.run (Client.call ⟨7⟩ request)
    let wire := { failing .writing "server" with
      arrivals := [.bytes [0, 2, 0, 0, 0, 2, 77, 0x41]]
      meetings := [.peer .inProcess, .peer .inProcess] }
    let settings := { LinkSettings.standard with recovery := true }
    let s := { Server.ofTransport ⟨.hooked .tcp true 0, wire⟩ settings with isOpen := true }
    let again := s.polled [100]
    (l.transport.kind.does .beginning = true ∧ l.transport.wire.allows .beginning = true ∧
        Ended (l.deedsUntil (after (Link.send message) l))) ∧
      (failed.Reach ∧ Transmitting failed.deeds ∧
        resultOf (Client.submit ⟨7⟩ request) failed.client = .ok ⟨.rtu ⟨7⟩, request⟩ ∧
          ¬ Transmitting (failed.run (Client.submit ⟨7⟩ request)).deeds) ∧
      s.Shuns s.link.transport.wire.name ∧ s.link.isConnected = false ∧
        s.link.deedsUntil again.link =
            [⟨.connecting, true⟩, ⟨.beginning, true⟩, ⟨.closing, true⟩, ⟨.opening, true⟩] ∧
          resultOf (Server.accept 100) again = .ok true ∧
            ¬ Transmitting (s.link.deedsUntil (after (Server.accept 100) again).link) := by
  intro failing l message request start failed wire settings s again
  obtain ⟨⟨-, hended⟩, -, hclient, hserver⟩ := ended_iff_and_not_transmitting l message
  have hreach : failed.Reach := .call _ _ (.start _ _ _)
  have hdeeds : failed.deeds = [⟨.opening, true⟩, ⟨.connecting, true⟩, ⟨.beginning, true⟩] := by
    decide +kernel
  have hon : Transmitting failed.deeds :=
    ⟨[⟨.opening, true⟩, ⟨.connecting, true⟩], [], hdeeds, nofun⟩
  have hsubmit : resultOf (Client.submit ⟨7⟩ request) failed.client = .ok ⟨.rtu ⟨7⟩, request⟩ := rfl
  have hshuns : s.Shuns s.link.transport.wire.name := by
    rintro client ⟨⟩
  have haccept : resultOf (Server.accept 100) again = .ok true := rfl
  refine ⟨⟨rfl, rfl, hended.mpr fun _ _ => ⟨rfl, rfl⟩⟩, ⟨hreach, hon, hsubmit, ?_⟩,
    hshuns, rfl, by decide +kernel, haccept, ?_⟩
  · exact hclient failed ⟨7⟩ request _ hreach hsubmit
  · exact (hserver s [100] 100 hshuns rfl).2 haccept

/-- When the write of a request fails, the transmission that has begun is not ended, and the client
keeps the stream with its transmitter on. -/
theorem not_ended_brokenPipe :
    let wire := { Wire.quiet "client" with
      faults := fun a => if a = .writing then [some .brokenPipe] else [] }
    let start : Account := ⟨.ofTransport ⟨.hooked .rtu false 0, wire⟩ .standard true, []⟩
    let s := start.run (Client.call ⟨7⟩ (.readHoldingRegisters 0 1))
    s.Reach ∧ s.client.isConnected = true ∧ ¬ Ended s.deeds ∧ Transmitting s.deeds := by
  intro wire start s
  have hdeeds : s.deeds = [⟨.opening, true⟩, ⟨.connecting, true⟩] ++ [⟨.beginning, true⟩] := by
    decide +kernel
  refine ⟨.call _ _ (.start _ _ _), rfl, fun hended => ?_, ⟨_, [], hdeeds, nofun⟩⟩
  obtain ⟨succeeded, rest, hnil⟩ := hended _ _ hdeeds
  cases hnil

end Modbus

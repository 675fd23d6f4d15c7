import Modbus.Proofs.Client.Recovery
import Modbus.Proofs.Link.Ledger

/-! Whether a client releases what it acquires. Whatever fails when a stream is used, shut down or
closed, a transport that is opened is closed before it is opened again, and it is closed when the
client has no stream. Only when it has been opened and no stream could be connected is it left
open. -/

namespace Modbus

namespace Deed

/-- The transport has been opened and has not been closed since then. -/
def Held (deeds : List Deed) : Prop :=
  Since ⟨.opening, true⟩ (fun d => d.action = .closing) deeds

/-- Between two openings that succeed there is a closing. -/
def Alternate (deeds : List Deed) : Prop :=
  ∀ before between later,
    deeds = before ++ ⟨.opening, true⟩ :: (between ++ ⟨.opening, true⟩ :: later) →
      ∃ d ∈ between, d.action = .closing

/-- Each time a stream was to be connected, one was. -/
def AllMet (deeds : List Deed) : Prop := ∀ d ∈ deeds, d.action = .connecting → d.succeeded = true

/-- The deed opens, closes and connects nothing. -/
def IsNeutral (d : Deed) : Prop :=
  d ≠ ⟨.opening, true⟩ ∧ d.action ≠ .closing ∧ d.action ≠ .connecting

variable {deeds deeds' : List Deed} {d : Deed} {connected : Bool}

theorem held_concat :
    Held (deeds ++ [d]) ↔ d = ⟨.opening, true⟩ ∨ Held deeds ∧ d.action ≠ .closing :=
  since_concat

theorem alternate_concat :
    Alternate (deeds ++ [d]) ↔ Alternate deeds ∧ (d = ⟨.opening, true⟩ → ¬ Held deeds) := by
  constructor
  · intro h
    refine ⟨fun before between later hdeeds => ?_, ?_⟩
    · exact h before between (later ++ [d]) (by simp [hdeeds])
    · rintro rfl ⟨before, later, rfl, hnone⟩
      obtain ⟨d, hd, hclosing⟩ := h before later [] (by simp)
      exact hnone d hd hclosing
  · rintro ⟨hdeeds, hheld⟩ before between later h
    rcases of_concat_eq h with ⟨-, -, hnil⟩ | ⟨rest, hlater, hrest⟩
    · exact (List.append_ne_nil_of_right_ne_nil _ (List.cons_ne_nil _ _) hnil).elim
    · rcases of_concat_eq hlater.symm with ⟨hbetween, hopens, -⟩ | ⟨rest', -, hbetween⟩
      · by_contra hnone
        simp only [not_exists, not_and] at hnone
        exact hheld hopens ⟨before, rest, hrest, hbetween ▸ hnone⟩
      · exact hdeeds before between rest' (by rw [hrest, hbetween])

theorem allMet_concat :
    AllMet (deeds ++ [d]) ↔ AllMet deeds ∧ (d.action = .connecting → d.succeeded = true) := by
  simp only [AllMet, List.forall_mem_append, List.forall_mem_singleton]

/-- Whether a client has a stream or not, its transport is held just when it has one, if each time a
stream was to be connected one was; otherwise it is or was opened in vain. -/
def Settled (deeds : List Deed) (connected : Bool) : Prop :=
  AllMet deeds ∧ Alternate deeds ∧ (Held deeds ↔ connected = true) ∨
    ¬ AllMet deeds ∧ (Alternate deeds → Held deeds ∧ connected = false)

theorem alternate_of_forall (h : ∀ d ∈ deeds, d.action ≠ .opening) : Alternate deeds := by
  rintro before between later rfl
  exact (h _ (List.mem_append_right _ List.mem_cons_self) rfl).elim

theorem not_held_of_forall (h : ∀ d ∈ deeds, d.action ≠ .opening) : ¬ Held deeds := by
  refine not_since_of_forall fun d hd => ?_
  rintro rfl
  exact h _ hd rfl

theorem settled_nil : Settled [] false := by
  have hnone : ∀ d ∈ ([] : List Deed), d.action ≠ .opening := nofun
  exact .inl ⟨nofun, alternate_of_forall hnone, fun h => (not_held_of_forall hnone h).elim, nofun⟩

theorem Settled.concat_neutral (h : Settled deeds connected) (hd : d.IsNeutral) :
    Settled (deeds ++ [d]) connected := by
  obtain ⟨hopens, hcloses, hconnects⟩ := hd
  rw [Settled] at h
  rw [Settled, held_concat, alternate_concat, allMet_concat]
  simpa only [hopens, hcloses, hconnects, false_or, ne_eq, not_false_eq_true, and_true,
    false_implies] using h

theorem Settled.append_neutral (h : Settled deeds connected) (h' : ∀ d ∈ deeds', d.IsNeutral) :
    Settled (deeds ++ deeds') connected := by
  induction deeds' generalizing deeds with
  | nil =>
    rw [List.append_nil]
    exact h
  | cons d deeds' ih =>
    rw [List.forall_mem_cons] at h'
    rw [List.append_cons]
    exact ih (h.concat_neutral h'.1) h'.2

theorem Settled.balanced_iff (h : Settled deeds connected) :
    Alternate deeds ∧ (connected = false → ¬ Held deeds) ↔ AllMet deeds := by
  rcases h with ⟨hmet, halternate, hheld⟩ | ⟨hmet, hvain⟩
  · refine ⟨fun _ => hmet, fun _ => ⟨halternate, fun hnot h => ?_⟩⟩
    rw [hheld.mp h] at hnot
    cases hnot
  · refine ⟨fun ⟨halternate, hreleased⟩ => ?_, fun h => (hmet h).elim⟩
    obtain ⟨hheld, hnot⟩ := hvain halternate
    exact (hreleased hnot hheld).elim

end Deed

namespace Client

/-- What a client does to its transport on the way from having a stream, or none, to having one or
none. -/
inductive Moves : Bool → List Deed → Bool → Prop where
  | stay {connected : Bool} {deeds : List Deed} (h : ∀ d ∈ deeds, d.IsNeutral) :
    Moves connected deeds connected
  | connected : Moves false [⟨.opening, true⟩, ⟨.connecting, true⟩] true
  | unmet : Moves false [⟨.opening, true⟩, ⟨.connecting, false⟩] false
  | closed {succeeded : Bool} : Moves true [⟨.closing, succeeded⟩] false
  | trans {connected connected' connected'' : Bool} {deeds deeds' : List Deed}
    (h : Moves connected deeds connected') (h' : Moves connected' deeds' connected'') :
    Moves connected (deeds ++ deeds') connected''

open Deed

theorem Moves.settled {connected connected' : Bool} {deeds before : List Deed}
    (h : Moves connected deeds connected') (hs : Settled before connected) :
    Settled (before ++ deeds) connected' := by
  induction h generalizing before with
  | stay h => exact hs.append_neutral h
  | trans h h' ih ih' =>
    rw [← List.append_assoc]
    exact ih' (ih hs)
  | connected =>
    rw [List.append_cons, Settled, held_concat, held_concat, alternate_concat, alternate_concat,
      allMet_concat, allMet_concat]
    rcases hs with ⟨hmet, halternate, hheld⟩ | ⟨hmet, hvain⟩
    · refine .inl ⟨⟨⟨hmet, nofun⟩, fun _ => rfl⟩, ⟨⟨halternate, ?_⟩, nofun⟩, ?_⟩
      · exact fun _ h => Bool.false_ne_true (hheld.mp h)
      · exact ⟨fun _ => rfl, fun _ => .inr ⟨.inl rfl, by decide⟩⟩
    · refine .inr ⟨fun h => hmet h.1.1, fun h => ?_⟩
      exact (h.1.2 rfl (hvain h.1.1).1).elim
  | unmet =>
    rw [List.append_cons, Settled, held_concat, held_concat, alternate_concat, alternate_concat,
      allMet_concat, allMet_concat]
    refine .inr ⟨fun h => Bool.false_ne_true (h.2 rfl), fun _ => ⟨.inr ⟨.inl rfl, by decide⟩, rfl⟩⟩
  | closed =>
    rw [Settled, held_concat, alternate_concat, allMet_concat]
    rcases hs with ⟨hmet, halternate, -⟩ | ⟨hmet, hvain⟩
    · refine .inl ⟨⟨hmet, nofun⟩, ⟨halternate, nofun⟩, ?_, nofun⟩
      rintro (h | ⟨-, h⟩)
      · cases h
      · exact (h rfl).elim
    · refine .inr ⟨fun h => hmet h.1, fun h => ?_⟩
      cases (hvain h.1).2

end Client

/-! ### Using a stream -/

namespace Link

/-- The link `l'` comes from `l` by work that has used the stream, if there is one, and has kept
it. -/
structure Uses (l l' : Link) : Prop where
  touching : Touching [.beginning, .ending] id l l'
  isConnected : l'.isConnected = l.isConnected

instance : IsPreorder Link Uses where
  refl l := ⟨refl l, rfl⟩
  trans l l' l'' h h' :=
    ⟨IsTrans.trans l l' l'' h.touching h'.touching, h'.isConnected.trans h.isConnected⟩

theorem hooks_sub (w : Wire) : ∀ d ∈ hooks w, d.action ∈ [Action.beginning, .ending] := by
  rw [hooks]
  split
  · split <;> simp
  · simp

theorem uses_send (message : Message) : Within Uses (send message) := by
  intro l
  refine ⟨⟨_, fun d hd => ?_, did_send message l⟩, ?_⟩
  · split at hd
    · exact hooks_sub _ d hd
    · cases hd
  · rw [isConnected, isConnected, show _ = _ from sameChannel_send message l]

theorem uses_clearBuffer : Within Uses clearBuffer :=
  .modify fun l => ⟨Did.touching (.of_same rfl rfl rfl), by
    simp only [isConnected, Option.isSome_map]⟩

theorem uses_receive (timeout byteTimeout : Nat) : Within Uses (receive timeout byteTimeout) := by
  intro l
  refine ⟨(did_receive timeout byteTimeout l).touching, ?_⟩
  rcases hc : l.channel with _ | c
  · rw [after, receive, hc]
  · rw [after_receive hc, isConnected, isConnected, hc]
    rfl

end Link

namespace Client

open Deed

variable {c c' : Client} {unit : UnitId} {request : Request}

/-- On a transport that takes part in opening, the client `c'` comes from `c` by moves. -/
def Moving (c c' : Client) : Prop :=
  c.link.transport.kind.does .opening = true →
    ∃ deeds, c.link.Did deeds c'.link ∧ Moves c.isConnected deeds c'.isConnected

instance : IsPreorder Client Moving where
  refl c _ := ⟨[], .refl c.link, .stay nofun⟩
  trans c c' c'' h h' hdoes := by
    obtain ⟨deeds, hdid, hmoves⟩ := h hdoes
    obtain ⟨deeds', hdid', hmoves'⟩ := h' (by rw [hdid.does, hdoes])
    exact ⟨deeds ++ deeds', hdid.trans hdid', hmoves.trans hmoves'⟩

theorem moving_of_uses (h : c.link.Uses c'.link) : Moving c c' := by
  intro _
  obtain ⟨deeds, hactions, hdid⟩ := h.touching
  have hconnected : c'.isConnected = c.isConnected := h.isConnected
  refine ⟨deeds, hdid, hconnected ▸ .stay fun d hd => ?_⟩
  have haction : d.action = .beginning ∨ d.action = .ending := by
    simpa only [List.mem_cons, List.not_mem_nil, or_false] using hactions d hd
  refine ⟨?_, ?_, ?_⟩
  · rintro rfl
    rcases haction with h | h <;> cases h
  all_goals rcases haction with h | h <;> rw [h] <;> decide

theorem moving_onLink {α : Type} {work : LinkM α} (h : Within Link.Uses work) :
    Within Moving (onLink work) :=
  fun c => moving_of_uses (by rw [after_onLink]; exact h c.link)

theorem moving_exchange (unit : UnitId) (request : Request) (broadcast : Bool) :
    Within Moving (exchange unit request broadcast) := by
  have hheader : Within Moving (nextHeader unit) := fun c => by
    obtain ⟨header, transaction, hheader⟩ := run_nextHeader unit c
    rw [after, hheader]
    exact moving_of_uses (refl c.link)
  have hdispatch : ∀ header, Within Moving (dispatch request header) := by
    intro header
    rw [dispatch]
    split
    · exact .throw _
    · exact .bind (moving_onLink Link.uses_clearBuffer) fun _ =>
        .bind (moving_onLink (Link.uses_send _)) fun _ => .pure _
  have hcollect : ∀ p, Within Moving (collect p) := by
    intro p
    refine .bind .get fun c => .bind (moving_onLink (Link.uses_receive _ _)) fun message => ?_
    split
    · exact .pure _
    · exact .throw _
  refine .bind hheader fun header => .bind (hdispatch header) fun p => ?_
  split
  · exact within_unanswered request
  · exact hcollect p

/-! ### Connecting and disconnecting -/

/-- What comes of connecting: the transport is not opened, or no stream is connected, or one is. -/
theorem connect_cases (h : c.isConnected = false) :
    (∃ e l, Link.openTransport c.link = .error e l ∧ connect c = .error e { c with link := l }) ∨
    ∃ l, Link.openTransport c.link = .ok () l ∧
      ((∃ e, resultOf (Link.connect .response c.settings.debug none) l ≠ .ok true ∧
          connect c = .error e
            { c with link := after (Link.connect .response c.settings.debug none) l }) ∨
        ∃ l', Link.connect .response c.settings.debug none l = .ok true l' ∧
          connect c = .ok () { c with link := l', reconnectAt := none }) := by
  have hconnect : connect c = (onLink Link.openTransport >>= fun _ =>
      onLink (Link.connect .response c.settings.debug none) >>= fun connected => do
        unless connected do throw (.transport .disconnected)
        modify fun c => { c with reconnectAt := none }) c := by
    rw [connect, run_get_bind, if_neg (Bool.not_eq_true _ ▸ h)]
  rcases hopen : Link.openTransport c.link with ⟨_, l⟩ | ⟨e, l⟩
  · refine .inr ⟨l, rfl, ?_⟩
    rw [hconnect, run_bind (run_onLink hopen), resultOf, after]
    rcases hpeer : Link.connect .response c.settings.debug none l with ⟨_ | _, l'⟩ | ⟨e, l'⟩
    · rw [run_bind (run_onLink hpeer)]
      exact .inl ⟨_, by rintro ⟨⟩, rfl⟩
    · rw [run_bind (run_onLink hpeer)]
      exact .inr ⟨l', rfl, rfl⟩
    · rw [run_bind_of_error (run_onLink_of_error hpeer)]
      exact .inl ⟨e, by rintro ⟨⟩, rfl⟩
  · exact .inl ⟨e, l, rfl, by rw [hconnect, run_bind_of_error (run_onLink_of_error hopen)]⟩

theorem isConnected_of_sameChannel {l : Link} (h : c.link.SameChannel l) :
    l.isConnected = c.isConnected := by
  rw [isConnected, Link.isConnected, Link.isConnected, show _ = _ from h]

/-- A client without a stream opens its transport, and if that succeeds it tries to connect one. -/
theorem moving_connect : Within Moving connect := by
  intro c hdoes
  rcases hconnected : c.isConnected with _ | _
  · have hopen : c.link.Did (c.link.deed .opening) (after Link.openTransport c.link) :=
      Link.did_perform rfl (by decide) c.link
    have hsame : c.link.SameChannel (after Link.openTransport c.link) :=
      Link.sameChannel_perform .opening c.link
    rw [Link.deed, hdoes, if_pos rfl, after] at hopen
    rw [after] at hsame
    rcases connect_cases hconnected with
      ⟨e, l, hrun, hconnect⟩ | ⟨l, hrun, hrest⟩ <;> rw [hrun] at hopen hsame
    · rw [(Link.not_allows_of_perform_error hrun).2] at hopen
      rw [after, hconnect]
      refine ⟨_, hopen, ?_⟩
      show Moves false _ l.isConnected
      rw [isConnected_of_sameChannel hsame, hconnected]
      exact .stay (by simp [IsNeutral])
    · have hnone : l.channel = none := by
        have hl := (isConnected_of_sameChannel hsame).trans hconnected
        exact Option.isSome_eq_false_iff.mp hl |> Option.isNone_iff_eq_none.mp
      rw [Link.allows_of_perform hdoes hrun] at hopen
      rcases Link.did_connect .response c.settings.debug none l with
        ⟨-, framing, present, hattached⟩ | ⟨succeeded, hdid, hsucceeded⟩
      · rw [show c.link.transport.kind.does = _ from hopen.does.symm, hattached] at hdoes
        cases hdoes
      · rcases hrest with ⟨e, hfailed, hconnect⟩ | ⟨l', hpeer, hconnect⟩
        · have hspares := Link.spares_of_connect _ _ _ hfailed
          rw [after, hconnect]
          refine ⟨_, hopen.trans hdid, ?_⟩
          show Moves false _ (after (Link.connect .response c.settings.debug none) l).isConnected
          rw [Link.isConnected, hspares.channel_eq_none hnone,
            Bool.eq_false_iff.mpr fun h => hfailed (hsucceeded.mp h)]
          exact .unmet
        · obtain ⟨peer, hchannel, -⟩ := Link.connect_spec hpeer
          rw [after, hpeer] at hdid
          rw [after, hconnect]
          refine ⟨_, hopen.trans hdid, ?_⟩
          show Moves false _ l'.isConnected
          rw [Link.isConnected, hchannel, hsucceeded.mpr (by rw [resultOf, hpeer])]
          exact .connected
  · have hconnect : connect c = .ok () c := by
      rw [connect, run_get_bind, hconnected]
      rfl
    rw [after, hconnect, hconnected]
    exact ⟨[], .refl c.link, .stay nofun⟩

theorem moving_ensureConnected : Within Moving ensureConnected := by
  intro c
  rcases hconnected : c.isConnected with _ | _
  · obtain ⟨t, hdue⟩ := whenDue_spec c
    have hwait : Moving c c.whenDue := moving_of_uses
      ⟨Link.Did.touching (by rw [hdue]; exact .of_same rfl rfl rfl), by rw [hdue]; rfl⟩
    rw [after, ensureConnected_of_not_isConnected hconnected, ← after]
    exact IsTrans.trans _ _ _ hwait (moving_connect c.whenDue)
  · rw [after, ensureConnected_of_isConnected hconnected]
    exact refl c

/-- Disconnecting gives up the stream, tries to shut it down, and then tries to close the
transport. -/
theorem link_after_disconnect (h : c.isConnected = true) : (after disconnect c).link =
    after Link.closeTransport (after Link.shutdown { c.link with channel := none }) := by
  let dropped : Client := { c with link := { c.link with channel := none } }
  let ended : Client := { dropped with link := after Link.shutdown dropped.link }
  have hdrop : onLink Link.dropChannel c = .ok ⟨⟩ dropped := rfl
  have hended := run_outcome_eq (onLink Link.shutdown) dropped
  rw [after_onLink] at hended
  rw [after, disconnect, run_get_bind, if_pos h, run_bind hdrop, run_bind hended]
  show _ = after Link.closeTransport ended.link
  rcases hclose : Link.closeTransport ended.link with ⟨_, l⟩ | ⟨e, l⟩
  · have hrun : onLink Link.closeTransport ended = .ok () { ended with link := l } :=
      run_onLink hclose
    rw [run_bind hrun, after, hclose]
    rcases resultOf (onLink Link.shutdown) dropped with e | _ <;> rfl
  · have hrun : onLink Link.closeTransport ended = .error e { ended with link := l } :=
      run_onLink_of_error hclose
    rw [run_bind_of_error hrun, after, hclose]

/-- A client with a stream gives it up and closes its transport, whatever fails. -/
theorem moving_disconnect : Within Moving disconnect := by
  intro c hdoes
  have hend := isConnected_after_disconnect c
  rcases hconnected : c.isConnected with _ | _
  · have hdisconnect : disconnect c = .ok () c := by
      rw [disconnect, run_get_bind, if_neg (Bool.not_eq_true _ ▸ hconnected)]
      rfl
    rw [hend, after, hdisconnect]
    exact ⟨[], .refl c.link, .stay nofun⟩
  · have hall : ∀ a, c.link.transport.kind.does a = true := by
      rcases hkind : c.link.transport.kind with _ | _ | _ | _ <;> rw [hkind] at hdoes
      case hooked => exact fun a => by cases a <;> rfl
      all_goals cases hdoes
    have hdrop : c.link.Did [] { c.link with channel := none } := .of_same rfl rfl rfl
    have hshut := Link.did_perform (a := .shutdown) rfl (by decide) { c.link with channel := none }
    have hclose := Link.did_perform (a := .closing) rfl (by decide)
      (after Link.shutdown { c.link with channel := none })
    have hdoes' : (after Link.shutdown { c.link with channel := none }).transport.kind.does =
        c.link.transport.kind.does := hshut.does
    rw [Link.deed, hdoes', hall, if_pos rfl] at hclose
    rw [Link.deed, hall, if_pos rfl] at hshut
    rw [hend, link_after_disconnect hconnected]
    refine ⟨_, (hdrop.trans hshut).trans hclose, .trans (.stay ?_) .closed⟩
    simp [IsNeutral]

theorem moving_recover (e : Error) : Within Moving (recover e) := by
  intro c
  rw [after_recover]
  split
  · have hpostponed : Moving (after disconnect c) (after disconnect c).postponed :=
      moving_of_uses ⟨Link.Did.touching (.of_same rfl rfl rfl), rfl⟩
    exact IsTrans.trans _ _ _ (moving_disconnect c) hpostponed
  · exact refl c

/-- A call connects a stream, if there is none, and uses it; after a failure it may disconnect. -/
theorem moving_call (unit : UnitId) (request : Request) : Within Moving (call unit request) := by
  intro c
  rcases hpermit : c.permit unit request with e | _
  · rw [after, call_of_permit_error hpermit]
    exact refl c
  · have hwork : Moving c (after (transact unit request) c) := by
      rw [after, transact_eq, ← after]
      exact (moving_ensureConnected.bind fun _ => moving_exchange unit request _) c
    rw [after, call_of_permit hpermit, recovering_eq]
    rw [after] at hwork
    rcases htransact : transact unit request c with ⟨answer, c₁⟩ | ⟨e, c₁⟩ <;>
      rw [htransact] at hwork
    · exact hwork
    · exact IsTrans.trans _ _ _ hwork (moving_recover e c₁)

end Client

/-! ### Runs of a client -/

/-- A client, and what has been done to its transport so far. -/
structure Account where
  client : Client
  deeds : List Deed

namespace Account

open Client (call connect disconnect)
open Deed

/-- The account after work of the client, with what the record tells of it. -/
def run {α : Type} (work : ClientM α) (s : Account) : Account :=
  ⟨after work s.client, s.deeds ++ s.client.link.deedsUntil (after work s.client).link⟩

/-- The account of a client after any operations. Between them, what is to come of the wire and
what will fail changes as time goes on, and the record may be read and cleared. -/
inductive Reach : Account → Prop where
  | start (transport : Transport) (settings : LinkSettings) (pduAddressing : Bool) :
    Reach ⟨.ofTransport transport settings pduAddressing, []⟩
  | call {s : Account} (unit : UnitId) (request : Request) :
    Reach s → Reach (s.run (call unit request))
  | connect {s : Account} : Reach s → Reach (s.run connect)
  | disconnect {s : Account} : Reach s → Reach (s.run disconnect)
  | world {s : Account} (wire : Wire) (journal : Journal) : Reach s →
    Reach { s with client.link.transport.wire := wire, client.link.journal := journal }

variable {s : Account}

/-- Between two successful openings of the transport there is a closing, and a client without a
stream has closed it. -/
structure Balanced (s : Account) : Prop where
  alternate : Alternate s.deeds
  released : s.client.isConnected = false → ¬ Held s.deeds

/-- Nothing has been done that the transport takes no part in. -/
def Undone (s : Account) : Prop :=
  ∀ a, s.client.link.transport.kind.does a = false → ∀ d ∈ s.deeds, d.action ≠ a

section

variable {α : Type} {work : ClientM α}
  (hlogs : Within (fun c c' : Client => c.link.Logs c'.link) work)
include hlogs

theorem does_run (s : Account) :
    (s.run work).client.link.transport.kind.does = s.client.link.transport.kind.does :=
  (show s.client.link.Logs _ from hlogs s.client).does

theorem Undone.run (h : s.Undone) : (s.run work).Undone := by
  intro a hdoes
  rw [does_run hlogs] at hdoes
  have hlog : s.client.link.Logs (after work s.client).link := hlogs s.client
  obtain ⟨added, hadded, htells⟩ := hlog.entries
  have hnone : ∀ wire, Entry.did wire a ∉ added := by
    intro wire hmem
    rw [(htells _ hmem).2] at hdoes
    cases hdoes
  rw [Account.run, Link.deedsUntil, hadded, List.drop_left]
  exact List.forall_mem_append.mpr ⟨h a hdoes, Prospect.action_ne_of_mem_follow _ hnone⟩

end

/-- What holds of the deeds of an account. -/
structure Good (s : Account) : Prop where
  settled : s.client.link.transport.kind.does .opening = true →
    Settled s.deeds s.client.isConnected
  undone : s.Undone

theorem Good.run {α : Type} {work : ClientM α} (h : s.Good) (hmoving : Within Client.Moving work)
    (hlogs : Within (fun c c' : Client => c.link.Logs c'.link) work) : (s.run work).Good := by
  refine ⟨fun hdoes => ?_, h.undone.run hlogs⟩
  rw [does_run hlogs] at hdoes
  obtain ⟨deeds, hdid, hmoves⟩ := hmoving s.client hdoes
  rw [Account.run, hdid.deedsUntil_eq]
  exact hmoves.settled (h.settled hdoes)

theorem Reach.good (h : s.Reach) : s.Good := by
  induction h with
  | start => exact ⟨fun _ => settled_nil, fun _ _ => nofun⟩
  | call unit request _ ih =>
    exact ih.run (Client.moving_call unit request)
      (Client.within_call Client.spans_logs (fun c _ => refl c.link) unit request)
  | connect _ ih =>
    exact ih.run Client.moving_connect (Client.within_connect Client.spans_logs)
  | disconnect _ ih =>
    exact ih.run Client.moving_disconnect (Client.within_disconnect Client.spans_logs)
  | world wire journal _ ih => exact ⟨ih.settled, ih.undone⟩

/-- After any operations, whatever has failed in them, the openings and closings of a transport are
balanced just when no stream was to be connected in vain. If the transport takes no part in opening
they always are. -/
theorem balanced_iff_of_reach (h : s.Reach) :
    (s.client.link.transport.kind.does .opening = true → (s.Balanced ↔ AllMet s.deeds)) ∧
      (s.client.link.transport.kind.does .opening = false → s.Balanced) := by
  have hgood := h.good
  refine ⟨fun hdoes => ?_, fun hdoes => ?_⟩
  · rw [← (hgood.settled hdoes).balanced_iff]
    exact ⟨fun hbalanced => ⟨hbalanced.alternate, hbalanced.released⟩, fun h => ⟨h.1, h.2⟩⟩
  · have hnone := hgood.undone .opening hdoes
    exact ⟨alternate_of_forall hnone, fun _ => not_held_of_forall hnone⟩

/-- The transport cannot be opened at first. Later nobody answers, and neither shutting down the
stream nor closing the transport succeeds. -/
theorem balanced_iff_of_reach_timeout :
    let faults : Action → List (Option FaultKind) := fun a =>
      match a with
      | .opening => [some .addrInUse]
      | .shutdown => [some .brokenPipe]
      | .closing => [some .other]
      | _ => []
    let transport : Transport := ⟨.hooked .tcp false 0, { Wire.quiet "client" with faults }⟩
    let settings := { LinkSettings.standard with recovery := true }
    let start : Account := ⟨.ofTransport transport settings true, []⟩
    let s := (((start.run connect).run connect).run
      (call ⟨7⟩ (.readHoldingRegisters 0 1))).run connect
    let deeds : List Deed := [⟨.opening, false⟩, ⟨.opening, true⟩, ⟨.connecting, true⟩,
      ⟨.beginning, true⟩, ⟨.ending, true⟩, ⟨.shutdown, false⟩, ⟨.closing, false⟩, ⟨.opening, true⟩,
      ⟨.connecting, true⟩]
    (s.Reach ∧ s.client.link.transport.kind.does .opening = true ∧ s.deeds = deeds) ∧
      s.Balanced := by
  intro faults transport settings start s deeds
  have hreach : s.Reach := .connect (.call _ _ (.connect (.connect (.start _ _ _))))
  have hdeeds : s.deeds = deeds := by decide +kernel
  have hmet : AllMet s.deeds := by
    rw [hdeeds, AllMet]
    decide
  exact ⟨⟨hreach, rfl, hdeeds⟩, ((balanced_iff_of_reach hreach).1 rfl).mpr hmet⟩

/-- A transport that has been opened is not closed when the peer refuses, and it is opened again for
the next attempt. -/
theorem not_balanced_refused :
    let wire := { Wire.quiet "client" with meetings := [.refused .connectionRefused] }
    let start : Account := ⟨.ofTransport ⟨.hooked .tcp false 0, wire⟩ .standard true, []⟩
    let refused := start.run connect
    let again := refused.run connect
    (refused.Reach ∧ again.Reach) ∧ (refused.client.isConnected = false ∧ Held refused.deeds) ∧
      ¬ Alternate again.deeds := by
  intro wire start refused again
  have hreach : refused.Reach := .connect (.start _ _ _)
  have hrefused : refused.deeds = [⟨.opening, true⟩, ⟨.connecting, false⟩] := by decide +kernel
  have hagain : again.deeds = [⟨.opening, true⟩, ⟨.connecting, false⟩, ⟨.opening, true⟩,
    ⟨.connecting, true⟩] := by decide +kernel
  refine ⟨⟨hreach, .connect hreach⟩, ⟨rfl, [], [⟨.connecting, false⟩], hrefused, by decide⟩, ?_⟩
  intro halternate
  have hclosing := halternate [] [⟨.connecting, false⟩] [⟨.connecting, true⟩] hagain
  revert hclosing
  decide

end Account

end Modbus

import Modbus.Proofs.Router.Moves

/-! Starting and stopping a router. Both come down to moves that are made one after the other: a
start takes back those that it has made when one fails, and a stop goes on. -/

namespace Modbus

namespace Router

variable {r : Router}

/-! ### Connecting and disconnecting -/

theorem perform_connect (hr : r.IsSound) {n : String × ClientId} (hn : n ∈ r.names) :
    perform (.connect n.1) r = onClient SharedClient.connect n.2 r := by
  rw [perform, onNamed, hr.clientId? hn]

theorem perform_disconnect (hr : r.IsSound) {n : String × ClientId} (hn : n ∈ r.names) :
    perform (.disconnect n.1) r = onClient SharedClient.disconnect n.2 r := by
  rw [perform, onNamed, hr.clientId? hn]

theorem outcome_of_perform {m : Move} {work : RouterM Unit} (h : perform m r = work r) :
    outcome work r = .ok (resultOf (perform m) r) (after (perform m) r) := by
  rw [outcome, ← h, ← outcome, run_outcome_eq]

/-- Connected clients are disconnected one after the other, whatever comes of it. -/
theorem run_undoing (hr : r.IsSound) {ns : List (String × ClientId)} (hns : ns ⊆ r.names) :
    ∃ made r', (ns.map (·.2)).forM
        (fun id => discard (outcome (onClient SharedClient.disconnect id))) r = .ok ⟨⟩ r' ∧
      r.Makes made r' ∧ made.map (·.1) = ns.map fun n => .disconnect n.1 := by
  induction ns generalizing r with
  | nil => exact ⟨[], r, rfl, .nil, rfl⟩
  | cons n rest ih =>
    obtain ⟨hn, hrest⟩ := List.cons_subset.mp hns
    have hmove := run_outcome_eq (perform (.disconnect n.1)) r
    obtain ⟨-, hnames, hr'⟩ := status_after_perform hr (.disconnect n.1)
    obtain ⟨made, r', hrun, hmade, hmoves⟩ := ih hr' (hnames ▸ hrest)
    refine ⟨_, r', ?_, .cons hmove hmade, by rw [List.map_cons, hmoves, List.map_cons]⟩
    have hdisconnect := outcome_of_perform (perform_disconnect hr hn)
    rw [List.map_cons, List.forM, run_bind (run_discard hdisconnect)]
    exact hrun

/-- The first of the errors, if there is one. -/
def firstError : List (Except Error Unit) → Except Error Unit
  | [] => .ok ()
  | .ok () :: rest => firstError rest
  | .error e :: _ => .error e

/-- All clients are disconnected, whatever comes of it. -/
theorem disconnectAll_spec (hr : r.IsSound) {ns : List (String × ClientId)} (hns : ns ⊆ r.names)
    (first : Except Error Unit) :
    ∃ made, r.Makes made (after (disconnectAll first (ns.map (·.2))) r) ∧
      made.map (·.1) = (ns.map fun n => .disconnect n.1) ∧
      resultOf (disconnectAll first (ns.map (·.2))) r = firstError (first :: made.map (·.2)) := by
  induction ns generalizing r first with
  | nil => rcases first with e | _ <;> exact ⟨[], .nil, rfl, rfl⟩
  | cons n rest ih =>
    obtain ⟨hn, hrest⟩ := List.cons_subset.mp hns
    have hmove := run_outcome_eq (perform (.disconnect n.1)) r
    obtain ⟨-, hnames, hr'⟩ := status_after_perform hr (.disconnect n.1)
    have hdisconnect := outcome_of_perform (perform_disconnect hr hn)
    rw [List.map_cons, disconnectAll, after_bind hdisconnect, resultOf_bind hdisconnect]
    rcases first with e | _
    · obtain ⟨made, hmade, hmoves, hresult⟩ := ih hr' (hnames ▸ hrest) (.error e)
      exact ⟨_, .cons hmove hmade, by rw [List.map_cons, hmoves, List.map_cons], hresult⟩
    · obtain ⟨made, hmade, hmoves, hresult⟩ := ih hr' (hnames ▸ hrest)
        (resultOf (perform (.disconnect n.1)) r)
      exact ⟨_, .cons hmove hmade, by rw [List.map_cons, hmoves, List.map_cons], hresult⟩

/-- Clients are connected one after the other until one fails; then those that have been connected
are disconnected, and no other is touched. -/
theorem connectAll_spec (hr : r.IsSound) {done ns : List (String × ClientId)}
    (hdone : done ⊆ r.names) (hns : ns ⊆ r.names) :
    let work := connectAll (done.map (·.2)) (ns.map (·.2))
    resultOf work r = .ok () ∧ r.Makes (connecting (ns.map (·.1))) (after work r) ∨
      ∃ e front n back undone, ns = front ++ n :: back ∧ resultOf work r = .error e ∧
        undone.map (·.1) = ((done ++ front).map fun n => .disconnect n.1) ∧
        r.Makes (connecting (front.map (·.1)) ++ (.connect n.1, .error e) :: undone)
          (after work r) := by
  induction ns generalizing r done with
  | nil => exact .inl ⟨rfl, .nil⟩
  | cons n rest ih =>
    intro work
    obtain ⟨hn, hrest⟩ := List.cons_subset.mp hns
    have hmove := run_outcome_eq (perform (.connect n.1)) r
    obtain ⟨-, hnames, hr'⟩ := status_after_perform hr (.connect n.1)
    have hconnect := outcome_of_perform (perform_connect hr hn)
    have hwork : work = connectAll (done.map (·.2)) (n.2 :: rest.map (·.2)) := rfl
    rw [hwork, connectAll, after_bind hconnect, resultOf_bind hconnect]
    rcases hfirst : resultOf (perform (.connect n.1)) r with e | _ <;> rw [hfirst] at hmove
    · obtain ⟨undone, r', hrun, hundone, hmoves⟩ := run_undoing hr' (hnames ▸ hdone)
      dsimp only
      rw [after_bind hrun, resultOf_bind hrun]
      exact .inr ⟨e, [], n, rest, undone, rfl, rfl, by rw [hmoves, List.append_nil],
        .cons hmove hundone⟩
    · have hdone' : done ++ [n] ⊆ r.names :=
        List.append_subset.mpr ⟨hdone, List.cons_subset.mpr ⟨hn, List.nil_subset _⟩⟩
      have hall := ih hr' (hnames ▸ hdone') (hnames ▸ hrest)
      rw [List.map_append, List.map_cons, List.map_nil] at hall
      rcases hall with ⟨hresult, hmade⟩ | ⟨e, front, n', back, undone, rfl, hresult, hmoves, hmade⟩
      · exact .inl ⟨hresult, .cons hmove hmade⟩
      · refine .inr ⟨e, n :: front, n', back, undone, rfl, hresult, ?_, .cons hmove hmade⟩
        rw [hmoves, List.append_assoc, List.cons_append, List.nil_append]

/-! ### Starting and stopping -/

/-- The moves of a start, if all of them succeed. -/
def plan (r : Router) : List Move := r.clientNames.map .connect ++ [.openServer]

/-- What is left of a start when the clients are connected. -/
def startServer (ids : List ClientId) : RouterM Unit := do
  match ← outcome (onServer Server.start) with
  | .ok () => return
  | .error e =>
    ids.forM fun id => discard (outcome (onClient SharedClient.disconnect id))
    throw e

theorem startServer_spec (hr : r.IsSound) {ns : List (String × ClientId)} (hns : ns ⊆ r.names) :
    let work := startServer (ns.map (·.2))
    resultOf work r = .ok () ∧ r.Makes [(.openServer, .ok ())] (after work r) ∨
      ∃ e undone, resultOf work r = .error e ∧
        undone.map (·.1) = (ns.map fun n => .disconnect n.1) ∧
        r.Makes ((.openServer, .error e) :: undone) (after work r) := by
  intro work
  have hmove := run_outcome_eq (perform .openServer) r
  obtain ⟨-, hnames, hr'⟩ := status_after_perform hr .openServer
  have hopen : outcome (onServer Server.start) r =
      .ok (resultOf (perform .openServer) r) (after (perform .openServer) r) :=
    outcome_of_perform rfl
  have hwork : work = startServer (ns.map (·.2)) := rfl
  rw [hwork, startServer, after_bind hopen, resultOf_bind hopen]
  rcases hfirst : resultOf (perform .openServer) r with e | _ <;> rw [hfirst] at hmove
  · obtain ⟨undone, r', hrun, hundone, hmoves⟩ := run_undoing hr' (hnames ▸ hns)
    dsimp only
    rw [after_bind hrun, resultOf_bind hrun]
    exact .inr ⟨e, undone, rfl, hmoves, .cons hmove hundone⟩
  · exact .inl ⟨rfl, .cons hmove .nil⟩

/-- A start makes one move after the other until one fails; then the clients that have been
connected are disconnected, and nothing else is done. -/
theorem start_spec (hr : r.IsSound) :
    resultOf start r = .ok () ∧
        r.Makes (connecting r.clientNames ++ [(.openServer, .ok ())]) (after start r) ∨
      ∃ e front m back undone, resultOf start r = .error e ∧
        r.plan = front.map Move.connect ++ m :: back ∧
        undone.map (·.1) = front.map Move.disconnect ∧
        r.Makes (connecting front ++ (m, .error e) :: undone) (after start r) := by
  have hstart : start r =
      (connectAll [] (r.names.map (·.2)) >>= fun _ => startServer (r.names.map (·.2))) r := rfl
  have hconnect := connectAll_spec hr (List.nil_subset _) (List.Subset.refl r.names)
  rw [List.map_nil] at hconnect
  rcases hconnect with
    ⟨hresult, hmade⟩ | ⟨e, front, n, back, undone, hnames, hresult, hmoves, hmade⟩
  · have hrun := run_of_resultOf hresult
    obtain ⟨-, hnames, hr'⟩ := hmade.status hr
    have hall : r.names ⊆ (after (connectAll [] (r.names.map (·.2))) r).names := by
      rw [hnames]
      exact List.Subset.refl _
    rw [after, resultOf, hstart, ← after, ← resultOf, after_bind hrun, resultOf_bind hrun]
    rcases startServer_spec hr' hall with ⟨hresult, hopened⟩ | ⟨e, undone, hresult, hmoves, hfailed⟩
    · exact .inl ⟨hresult, hmade.append hopened⟩
    · refine .inr ⟨e, r.clientNames, .openServer, [], undone, hresult, rfl, ?_,
        hmade.append hfailed⟩
      rw [hmoves, clientNames, List.map_map]
      rfl
  · have hrun := run_of_resultOf_error hresult
    rw [after, resultOf, hstart, run_bind_of_error hrun]
    refine .inr ⟨e, front.map (·.1), .connect n.1,
      (back.map fun n => .connect n.1) ++ [.openServer], undone, rfl, ?_, ?_, hmade⟩
    · rw [plan, clientNames, hnames, List.map_map, List.map_append, List.map_cons, List.map_map,
        List.append_assoc, List.cons_append]
      rfl
    · rw [hmoves, List.nil_append, List.map_map]
      rfl

theorem IsSound.start (hr : r.IsSound) :
    (after Router.start r).names = r.names ∧ (after Router.start r).IsSound := by
  rcases start_spec hr with ⟨-, hmade⟩ | ⟨e, front, m, back, undone, -, -, -, hmade⟩
  · exact (hmade.status hr).2
  · exact (hmade.status hr).2

/-- A stop closes the server and disconnects every client, whatever comes of it. -/
theorem stop_spec (hr : r.IsSound) :
    ∃ made, r.Makes made (after stop r) ∧
      made.map (·.1) = .closeServer :: r.clientNames.map .disconnect ∧
      resultOf stop r = firstError (made.map (·.2)) := by
  have hmove := run_outcome_eq (perform .closeServer) r
  obtain ⟨-, hnames, hr'⟩ := status_after_perform hr .closeServer
  have hstop : stop r = disconnectAll (resultOf (perform .closeServer) r) (r.names.map (·.2))
      (after (perform .closeServer) r) := by
    have hclose : outcome (onServer Server.stop) r =
        .ok (resultOf (perform .closeServer) r) (after (perform .closeServer) r) :=
      outcome_of_perform rfl
    rw [stop, run_bind hclose, run_get_bind, hnames]
  have hall : r.names ⊆ (after (perform .closeServer) r).names := fun n hn => hnames ▸ hn
  obtain ⟨made, hmade, hmoves, hresult⟩ := disconnectAll_spec hr' hall
    (resultOf (perform .closeServer) r)
  rw [after, resultOf, hstop, ← after, ← resultOf]
  refine ⟨_, .cons hmove hmade, ?_, hresult⟩
  rw [List.map_cons, hmoves, clientNames, List.map_map]
  rfl

theorem IsSound.stop (hr : r.IsSound) :
    (after Router.stop r).names = r.names ∧ (after Router.stop r).IsSound := by
  obtain ⟨made, hmade, -⟩ := stop_spec hr
  exact (hmade.status hr).2

theorem firstError_eq_ok_iff {results : List (Except Error Unit)} :
    firstError results = .ok () ↔ ∀ result ∈ results, result = .ok () := by
  induction results with
  | nil => exact ⟨fun _ _ => nofun, fun _ => rfl⟩
  | cons result rest ih =>
    rw [List.forall_mem_cons]
    rcases result with e | _
    · exact ⟨nofun, fun h => nomatch h.1⟩
    · rw [firstError, ih]
      exact ⟨fun h => ⟨rfl, h⟩, fun h => h.2⟩

namespace Status

variable {s : Status} {name : String} {names : List String} {b : Bool}
  {undone : List (Move × Except Error Unit)}

theorem isOpen_settle_start (s : Status) (names : List String) :
    ((connecting names ++ [(Move.openServer, Except.ok ())]).foldl settle s).isOpen = true := by
  rw [List.foldl_append, List.foldl_cons, List.foldl_nil]
  exact Bool.or_true _

theorem connected?_settle_start (hs : s.connected? name = some b) (hname : name ∈ names) :
    ((connecting names ++ [(Move.openServer, Except.ok ())]).foldl settle s).connected? name =
      some true := by
  rw [List.foldl_append, List.foldl_cons, List.foldl_nil, settle_connecting]
  have hconnected := connected?_foldl_mark hs true names
  rw [if_pos hname] at hconnected
  exact hconnected

/-- A move that fails connects nobody. -/
theorem settle_error (hs : s.connected? name = some b) (m : Move) (e : Error) :
    ∃ b', (s.settle (m, .error e)).connected? name = some b' ∧ (b' = true → b = true) := by
  have hmark : ∀ other, ∃ b', (s.mark false other).connected? name = some b' ∧
      (b' = true → b = true) := by
    intro other
    refine ⟨_, connected?_mark hs false other, ?_⟩
    split
    · nofun
    · exact id
  cases m with
  | connect other | disconnect other => exact hmark other
  | openServer | closeServer => exact ⟨b, hs, id⟩

section

variable (hundone : undone.map (·.1) = names.map Move.disconnect)
include hundone

/-- A failure opens no server. -/
theorem isOpen_settle_failure (hopen : s.isOpen = false) (m : Move) (e : Error) :
    ((connecting names ++ (m, .error e) :: undone).foldl settle s).isOpen = false := by
  have hsame : (names.foldl (mark true) s).isOpen = false :=
    (isOpen_foldl_mark true names s).trans hopen
  rw [List.foldl_append, List.foldl_cons, settle_connecting, settle_disconnects hundone,
    isOpen_foldl_mark]
  cases m with
  | connect other | disconnect other => exact hsame
  | openServer =>
    show ((names.foldl (mark true) s).isOpen || false) = false
    rw [hsame]
    rfl
  | closeServer => rfl

/-- After a failure nothing is left of the moves that had been made. -/
theorem connected?_settle_failure (hs : s.connected? name = some false) (m : Move) (e : Error) :
    ((connecting names ++ (m, .error e) :: undone).foldl settle s).connected? name =
      some false := by
  have hconnected := connected?_foldl_mark hs true names
  obtain ⟨b, hb, himp⟩ := settle_error hconnected m e
  rw [List.foldl_append, List.foldl_cons, settle_connecting, settle_disconnects hundone,
    connected?_foldl_mark hb false names]
  by_cases hname : name ∈ names
  · rw [if_pos hname]
  · rw [if_neg hname] at himp ⊢
    rw [Bool.eq_false_iff.mpr fun hb => nomatch himp hb]

end

end Status

/-- A router connects its clients in the order of their names and opens its server last. The first
move that fails is what a start fails with, and leaves nothing connected and the server closed. A
stop goes on after failures, and fails with the first. -/
theorem start_and_stop (hr : r.IsSound) :
    (r.AllAre false →
      (resultOf start r = .ok () ∧
        r.Makes (connecting r.clientNames ++ [(.openServer, .ok ())]) (after start r) ∧
        (after start r).AllAre true) ∨
      ∃ e front m back undone, resultOf start r = .error e ∧
        r.plan = front.map Move.connect ++ m :: back ∧
        r.Makes (connecting front ++ (m, .error e) :: undone) (after start r) ∧
        undone.map (·.1) = front.map Move.disconnect ∧ (after start r).AllAre false) ∧
    (∃ made, r.Makes made (after stop r) ∧
      made.map (·.1) = .closeServer :: r.clientNames.map .disconnect ∧
      resultOf stop r = firstError (made.map (·.2)) ∧
      (resultOf stop r = .ok () ↔ ∀ m ∈ made, m.2 = .ok ()) ∧ (after stop r).AllAre false) ∧
    (after start r).names = r.names ∧ (after stop r).names = r.names := by
  obtain ⟨made, hmade, hmoves, hresult⟩ := stop_spec hr
  refine ⟨fun hdown => ?_, ⟨made, hmade, hmoves, hresult, ?_, ?_⟩, hr.start.1, hr.stop.1⟩
  · rcases start_spec hr with
      ⟨hresult, hmade⟩ | ⟨e, front, m, back, undone, hresult, hplan, hundone, hmade⟩
    · exact .inl ⟨hresult, hmade, hmade.allAre hr (Status.isOpen_settle_start _ _) fun name hname =>
        Status.connected?_settle_start (hdown.clients name hname) hname⟩
    · refine .inr ⟨e, front, m, back, undone, hresult, hplan, hmade, hundone,
        hmade.allAre hr (Status.isOpen_settle_failure hundone hdown.server m e)
          fun name hname => ?_⟩
      exact Status.connected?_settle_failure hundone (hdown.clients name hname) m e
  · rw [hresult, firstError_eq_ok_iff, List.forall_mem_map]
  · obtain ⟨⟨m, result⟩, rest, rfl, hm, hrest⟩ := List.map_eq_cons_iff.mp hmoves
    cases hm
    refine hmade.allAre hr ?_ fun name hname => ?_
    · rw [List.foldl_cons, Status.settle_disconnects hrest, Status.isOpen_foldl_mark]
      rfl
    · obtain ⟨b, hb⟩ := exists_connected? hr hname
      rw [List.foldl_cons, Status.settle_disconnects hrest,
        Status.connected?_foldl_mark (b := b) hb, if_pos hname]

/-- The second of two clients is refused, and the first one cannot be disconnected in peace. -/
theorem start_and_stop_refused :
    let first := { Wire.quiet "first" with
      faults := fun a => if a = .shutdown then [some .brokenPipe] else [] }
    let second := { Wire.quiet "second" with meetings := [.refused .connectionRefused] }
    let client := fun wire : Wire =>
      some (SharedClient.linked (.ofTransport ⟨.hooked .tcp false 0, wire⟩ .standard true))
    let r : Router := ⟨{ Server.ofTransport ⟨.hooked .tcp true 0, .quiet "server"⟩ .standard with
      clients := [client first, client second] }, [("first", 0), ("second", 1)]⟩
    (r.IsSound ∧ r.AllAre false) ∧
      (∃ e, resultOf start r = .error e) ∧ (after start r).AllAre false := by
  intro first second client r
  have hsound : r.IsSound := by
    refine ⟨?_, ?_, fun n hn => ?_⟩
    · decide
    · decide
    · obtain rfl | rfl : n = ("first", 0) ∨ n = ("second", 1) := by simpa [r] using hn
      · rfl
      · rfl
  have hdown : r.AllAre false := by
    refine ⟨rfl, fun name hname => ?_⟩
    obtain rfl | rfl : name = "first" ∨ name = "second" := by
      simpa [r, clientNames] using hname
    · have hid : r.clientId? "first" = some 0 := hsound.clientId? List.mem_cons_self
      rw [connected?, hid]
      rfl
    · have hid : r.clientId? "second" = some 1 :=
        hsound.clientId? (List.mem_cons_of_mem _ List.mem_cons_self)
      rw [connected?, hid]
      rfl
  refine ⟨⟨hsound, hdown⟩, ?_⟩
  rcases (start_and_stop hsound).1 hdown with
    ⟨hresult, -⟩ | ⟨e, -, -, -, -, hresult, -, -, -, hend⟩
  · have hfails : (resultOf start r).isOk = false := by decide +kernel
    rw [hresult] at hfails
    cases hfails
  · exact ⟨⟨e, hresult⟩, hend⟩

end Router

end Modbus

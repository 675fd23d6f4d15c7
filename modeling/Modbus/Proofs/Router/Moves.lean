import Modbus.Proofs.Router.Basic

/-! Moves of a router: what is done to its server or to one of its clients. What a move leaves is
told by what it comes to, and so the moves that have been made tell which clients are connected in
the end, and whether the server is open. -/

namespace Modbus

/-- A client is connected if it could connect. -/
theorem Client.isConnected_after_connect (c : Client) :
    (after connect c).isConnected = (resultOf connect c).isOk := by
  rw [after, resultOf]
  rcases hrun : connect c with ⟨_, c'⟩ | ⟨e, c'⟩
  · exact isConnected_of_connect hrun
  · exact isConnected_of_connect_error hrun

namespace Server

theorem after_start (s : Server) :
    (after start s).clients = s.clients ∧
      (after start s).isOpen = (s.isOpen || (resultOf start s).isOk) := by
  rw [after, resultOf, start, run_get_bind]
  rcases hopen : s.isOpen with _ | _
  · rcases hrun : Link.openTransport s.link with ⟨_, l⟩ | ⟨e, l⟩
    · have hopened := run_bind (f := fun _ => modify fun s => { s with isOpen := true })
        (run_onLink hrun)
      simp only [Bool.false_eq_true, if_false, hopened]
      exact ⟨rfl, rfl⟩
    · have herror : onLink Link.openTransport s = .error e { s with link := l } := by
        rw [onLink, hrun]
      simp only [Bool.false_eq_true, if_false]
      rw [run_bind_of_error herror]
      exact ⟨rfl, hopen⟩
  · exact ⟨rfl, hopen⟩

/-- What is left of stopping a server when its stream has ended. -/
def endService (isOpen : Bool) : ServerM Unit := do
  if isOpen then
    modify fun s => { s with isOpen := false }
    onLink Link.closeTransport

theorem after_endService (s : Server) :
    (after (endService s.isOpen) s).clients = s.clients ∧
      (after (endService s.isOpen) s).isOpen = false := by
  rcases hopen : s.isOpen with _ | _
  · exact ⟨rfl, hopen⟩
  · have hclose : after (endService true) s =
        after (onLink Link.closeTransport) { s with isOpen := false } := rfl
    rw [hclose, after_onLink]
    exact ⟨rfl, rfl⟩

theorem after_stop (s : Server) :
    (after stop s).clients = s.clients ∧ (after stop s).isOpen = false := by
  rw [after, stop, run_get_bind]
  dsimp only
  by_cases hconnected : s.link.isConnected = true
  · have hdrop : onLink Link.dropChannel s =
        .ok () { s with link := after Link.dropChannel s.link } := rfl
    rw [if_pos hconnected, run_bind hdrop, run_bind (run_discard (run_outcome_eq _ _)),
      after_onLink]
    exact after_endService { s with link := after Link.shutdown (after Link.dropChannel s.link) }
  · rw [if_neg hconnected]
    exact after_endService s

end Server

namespace Router

/-! ### Moves -/

/-- What is done to the server or to one client when a router is started or stopped. -/
inductive Move where
  | connect (name : String)
  | disconnect (name : String)
  | openServer
  | closeServer

/-- Does what `work` does to the client with this name. -/
def onNamed (work : Journal → SharedClient → Except Error Unit × SharedClient × Journal)
    (name : String) : RouterM Unit := fun r =>
  match r.clientId? name with
  | some id => onClient work id r
  | none => .ok () r

def perform : Move → RouterM Unit
  | .connect name => onNamed SharedClient.connect name
  | .disconnect name => onNamed SharedClient.disconnect name
  | .openServer => onServer Server.start
  | .closeServer => onServer Server.stop

/-- Whether the server is open, and which clients are connected. -/
structure Status where
  isOpen : Bool
  connected? : String → Option Bool

def status (r : Router) : Status := ⟨r.server.isOpen, r.connected?⟩

namespace Status

/-- The status when the client with this name has been connected or has not. -/
def mark (connected : Bool) (s : Status) (name : String) : Status :=
  { s with connected? := fun other =>
      if other = name then (s.connected? other).map fun _ => connected else s.connected? other }

/-- The status after a move, from what it came to. -/
def settle (s : Status) : Move × Except Error Unit → Status
  | (.connect name, result) => s.mark result.isOk name
  | (.disconnect name, _) => s.mark false name
  | (.openServer, result) => { s with isOpen := s.isOpen || result.isOk }
  | (.closeServer, _) => { s with isOpen := false }

end Status

variable {r r' r'' : Router} {name : String} {id : ClientId} {m : Move}
  {made made' : List (Move × Except Error Unit)}

theorem run_onClient {c : Client} (h : r.server.clients.get? id = some (.linked c))
    (work : ClientM Unit) (scripted : ScriptedClient.Work Unit) :
    let c₀ := { c with link := { c.link with journal := r.server.journal } }
    let clients := r.server.clients.put id (.linked (after work c₀))
    let server := { r.server with clients }.withJournal (after work c₀).link.journal
    resultOf (onClient (SharedClient.work work scripted) id) r = resultOf work c₀ ∧
      after (onClient (SharedClient.work work scripted) id) r = { r with server } := by
  intro c₀ clients server
  have hwork := SharedClient.work_linked work scripted r.server.journal c
  rw [after, resultOf, onClient]
  simp only [h, hwork]
  rcases resultOf work c₀ with e | _ <;> exact ⟨rfl, rfl⟩

/-- Work on a client changes whether that client is connected, and nothing else. -/
theorem status_after_onNamed (hr : r.IsSound) {work : ClientM Unit}
    {f : Except Error Unit → Bool} (hwork : ∀ c, (after work c).isConnected = f (resultOf work c))
    (scripted : ScriptedClient.Work Unit) (name : String) :
    let moved := onNamed (SharedClient.work work scripted) name
    (after moved r).status = r.status.mark (f (resultOf moved r)) name ∧
      (after moved r).names = r.names ∧ (after moved r).IsSound := by
  intro moved
  rcases hid : r.clientId? name with _ | id
  · have hrun : moved r = .ok () r := by
      show onNamed _ name r = _
      rw [onNamed, hid]
    rw [after, hrun]
    refine ⟨congrArg (Status.mk _) (funext fun other => ?_), rfl, hr⟩
    show r.connected? other = _
    split
    · rename_i hname
      show _ = (r.connected? other).map _
      rw [hname, connected?, hid]
      rfl
    · rfl
  · have hlinked : (r.server.clients.connected? id).isSome = true :=
      hr.linked (name, id) (mem_names_of_clientId? hid)
    obtain ⟨c, hc⟩ := Clients.exists_of_connected? hlinked
    obtain ⟨hresult, hafter⟩ := run_onClient hc work scripted
    have hrun : moved r = onClient (SharedClient.work work scripted) id r := by
      show onNamed _ name r = _
      rw [onNamed, hid]
    have hmoved : after moved r = after (onClient (SharedClient.work work scripted) id) r := by
      rw [after, hrun, ← after]
    have hsame : resultOf moved r = resultOf (onClient (SharedClient.work work scripted) id) r := by
      rw [resultOf, hrun, ← resultOf]
    rw [hmoved, hsame, hresult, hafter, ← hwork]
    generalize after work _ = c'
    refine ⟨congrArg (Status.mk _) (funext fun other => ?_), rfl, hr.of_keepsClients rfl ?_⟩
    · show (r.clientId? other).bind (r.server.clients.put id (.linked c')).connected? =
        if other = name then (r.connected? other).map fun _ => c'.isConnected
        else r.connected? other
      split
      · rename_i hname
        rw [hname, hid, connected?, hid, Option.bind_some, Option.bind_some,
          Clients.connected?_of_get? (Clients.get?_put hc), Clients.connected?_of_get? hc]
        rfl
      · rename_i hname
        rw [connected?]
        rcases hother : r.clientId? other with _ | id'
        · rfl
        · have hne : id' ≠ id := by
            rintro rfl
            exact hname (hr.eq_of_clientId? hother hid)
          rw [Option.bind_some, Option.bind_some,
            Clients.connected?_congr (Clients.get?_put_of_ne hne)]
    · intro id' hid'
      show ((r.server.clients.put id (.linked c')).connected? id').isSome = true
      by_cases hne : id' = id
      · rw [hne, Clients.connected?_of_get? (Clients.get?_put hc)]
        rfl
      · rw [Clients.connected?_congr (Clients.get?_put_of_ne hne)]
        exact hid'

/-- Work on the server leaves the clients alone. -/
theorem status_after_onServer (hr : r.IsSound) {work : ServerM Unit} {isOpen : Bool}
    (h : (after work r.server).clients = r.server.clients ∧ (after work r.server).isOpen = isOpen) :
    (after (onServer work) r).status = { r.status with isOpen } ∧
      (after (onServer work) r).names = r.names ∧ (after (onServer work) r).IsSound := by
  obtain ⟨hclients, hopen⟩ := h
  rw [after_onServer]
  refine ⟨?_, rfl, hr.of_keepsClients rfl fun id hid => ?_⟩
  · have hconnected : connected? { r with server := after work r.server } = r.connected? := by
      funext name
      show (r.clientId? name).bind (after work r.server).clients.connected? = r.connected? name
      rw [hclients, connected?]
    rw [status, hopen, hconnected, status]
  · rw [hclients]
    exact hid

/-- What a move leaves is told by what it comes to. -/
theorem status_after_perform (hr : r.IsSound) (m : Move) :
    (after (perform m) r).status = r.status.settle (m, resultOf (perform m) r) ∧
      (after (perform m) r).names = r.names ∧ (after (perform m) r).IsSound := by
  have hserver : ∀ work : ServerM Unit, resultOf (onServer work) r = resultOf work r.server := by
    intro work
    rw [resultOf, resultOf, onServer]
    rcases work r.server with ⟨_, s⟩ | ⟨e, s⟩ <;> rfl
  cases m with
  | connect name =>
    exact status_after_onNamed hr Client.isConnected_after_connect ScriptedClient.connect name
  | disconnect name =>
    exact status_after_onNamed (f := fun _ => false) hr Client.isConnected_after_disconnect
      ScriptedClient.disconnect name
  | openServer =>
    rw [Status.settle, perform, hserver]
    exact status_after_onServer hr (Server.after_start r.server)
  | closeServer => exact status_after_onServer hr (Server.after_stop r.server)

/-! ### Runs -/

/-- The moves are made one after the other, whether or not they succeed, and come to these results
on the way from one router to the other. -/
inductive Makes : Router → List (Move × Except Error Unit) → Router → Prop where
  | nil {r : Router} : Makes r [] r
  | cons {r r' r'' : Router} {m : Move} {result : Except Error Unit}
      {made : List (Move × Except Error Unit)} (hmove : outcome (perform m) r = .ok result r')
      (hrest : Makes r' made r'') : Makes r ((m, result) :: made) r''

theorem Makes.append (h : r.Makes made r') (h' : r'.Makes made' r'') :
    r.Makes (made ++ made') r'' := by
  induction h with
  | nil => exact h'
  | cons hmove _ ih => exact .cons hmove (ih h')

/-- What a run leaves is told by the moves that have been made, and by what they came to. -/
theorem Makes.status (h : r.Makes made r') (hr : r.IsSound) :
    r'.status = made.foldl Status.settle r.status ∧ r'.names = r.names ∧ r'.IsSound := by
  induction h with
  | nil => exact ⟨rfl, rfl, hr⟩
  | @cons r r' r'' m result made hmove _ ih =>
    rw [run_outcome_eq] at hmove
    cases hmove
    obtain ⟨hstatus, hnames, hr'⟩ := status_after_perform hr m
    obtain ⟨hrest, hrestNames, hsound⟩ := ih hr'
    refine ⟨?_, hrestNames.trans hnames, hsound⟩
    rw [hrest, hstatus, List.foldl_cons]

/-- Clients are connected one after the other, and none of them fails. -/
def connecting (names : List String) : List (Move × Except Error Unit) :=
  names.map fun name => (.connect name, .ok ())

namespace Status

variable {s : Status} {names : List String} {name : String}

theorem connected?_mark {b : Bool} (h : s.connected? name = some b) (connected : Bool)
    (other : String) :
    (s.mark connected other).connected? name = some (if name = other then connected else b) := by
  show (if name = other then (s.connected? name).map fun _ => connected else s.connected? name) = _
  rw [h]
  split <;> rfl

theorem isOpen_foldl_mark (connected : Bool) (names : List String) (s : Status) :
    (names.foldl (mark connected) s).isOpen = s.isOpen := by
  induction names generalizing s with
  | nil => rfl
  | cons first rest ih =>
    rw [List.foldl_cons, ih]
    rfl

/-- Marking some of the clients tells of them, and of no others. -/
theorem connected?_foldl_mark {b : Bool} (h : s.connected? name = some b) (connected : Bool)
    (names : List String) :
    (names.foldl (mark connected) s).connected? name =
      some (if name ∈ names then connected else b) := by
  induction names generalizing s b with
  | nil => exact h
  | cons first rest ih =>
    rw [List.foldl_cons, ih (connected?_mark h connected first)]
    by_cases hrest : name ∈ rest
    · rw [if_pos hrest, if_pos (List.mem_cons_of_mem _ hrest)]
    · simp only [List.mem_cons, hrest, or_false, if_false]

theorem settle_connecting (s : Status) (names : List String) :
    (connecting names).foldl settle s = names.foldl (mark true) s := by
  rw [connecting, List.foldl_map]
  rfl

theorem settle_disconnects {made : List (Move × Except Error Unit)}
    (h : made.map (·.1) = names.map .disconnect) (s : Status) :
    made.foldl settle s = names.foldl (mark false) s := by
  induction names generalizing made s with
  | nil =>
    rw [List.map_nil, List.map_eq_nil_iff] at h
    rw [h]
    rfl
  | cons name rest ih =>
    obtain ⟨⟨m, result⟩, made, rfl, hm, hrest⟩ := List.map_eq_cons_iff.mp h
    cases hm
    exact ih hrest _

end Status

/-! ### Routers that are up or down -/

/-- The server is open and all clients are connected, or it is not open and none of them is. -/
structure AllAre (up : Bool) (r : Router) : Prop where
  server : r.server.isOpen = up
  clients : ∀ name ∈ r.clientNames, r.connected? name = some up

theorem exists_connected? (hr : r.IsSound) (hname : name ∈ r.clientNames) :
    ∃ b, r.connected? name = some b := by
  obtain ⟨n, hn, rfl⟩ := List.mem_map.mp hname
  obtain ⟨b, hb⟩ := Option.isSome_iff_exists.mp (hr.linked n hn)
  exact ⟨b, by rw [connected?, hr.clientId? hn, Option.bind_some, hb]⟩

/-- What is known of the status of a router at the end of a run is known of the router. -/
theorem Makes.allAre {up : Bool} (h : r.Makes made r') (hr : r.IsSound)
    (hopen : (made.foldl Status.settle r.status).isOpen = up)
    (hclients : ∀ name ∈ r.clientNames,
      (made.foldl Status.settle r.status).connected? name = some up) : r'.AllAre up := by
  obtain ⟨hstatus, hnames, -⟩ := h.status hr
  rw [← hstatus] at hopen hclients
  refine ⟨hopen, fun name hname => hclients name ?_⟩
  rw [clientNames, hnames] at hname
  exact hname

end Router

end Modbus

import Mathlib.Data.List.Nodup
import Modbus.Proofs.Client.Recovery
import Modbus.Proofs.Server.Dispatch
import Modbus.Proofs.Server.Poll
import Modbus.Proofs.Server.Upstream
import Modbus.Router

/-! Routers and the clients that they know by name. A router is sound when its names are in order
and each of them is that of a client of its own. It is so from the beginning, and stays so whatever
is registered and polled. -/

namespace Modbus

/-! ### Clients by their place -/

namespace Clients

variable {cs : Clients} {id id' : ClientId} {client client' : SharedClient}

theorem get?_add (cs : Clients) (client : SharedClient) :
    (cs.add client).2.get? (cs.add client).1 = some client := by
  rw [get?, add, List.getElem?_concat_length, Option.join_some]

theorem get?_add_of_lt (h : id < cs.length) : (cs.add client).2.get? id = cs.get? id := by
  rw [get?, add, List.getElem?_append_left h, get?]

/-- Whether the client at a place is connected, if it is one with a link. -/
def connected? (cs : Clients) (id : ClientId) : Option Bool :=
  match cs.get? id with
  | some (.linked c) => some c.isConnected
  | _ => none

theorem connected?_of_get? {c : Client} (h : cs.get? id = some (.linked c)) :
    cs.connected? id = some c.isConnected := by
  rw [connected?, h]

theorem exists_of_connected? (h : (cs.connected? id).isSome = true) :
    ∃ c, cs.get? id = some (.linked c) := by
  unfold connected? at h
  split at h
  · rename_i c hget
    exact ⟨c, hget⟩
  · cases h

theorem connected?_congr {cs' : Clients} (h : cs'.get? id = cs.get? id) :
    cs'.connected? id = cs.connected? id := by
  rw [connected?, h, connected?]

end Clients

/-- Where there were clients with a link, there still are. -/
def Server.KeepsClients (s s' : Server) : Prop :=
  ∀ id, (s.clients.connected? id).isSome = true → (s'.clients.connected? id).isSome = true

namespace Server

variable {s s' : Server}

instance : IsPreorder Server KeepsClients where
  refl _ _ h := h
  trans _ _ _ h h' id hid := h' id (h id hid)

theorem keepsClients_forward (id : ClientId) (unit : UnitId) (request : Request) (s : Server) :
    KeepsClients s (forward id unit request s).2 := by
  rcases hclient : s.clients.get? id with _ | client
  · have hforward : (forward id unit request s).2 = s := by
      rw [forward, hclient]
    rw [hforward]
    exact refl s
  · intro id' hid'
    have hclients : (forward id unit request s).2.clients =
        s.clients.put id (client.call unit request s.journal).2.1 := by
      rw [forward_of_get? hclient]
      rfl
    rw [hclients]
    by_cases hid : id' = id
    · subst hid
      obtain ⟨c, hc⟩ := Clients.exists_of_connected? hid'
      cases hclient.symm.trans hc
      rw [SharedClient.call, SharedClient.work_linked, Clients.connected?_of_get?
        (Clients.get?_put hclient)]
      rfl
    · rw [Clients.connected?_congr (Clients.get?_put_of_ne hid)]
      exact hid'

theorem spans_keepsClients : Spans KeepsClients := by
  have hlink : ∀ {α : Type} (work : LinkM α), Within KeepsClients (onLink work) := by
    intro α work s
    rw [after_onLink]
    exact fun _ h => h
  refine ⟨hlink _, fun _ => hlink _, fun _ => hlink _, fun _ _ => hlink _, fun _ _ => hlink _,
    fun _ => hlink _, fun s peer message => ?_⟩
  exact related_dispatch (P := fun _ => True)
    (fun _ id unit request s _ _ => keepsClients_forward id unit request s) (fun _ _ _ h => h)
    (fun _ _ _ _ _ h => h) (fun _ _ => trivial) peer message

end Server

namespace Router

variable {r r' : Router} {name name' : String} {id : ClientId}

/-- The names are in ascending order, and each is that of a client of its own, with a link. -/
structure IsSound (r : Router) : Prop where
  sorted : (r.names.map (·.1)).Pairwise (· < ·)
  distinct : (r.names.map (·.2)).Nodup
  linked : ∀ n ∈ r.names, (r.server.clients.connected? n.2).isSome = true

/-- The names of the clients, in ascending order. -/
def clientNames (r : Router) : List String := r.names.map (·.1)

/-- Whether the client with this name is connected, if there is one. -/
def connected? (r : Router) (name : String) : Option Bool :=
  (r.clientId? name).bind r.server.clients.connected?

theorem mem_names_of_clientId? (h : r.clientId? name = some id) : (name, id) ∈ r.names := by
  obtain ⟨n, hn, rfl⟩ := Option.map_eq_some_iff.mp h
  have hfound := List.find?_some hn
  have hname : n.1 = name := eq_of_beq hfound
  rw [← hname]
  exact List.mem_of_find?_eq_some hn

theorem IsSound.clientId? (hr : r.IsSound) (h : (name, id) ∈ r.names) :
    r.clientId? name = some id := by
  have hnodup : (r.names.map (·.1)).Nodup := hr.sorted.imp (R := (· < ·)) <| by
    rintro a b hlt rfl
    exact String.lt_irrefl a hlt
  rcases hfound : r.clientId? name with _ | id'
  · rw [Router.clientId?, Option.map_eq_none_iff, List.find?_eq_none] at hfound
    exact absurd (beq_self_eq_true name) (hfound _ h)
  · have hmem := mem_names_of_clientId? hfound
    have hsame : (name, id') = (name, id) := List.inj_on_of_nodup_map hnodup hmem h rfl
    cases hsame
    rfl

/-- Two names are not those of one client. -/
theorem IsSound.eq_of_clientId? (hr : r.IsSound) (h : r.clientId? name = some id)
    (h' : r.clientId? name' = some id) : name = name' := by
  have hsame := List.inj_on_of_nodup_map hr.distinct (mem_names_of_clientId? h)
    (mem_names_of_clientId? h') rfl
  cases hsame
  rfl

/-! ### What is registered -/

theorem isSound_ofServer (server : Server) : (ofServer server).IsSound :=
  ⟨.nil, .nil, fun _ => nofun⟩

/-- The names stay, and where there were clients with a link, there still are. -/
theorem IsSound.of_keepsClients (hr : r.IsSound) (hnames : r'.names = r.names)
    (h : r.server.KeepsClients r'.server) : r'.IsSound := by
  refine ⟨?_, ?_, fun n hn => ?_⟩
  · rw [hnames]
    exact hr.sorted
  · rw [hnames]
    exact hr.distinct
  · rw [hnames] at hn
    exact h _ (hr.linked n hn)

theorem perm_insertName (name : String) (id : ClientId) (names : List (String × ClientId)) :
    (insertName name id names).Perm ((name, id) :: names) := by
  induction names with
  | nil => exact .refl _
  | cons n rest ih =>
    rw [insertName]
    split
    · exact .refl _
    · exact (ih.cons n).trans (.swap (name, id) n rest)

theorem sorted_insertName {names : List (String × ClientId)}
    (hsorted : (names.map (·.1)).Pairwise (· < ·)) (hname : ∀ n ∈ names, n.1 ≠ name) :
    ((insertName name id names).map (·.1)).Pairwise (· < ·) := by
  induction names with
  | nil => exact List.pairwise_singleton _ _
  | cons n rest ih =>
    obtain ⟨hfirst, hrest⟩ := List.pairwise_cons.mp hsorted
    obtain ⟨hn, hother⟩ := List.forall_mem_cons.mp hname
    rw [insertName]
    split
    · rename_i hlt
      refine List.pairwise_cons.mpr ⟨fun other hmem => ?_, hsorted⟩
      rcases List.mem_cons.mp hmem with rfl | hmem
      · exact hlt
      · exact String.lt_trans hlt (hfirst other hmem)
    · rename_i hge
      refine List.pairwise_cons.mpr ⟨fun other hmem => ?_, ih hrest hother⟩
      have hperm := (perm_insertName name id rest).map (·.1)
      rcases List.mem_cons.mp (hperm.mem_iff.mp hmem) with rfl | hmem
      · exact Std.lt_of_le_of_ne (String.not_lt.mp hge) hn
      · exact hfirst other hmem

theorem IsSound.addClient {c : Client} (hr : r.IsSound)
    (h : r.addClient name (.linked c) = .ok r') : r'.IsSound := by
  rw [Router.addClient] at h
  split at h
  · cases h
  · rename_i hfree
    cases h
    have hlength : ∀ n ∈ r.names, n.2 < r.server.clients.length := by
      intro n hn
      obtain ⟨c', hc'⟩ := Clients.exists_of_connected? (hr.linked n hn)
      exact Clients.lt_length_of_get? hc'
    have hperm := perm_insertName name r.server.clients.length r.names
    refine ⟨sorted_insertName hr.sorted fun n hn hname => ?_, ?_, fun n hn => ?_⟩
    · rw [← hname, hr.clientId? hn] at hfree
      exact hfree rfl
    · refine (hperm.map (·.2)).nodup_iff.mpr (List.nodup_cons.mpr ⟨fun hmem => ?_, hr.distinct⟩)
      obtain ⟨n, hn, hid⟩ := List.mem_map.mp hmem
      exact Nat.ne_of_lt (hlength n hn) hid
    · rcases List.mem_cons.mp (hperm.mem_iff.mp hn) with rfl | hn
      · exact Option.isSome_of_eq_some
          (Clients.connected?_of_get? (Clients.get?_add r.server.clients (.linked c)))
      · show ((r.server.clients.add (.linked c)).2.connected? _).isSome = true
        rw [Clients.connected?_congr (Clients.get?_add_of_lt (hlength n hn))]
        exact hr.linked n hn

theorem IsSound.addLocalDevice {d : Device} (hr : r.IsSound) (h : r.addLocalDevice d = .ok r') :
    r'.IsSound := by
  rcases hadd : r.server.addDevice d with e | server
  · rw [Router.addLocalDevice, hadd] at h
    cases h
  · rw [Router.addLocalDevice, hadd] at h
    cases h
    have hclients : server.clients = r.server.clients := by
      rw [Server.addDevice] at hadd
      split at hadd
      · cases hadd
      · split at hadd <;> cases hadd
        rfl
    refine hr.of_keepsClients rfl fun id hid => ?_
    rw [hclients]
    exact hid

theorem IsSound.addDevice {d : Device} (hr : r.IsSound) (h : r.addDevice d name = .ok r') :
    r'.IsSound := by
  rw [Router.addDevice] at h
  split at h
  · cases h
  · exact hr.addLocalDevice h

theorem IsSound.apply {step : Step} (hr : r.IsSound) (h : r.apply step = .ok r') : r'.IsSound := by
  cases step with
  | device config =>
    rcases hbuild : config.build with e | d <;> rw [Router.apply, hbuild] at h
    · cases h
    · exact hr.addLocalDevice h
  | client config =>
    rcases hclient : config.link.client config.name with e | c <;> rw [Router.apply, hclient] at h
    · cases h
    · exact hr.addClient h
  | gateway config name =>
    rcases hbuild : config.build with e | d <;> rw [Router.apply, hbuild] at h
    · cases h
    · exact hr.addDevice h

theorem IsSound.applyAll (hr : r.IsSound) (steps : List Step) : (r.applyAll steps).2.IsSound := by
  induction steps generalizing r with
  | nil => exact hr
  | cons step rest ih =>
    rw [Router.applyAll]
    split
    · rename_i happly
      exact ih (hr.apply happly)
    · exact hr

theorem after_onServer {α : Type} (work : ServerM α) (r : Router) :
    after (onServer work) r = { r with server := after work r.server } := by
  rw [after, after, onServer]
  rcases work r.server with ⟨a, s⟩ | ⟨e, s⟩ <;> rfl

theorem IsSound.poll (hr : r.IsSound) (timeout : Nat) :
    (after (Router.poll timeout) r).IsSound := by
  rw [Router.poll, after_onServer]
  exact hr.of_keepsClients rfl (Server.within_poll Server.spans_keepsClients timeout r.server)

end Router

end Modbus

import Mathlib.Data.List.Induction
import Modbus.Proofs.Router.Basic
import Modbus.Proofs.Server.Broadcast

/-! Configured routers. The entries of a configuration are registered in order, and an entry offends
when its identifier is not one for devices, when its identifier or its name is taken by an entry
before it, or when its link cannot be built. A router without devices and names takes all entries
up to the first that offends, and nothing else; that none offends can be told from the
configuration as a whole. -/

namespace Modbus

/-- The identifiers of single devices, and that of a device which is connected directly. -/
def UnitId.IsForDevices (u : UnitId) : Prop :=
  1 ≤ u.value.toNat ∧ u.value.toNat ≤ 247 ∨ u.value.toNat = 255

instance (u : UnitId) : Decidable u.IsForDevices := instDecidableOr

theorem UnitId.isRegistrable_iff (u : UnitId) : u.isRegistrable = true ↔ u.IsForDevices := by
  obtain ⟨v⟩ := u
  simp only [isRegistrable, isDevice, minDevice, maxDevice, tcpDevice, IsForDevices,
    Bool.or_eq_true, Bool.and_eq_true, decide_eq_true_eq, beq_iff_eq, UnitId.mk.injEq,
    UInt8.le_iff_toNat_le, ← UInt8.toNat_inj]
  rfl

namespace Config

/-- The devices of a configuration, those of the server before those of its clients. -/
def allDevices (c : Config) : List DeviceConfig := c.devices ++ c.clients.flatMap (·.devices)

/-- Identifiers and names are taken once, identifiers are those of devices, and every client can
be built. -/
structure IsConsistent (c : Config) : Prop where
  units : ∀ d ∈ c.allDevices, d.id.IsForDevices
  distinct_units : (c.allDevices.map (·.id)).Nodup
  distinct_names : (c.clients.map (·.name)).Nodup
  links : ∀ m ∈ c.clients, ∃ client, m.link.client m.name = .ok client

end Config

/-! ### Building and registering -/

namespace DeviceConfig

variable {c : DeviceConfig}

theorem build_of_isForDevices (h : c.id.IsForDevices) :
    ∃ d, c.build = .ok d ∧ d.id = c.id ∧ d.forwardsTo = none := by
  have hdeclared : ∀ (blocks : List BlockConfig) (d : Device),
      let d' := blocks.foldl (fun d b => d.declare b.table b.quantity.toNat b.start) d
      d'.id = d.id ∧ d'.forwardsTo = d.forwardsTo := by
    intro blocks
    induction blocks with
    | nil => exact fun _ => ⟨rfl, rfl⟩
    | cons b blocks ih => exact fun d => ih (d.declare b.table b.quantity.toNat b.start)
  rw [build, if_pos ((UnitId.isRegistrable_iff _).mpr h)]
  exact ⟨_, rfl, hdeclared c.blocks _⟩

theorem build_of_not_isForDevices (h : ¬ c.id.IsForDevices) :
    c.build = .error (.invalidUnit c.id) := by
  rw [build, if_neg (by rwa [UnitId.isRegistrable_iff])]

end DeviceConfig

namespace Server

variable {s : Server} {d : Device}

theorem device?_of_mem (hs : s.HasDistinctUnits) (hd : d ∈ s.devices) :
    s.device? d.id = some d := by
  rcases hfound : s.device? d.id with _ | e
  · rw [device?, List.find?_eq_none] at hfound
    exact absurd (decide_eq_true rfl) (hfound d hd)
  · have hid : e.id = d.id := by
      have htest := List.find?_some hfound
      exact of_decide_eq_true htest
    have hmem : e ∈ s.devices := List.mem_of_find?_eq_some hfound
    rw [List.inj_on_of_nodup_map hs hmem hd hid]

theorem isSome_device?_iff (s : Server) (id : UnitId) :
    (s.device? id).isSome = true ↔ id ∈ s.devices.map (·.id) := by
  rw [device?, List.find?_isSome, List.mem_map]
  simp

theorem addDevice_of_free (h : d.id.IsForDevices) (hfree : d.id ∉ s.devices.map (·.id)) :
    s.addDevice d = .ok { s with devices := insertDevice d s.devices } := by
  rw [addDevice, (UnitId.isRegistrable_iff _).mpr h, Bool.not_true, if_neg (by decide), if_neg]
  rwa [isSome_device?_iff]

theorem addDevice_of_taken (h : d.id.IsForDevices) (htaken : d.id ∈ s.devices.map (·.id)) :
    s.addDevice d = .error (.duplicateUnit d.id) := by
  rw [addDevice, (UnitId.isRegistrable_iff _).mpr h, Bool.not_true, if_neg (by decide), if_pos]
  rwa [isSome_device?_iff]

end Server

namespace Router

/-! ### Entries that offend -/

namespace Step

/-- The identifier that an entry takes. -/
def unit? : Step → Option UnitId
  | .device c | .gateway c _ => some c.id
  | .client _ => none

/-- The name that an entry takes. -/
def name? : Step → Option String
  | .client c => some c.name
  | .device _ | .gateway .. => none

def units (entries : List Step) : List UnitId := entries.filterMap unit?

def names (entries : List Step) : List String := entries.filterMap name?

/-- What is wrong with an entry behind others, if something is. -/
def offence? (before : List Step) : Step → Option ConfigError
  | .device c | .gateway c _ =>
    if ¬ c.id.IsForDevices then some (.invalidUnit c.id)
    else if c.id ∈ units before then some (.duplicateUnit c.id)
    else none
  | .client c =>
    match c.link.client c.name with
    | .error e => some e
    | .ok _ => if c.name ∈ names before then some (.duplicateClient c.name) else none

/-- No entry offends against those before it. -/
inductive Faultless : List Step → Prop
  | nil : Faultless []
  | snoc {before : List Step} {step : Step} : Faultless before → step.offence? before = none →
      Faultless (before ++ [step])

/-- Devices follow the client that they forward to; clients in `known` are there already. -/
def Announced (known : List String) : List Step → Prop
  | [] => True
  | .device _ :: rest => Announced known rest
  | .client c :: rest => Announced (c.name :: known) rest
  | .gateway _ name :: rest => name ∈ known ∧ Announced known rest

end Step

/-! ### Entries as a whole -/

namespace Step

variable {before : List Step} {step : Step} {e : ConfigError}

/-- What `Config.IsConsistent` says, of entries. -/
structure Consistent (entries : List Step) : Prop where
  units : ∀ u ∈ units entries, u.IsForDevices
  distinct_units : (Step.units entries).Nodup
  distinct_names : (names entries).Nodup
  links : ∀ c, .client c ∈ entries → ∃ client, c.link.client c.name = .ok client

theorem units_concat (before : List Step) (step : Step) :
    units (before ++ [step]) = units before ++ step.unit?.toList := by
  rw [units, List.filterMap_append, ← units]
  cases step <;> rfl

theorem names_concat (before : List Step) (step : Step) :
    names (before ++ [step]) = names before ++ step.name?.toList := by
  rw [names, List.filterMap_append, ← names]
  cases step <;> rfl

theorem offence?_eq_none_of_unit? {u : UnitId} (h : step.unit? = some u) :
    step.offence? before = none ↔ u.IsForDevices ∧ u ∉ units before := by
  cases step with
  | client c => cases h
  | device c | gateway c name =>
    cases h
    simp only [offence?]
    split_ifs <;> simp_all

theorem offence?_eq_some_of_unit? {u : UnitId} (h : step.unit? = some u) :
    step.offence? before = some e ↔ (¬ u.IsForDevices ∧ .invalidUnit u = e) ∨
      (u.IsForDevices ∧ u ∈ units before ∧ .duplicateUnit u = e) := by
  cases step with
  | client c => cases h
  | device c | gateway c name =>
    cases h
    simp only [offence?]
    split_ifs <;> simp_all

theorem offence?_client_eq_none {c : ClientConfig} :
    (Step.client c).offence? before = none ↔
      (∃ client, c.link.client c.name = .ok client) ∧ c.name ∉ names before := by
  simp only [offence?]
  split <;> simp_all

theorem offence?_client_eq_some {c : ClientConfig} :
    (Step.client c).offence? before = some e ↔ c.link.client c.name = .error e ∨
      ((∃ client, c.link.client c.name = .ok client) ∧ c.name ∈ names before ∧
        .duplicateClient c.name = e) := by
  simp only [offence?]
  split <;> simp_all

theorem consistent_concat_iff_of_unit? {u : UnitId} (h : step.unit? = some u) :
    Consistent (before ++ [step]) ↔
      Consistent before ∧ u.IsForDevices ∧ u ∉ units before := by
  have hunits : units (before ++ [step]) = units before ++ [u] := by
    rw [units_concat, h, Option.toList_some]
  have hname : step.name? = none := by
    cases step with
    | client c => cases h
    | device c | gateway c name => rfl
  have hnames : names (before ++ [step]) = names before := by
    rw [names_concat, hname, Option.toList_none, List.append_nil]
  have hclient : ∀ c, Step.client c ∈ before ++ [step] ↔ Step.client c ∈ before := by
    intro c
    rw [List.mem_append, List.mem_singleton, or_iff_left]
    rintro rfl
    cases h
  constructor
  · intro hall
    have hdistinct := hall.distinct_units
    rw [hunits, ← List.concat_eq_append, List.nodup_concat] at hdistinct
    refine ⟨⟨fun v hv => ?_, hdistinct.2, hnames ▸ hall.distinct_names, fun c hc => ?_⟩, ?_,
      hdistinct.1⟩
    · exact hall.units v (by rw [hunits]; exact List.mem_append_left _ hv)
    · exact hall.links c ((hclient c).mpr hc)
    · exact hall.units u (by simp [hunits])
  · rintro ⟨hbefore, hu, hfree⟩
    refine ⟨fun v hv => ?_, ?_, ?_, fun c hc => hbefore.links c ((hclient c).mp hc)⟩
    · rw [hunits, List.mem_append, List.mem_singleton] at hv
      rcases hv with hv | rfl
      · exact hbefore.units v hv
      · exact hu
    · rw [hunits, ← List.concat_eq_append, List.nodup_concat]
      exact ⟨hfree, hbefore.distinct_units⟩
    · rw [hnames]
      exact hbefore.distinct_names

theorem consistent_concat_client_iff {c : ClientConfig} :
    Consistent (before ++ [.client c]) ↔ Consistent before ∧
      (∃ client, c.link.client c.name = .ok client) ∧ c.name ∉ names before := by
  have hunits : units (before ++ [.client c]) = units before := by
    rw [units_concat, unit?, Option.toList_none, List.append_nil]
  have hnames : names (before ++ [.client c]) = names before ++ [c.name] := by
    rw [names_concat, name?, Option.toList_some]
  constructor
  · intro hall
    have hdistinct := hall.distinct_names
    rw [hnames, ← List.concat_eq_append, List.nodup_concat] at hdistinct
    refine ⟨⟨hunits ▸ hall.units, hunits ▸ hall.distinct_units, hdistinct.2, fun c' hc' => ?_⟩, ?_,
      hdistinct.1⟩
    · exact hall.links c' (List.mem_append_left _ hc')
    · exact hall.links c (by simp)
  · rintro ⟨hbefore, hlink, hfree⟩
    refine ⟨hunits ▸ hbefore.units, hunits ▸ hbefore.distinct_units, ?_, fun c' hc' => ?_⟩
    · rw [hnames, ← List.concat_eq_append, List.nodup_concat]
      exact ⟨hfree, hbefore.distinct_names⟩
    · rw [List.mem_append, List.mem_singleton] at hc'
      rcases hc' with hc' | hc'
      · exact hbefore.links c' hc'
      · cases hc'
        exact hlink

theorem consistent_concat_iff :
    Consistent (before ++ [step]) ↔ Consistent before ∧ step.offence? before = none := by
  cases step with
  | client c => rw [consistent_concat_client_iff, offence?_client_eq_none]
  | device c | gateway c name =>
    rw [consistent_concat_iff_of_unit? rfl, offence?_eq_none_of_unit? rfl]

theorem faultless_iff (entries : List Step) : Faultless entries ↔ Consistent entries := by
  constructor
  · intro h
    induction h with
    | nil => exact ⟨nofun, .nil, .nil, nofun⟩
    | snoc _ hstep ih => exact consistent_concat_iff.mpr ⟨ih, hstep⟩
  · induction entries using List.reverseRecOn with
    | nil => exact fun _ => .nil
    | append_singleton before step ih =>
      intro h
      obtain ⟨hbefore, hstep⟩ := consistent_concat_iff.mp h
      exact .snoc (ih hbefore) hstep

theorem faultless_concat_iff :
    Faultless (before ++ [step]) ↔ Faultless before ∧ step.offence? before = none := by
  rw [faultless_iff, consistent_concat_iff, faultless_iff]

theorem Faultless.of_append {later : List Step} (h : Faultless (before ++ later)) :
    Faultless before := by
  induction later using List.reverseRecOn with
  | nil => rwa [List.append_nil] at h
  | append_singleton later step ih =>
    rw [← List.append_assoc, faultless_concat_iff] at h
    exact ih h.1

/-! ### The entries of a configuration -/

/-- What is read off the entries of a configuration: first off the devices of the server, then off
each client before its devices. -/
theorem filterMap_steps {α : Type} (f : Step → Option α) (c : Config) :
    (steps c).filterMap f = c.devices.filterMap (fun d => f (.device d)) ++
      c.clients.flatMap fun m => (f (.client m)).toList ++
        m.devices.filterMap fun d => f (.gateway d m.name) := by
  rw [steps, List.filterMap_append, List.filterMap_map, List.filterMap_flatMap]
  congr 2
  funext m
  rw [List.filterMap_cons, List.filterMap_map]
  cases f (.client m) <;> rfl

theorem units_steps (c : Config) : units (steps c) = c.allDevices.map (·.id) := by
  rw [units, filterMap_steps, Config.allDevices, List.map_append, List.map_flatMap]
  simp [unit?]

theorem names_steps (c : Config) : names (steps c) = c.clients.map (·.name) := by
  rw [names, filterMap_steps]
  simp [name?, List.map_eq_flatMap]

theorem client_mem_steps_iff {c : Config} {m : ClientConfig} :
    .client m ∈ steps c ↔ m ∈ c.clients := by
  simp [steps]

theorem device_mem_steps_iff {c : Config} {d : DeviceConfig} :
    .device d ∈ steps c ↔ d ∈ c.devices := by
  simp [steps]

theorem gateway_mem_steps_iff {c : Config} {d : DeviceConfig} {name : String} :
    .gateway d name ∈ steps c ↔ ∃ m ∈ c.clients, d ∈ m.devices ∧ m.name = name := by
  simp [steps]

theorem consistent_steps_iff (c : Config) : Consistent (steps c) ↔ c.IsConsistent := by
  constructor
  · rintro ⟨hunits, hdistinct, hnames, hlinks⟩
    rw [units_steps] at hunits hdistinct
    rw [names_steps] at hnames
    refine ⟨fun d hd => ?_, hdistinct, hnames, fun m hm => ?_⟩
    · exact hunits d.id (List.mem_map_of_mem hd)
    · exact hlinks m (client_mem_steps_iff.mpr hm)
  · intro h
    refine ⟨fun u hu => ?_, ?_, ?_, fun m hm => ?_⟩
    · rw [units_steps] at hu
      obtain ⟨d, hd, rfl⟩ := List.mem_map.mp hu
      exact h.units d hd
    · rw [units_steps]
      exact h.distinct_units
    · rw [names_steps]
      exact h.distinct_names
    · exact h.links m (client_mem_steps_iff.mp hm)

theorem announced_devices (devices : List DeviceConfig) (known : List String) (rest : List Step) :
    Announced known (devices.map .device ++ rest) ↔ Announced known rest := by
  induction devices with
  | nil => rfl
  | cons d devices ih => exact ih

theorem announced_gateways {known : List String} {name : String} (h : name ∈ known)
    (devices : List DeviceConfig) (rest : List Step) :
    Announced known (devices.map (.gateway · name) ++ rest) ↔ Announced known rest := by
  induction devices with
  | nil => rfl
  | cons d devices ih => exact (and_iff_right h).trans ih

theorem announced_steps (c : Config) : Announced [] (steps c) := by
  have hclients : ∀ (clients : List ClientConfig) (known : List String),
      Announced known
        (clients.flatMap fun m => .client m :: m.devices.map (.gateway · m.name)) := by
    intro clients
    induction clients with
    | nil => exact fun _ => trivial
    | cons m rest ih =>
      intro known
      exact (announced_gateways List.mem_cons_self m.devices _).mpr (ih (m.name :: known))
  exact (announced_devices c.devices [] _).mpr (hclients c.clients [])

end Step

/-! ### What is registered -/

variable {server : Server} {r r' : Router} {done : List Step} {step : Step} {e : ConfigError}

/-- What there was is still there. -/
structure Includes (r r' : Router) : Prop where
  devices : ∀ id d, r.server.device? id = some d → r'.server.device? id = some d
  names : ∀ name id, r.clientId? name = some id → r'.clientId? name = some id
  clients : ∀ id client, r.server.clients.get? id = some client →
    r'.server.clients.get? id = some client

/-- An entry is registered: a device as it is built, without a client or with that of its name, and
a client as it is built, under its name. -/
def Has (r : Router) : Step → Prop
  | .device c => ∃ d, c.build = .ok d ∧ d.forwardsTo = none ∧ r.server.device? c.id = some d
  | .gateway c name => ∃ d id, c.build = .ok d ∧ r.clientId? name = some id ∧
      r.server.device? c.id = some { d with forwardsTo := some id }
  | .client c => ∃ client, c.link.client c.name = .ok client ∧
      r.client? c.name = some (.linked client)

/-- A router has been made of a server, and these entries are all that was registered on it. -/
structure Registers (server : Server) (entries : List Step) (r : Router) : Prop where
  has : ∀ step ∈ entries, r.Has step
  units : (r.server.devices.map (·.id)).Perm (Step.units entries)
  distinct_units : r.server.HasDistinctUnits
  names : (r.names.map (·.1)).Perm (Step.names entries)
  /-- The names are in order, and no two of them are those of one client. -/
  sound : r.IsSound
  others : r.server = { server with devices := r.server.devices, clients := r.server.clients }
  clients : ∀ id client, server.clients.get? id = some client →
    r.server.clients.get? id = some client

theorem Has.mono (h : r.Has step) (hr : r.Includes r') : r'.Has step := by
  cases step with
  | device c =>
    obtain ⟨d, hbuild, hlocal, hd⟩ := h
    exact ⟨d, hbuild, hlocal, hr.devices _ _ hd⟩
  | gateway c name =>
    obtain ⟨d, id, hbuild, hid, hd⟩ := h
    exact ⟨d, id, hbuild, hr.names _ _ hid, hr.devices _ _ hd⟩
  | client c =>
    obtain ⟨client, hbuild, hclient⟩ := h
    obtain ⟨id, hid, hget⟩ := Option.bind_eq_some_iff.mp hclient
    refine ⟨client, hbuild, ?_⟩
    rw [client?, hr.names _ _ hid]
    exact hr.clients _ _ hget

theorem registers_ofServer (h : server.devices = []) : Registers server [] (ofServer server) := by
  refine ⟨nofun, ?_, ?_, .nil, isSound_ofServer server, rfl, fun _ _ hget => hget⟩
  · show (server.devices.map (·.id)).Perm []
    rw [h]
    exact .nil
  · show (server.devices.map (·.id)).Nodup
    rw [h]
    exact .nil

namespace Registers

theorem isSome_clientId?_iff (hr : Registers server done r) (name : String) :
    (r.clientId? name).isSome = true ↔ name ∈ Step.names done := by
  rw [← hr.names.mem_iff, clientId?, Option.isSome_map, List.find?_isSome, List.mem_map]
  simp

/-- A device that is not taken yet is registered, and all that was there is still there. -/
theorem addLocalDevice (hr : Registers server done r) {d : Device} (hd : d.id.IsForDevices)
    (hfree : d.id ∉ Step.units done) :
    ∃ r', r.addLocalDevice d = .ok r' ∧ r.Includes r' ∧ r'.server.device? d.id = some d ∧
      (∀ step : Step, step.unit? = some d.id → step.name? = none → r'.Has step →
        Registers server (done ++ [step]) r') := by
  have hnew : d.id ∉ r.server.devices.map (·.id) := by
    rwa [hr.units.mem_iff]
  have hadd := Server.addDevice_of_free hd hnew
  have hdistinct := Server.hasDistinctUnits_of_addDevice hr.distinct_units hadd
  have hperm := Server.perm_insertDevice d r.server.devices
  have hincludes : r.Includes
      { r with server := { r.server with devices := Server.insertDevice d r.server.devices } } := by
    refine ⟨fun id e he => ?_, fun _ _ h => h, fun _ _ h => h⟩
    have hmem : e ∈ r.server.devices := List.mem_of_find?_eq_some he
    have htest := List.find?_some he
    rw [← of_decide_eq_true htest]
    exact Server.device?_of_mem hdistinct (hperm.mem_iff.mpr (List.mem_cons_of_mem d hmem))
  refine ⟨_, ?_, hincludes, ?_, fun step hunit hname hstep => ?_⟩
  · rw [Router.addLocalDevice, hadd]
    rfl
  · exact Server.device?_of_mem hdistinct (hperm.mem_iff.mpr List.mem_cons_self)
  · refine ⟨fun other hother => ?_, ?_, hdistinct, ?_, ?_, ?_, hr.clients⟩
    · rw [List.mem_append, List.mem_singleton] at hother
      rcases hother with hother | rfl
      · exact (hr.has other hother).mono hincludes
      · exact hstep
    · rw [Step.units_concat, hunit]
      refine (hperm.map (·.id)).trans ?_
      exact (hr.units.cons d.id).trans (List.perm_append_singleton _ _).symm
    · rw [Step.names_concat, hname, Option.toList_none, List.append_nil]
      exact hr.names
    · exact hr.sound.of_keepsClients rfl fun _ h => h
    · rw [hr.others]

/-- A client whose name is not taken yet is registered, and all that was there is still there. -/
theorem addClient (hr : Registers server done r) {c : ClientConfig} {client : Client}
    (hbuild : c.link.client c.name = .ok client) (hfree : c.name ∉ Step.names done) :
    ∃ r', r.addClient c.name (.linked client) = .ok r' ∧
      Registers server (done ++ [.client c]) r' := by
  have hnew : (r.clientId? c.name).isSome = false := by
    rw [Bool.eq_false_iff, ne_eq, hr.isSome_clientId?_iff]
    exact hfree
  have hadd : r.addClient c.name (.linked client) = .ok
      { server := { r.server with clients := (r.server.clients.add (.linked client)).2 },
        names := insertName c.name (r.server.clients.add (.linked client)).1 r.names } := by
    rw [Router.addClient, if_neg (by rw [hnew]; decide)]
  have hsound := hr.sound.addClient hadd
  have hperm := perm_insertName c.name (r.server.clients.add (.linked client)).1 r.names
  have hclients : ∀ id other, r.server.clients.get? id = some other →
      (r.server.clients.add (.linked client)).2.get? id = some other := by
    intro id other hget
    rwa [Clients.get?_add_of_lt (Clients.lt_length_of_get? hget)]
  refine ⟨_, hadd, fun other hother => ?_, ?_, hr.distinct_units, ?_, hsound, ?_, fun id other h =>
    hclients id other (hr.clients id other h)⟩
  · rw [List.mem_append, List.mem_singleton] at hother
    rcases hother with hother | rfl
    · refine (hr.has other hother).mono ⟨fun _ _ h => h, fun name id h => ?_, hclients⟩
      exact hsound.clientId? (hperm.mem_iff.mpr
        (List.mem_cons_of_mem _ (mem_names_of_clientId? h)))
    · refine ⟨client, hbuild, ?_⟩
      rw [client?, hsound.clientId? (hperm.mem_iff.mpr List.mem_cons_self)]
      exact Clients.get?_add r.server.clients (.linked client)
  · rw [Step.units_concat, Step.unit?, Option.toList_none, List.append_nil]
    exact hr.units
  · rw [Step.names_concat, Step.name?, Option.toList_some]
    refine (hperm.map (·.1)).trans ?_
    exact (hr.names.cons c.name).trans (List.perm_append_singleton _ _).symm
  · rw [hr.others]

/-- An entry that offends is refused for what is wrong with it. -/
theorem apply_of_offence (hr : Registers server done r)
    (hname : ∀ c name, step = .gateway c name → name ∈ Step.names done)
    (h : step.offence? done = some e) : r.apply step = .error e := by
  have htaken : ∀ d : Device, d.id.IsForDevices → d.id ∈ Step.units done →
      r.addLocalDevice d = .error (.duplicateUnit d.id) := by
    intro d hd hmem
    rw [Router.addLocalDevice, Server.addDevice_of_taken hd (hr.units.mem_iff.mpr hmem)]
    rfl
  cases step with
  | device c =>
    rcases (Step.offence?_eq_some_of_unit? rfl).mp h with ⟨hc, rfl⟩ | ⟨hc, hmem, rfl⟩
    · rw [apply, DeviceConfig.build_of_not_isForDevices hc]
      rfl
    · obtain ⟨d, hbuild, hid, -⟩ := DeviceConfig.build_of_isForDevices hc
      rw [← hid] at hc hmem ⊢
      rw [apply, hbuild]
      exact htaken d hc hmem
  | gateway c name =>
    rcases (Step.offence?_eq_some_of_unit? rfl).mp h with ⟨hc, rfl⟩ | ⟨hc, hmem, rfl⟩
    · rw [apply, DeviceConfig.build_of_not_isForDevices hc]
      rfl
    · obtain ⟨d, hbuild, hid, -⟩ := DeviceConfig.build_of_isForDevices hc
      have hknown := (hr.isSome_clientId?_iff name).mpr (hname c name rfl)
      obtain ⟨id, hclient⟩ := Option.isSome_iff_exists.mp hknown
      rw [← hid] at hc hmem ⊢
      rw [apply, hbuild]
      show r.addDevice d name = _
      rw [addDevice, hclient]
      exact htaken { d with forwardsTo := some id } hc hmem
  | client c =>
    rcases Step.offence?_client_eq_some.mp h with hlink | ⟨⟨client, hlink⟩, hmem, rfl⟩
    · rw [apply, hlink]
      rfl
    · rw [apply, hlink]
      show r.addClient c.name (.linked client) = _
      rw [Router.addClient, if_pos ((hr.isSome_clientId?_iff c.name).mpr hmem)]

/-- An entry that does not offend is registered behind the others. -/
theorem exists_apply (hr : Registers server done r)
    (hname : ∀ c name, step = .gateway c name → name ∈ Step.names done)
    (h : step.offence? done = none) :
    ∃ r', r.apply step = .ok r' ∧ Registers server (done ++ [step]) r' := by
  cases step with
  | device c =>
    obtain ⟨hc, hfree⟩ := (Step.offence?_eq_none_of_unit? rfl).mp h
    obtain ⟨d, hbuild, hid, hlocal⟩ := DeviceConfig.build_of_isForDevices hc
    rw [← hid] at hc hfree
    obtain ⟨r', hadd, -, hd, hregisters⟩ := hr.addLocalDevice hc hfree
    refine ⟨r', ?_, hregisters _ (congrArg some hid.symm) rfl ⟨d, hbuild, hlocal, hid ▸ hd⟩⟩
    rw [apply, hbuild]
    exact hadd
  | gateway c name =>
    obtain ⟨hc, hfree⟩ := (Step.offence?_eq_none_of_unit? rfl).mp h
    obtain ⟨d, hbuild, hid, -⟩ := DeviceConfig.build_of_isForDevices hc
    have hknown := (hr.isSome_clientId?_iff name).mpr (hname c name rfl)
    obtain ⟨id, hclient⟩ := Option.isSome_iff_exists.mp hknown
    rw [← hid] at hc hfree
    obtain ⟨r', hadd, hincludes, hd, hregisters⟩ :=
      hr.addLocalDevice (d := { d with forwardsTo := some id }) hc hfree
    refine ⟨r', ?_, hregisters _ (congrArg some hid.symm) rfl
      ⟨d, id, hbuild, hincludes.names _ _ hclient, hid ▸ hd⟩⟩
    rw [apply, hbuild]
    show r.addDevice d name = _
    rw [addDevice, hclient]
    exact hadd
  | client c =>
    obtain ⟨⟨client, hlink⟩, hfree⟩ := Step.offence?_client_eq_none.mp h
    obtain ⟨r', hadd, hregisters⟩ := hr.addClient hlink hfree
    refine ⟨r', ?_, hregisters⟩
    rw [apply, hlink]
    exact hadd

end Registers

/-- How the registration of entries ends: with all of them, or at the first one that offends, with
those before it. -/
inductive Configures (server : Server) (entries : List Step) :
    Except ConfigError Unit × Router → Prop
  | complete {r : Router} : Step.Faultless entries → Registers server entries r →
      Configures server entries (.ok (), r)
  | stopped {r : Router} {before later : List Step} {step : Step} {e : ConfigError} :
      entries = before ++ step :: later → Step.Faultless before →
      step.offence? before = some e → Registers server before r →
      Configures server entries (.error e, r)

theorem Registers.configures {known : List String} {todo : List Step}
    (hr : Registers server done r) (hdone : Step.Faultless done)
    (hknown : ∀ name ∈ known, name ∈ Step.names done) (htodo : Step.Announced known todo) :
    Configures server (done ++ todo) (r.applyAll todo) := by
  induction todo generalizing r done known with
  | nil =>
    rw [List.append_nil]
    exact .complete hdone hr
  | cons step rest ih =>
    have hname : ∀ c name, step = .gateway c name → name ∈ Step.names done := by
      rintro c name rfl
      exact hknown name htodo.1
    rcases hoffence : step.offence? done with _ | e
    · obtain ⟨r', happly, hr'⟩ := hr.exists_apply hname hoffence
      have hgrown : ∀ name ∈ Step.names done, name ∈ Step.names (done ++ [step]) := by
        intro name h
        rw [Step.names_concat]
        exact List.mem_append_left _ h
      have hrest : Configures server (done ++ [step] ++ rest) (r'.applyAll rest) := by
        cases step with
        | device c => exact ih hr' (.snoc hdone hoffence) (fun n h => hgrown n (hknown n h)) htodo
        | gateway c name =>
          exact ih hr' (.snoc hdone hoffence) (fun n h => hgrown n (hknown n h)) htodo.2
        | client c =>
          refine ih hr' (.snoc hdone hoffence) (fun n h => ?_) htodo
          rcases List.mem_cons.mp h with rfl | h
          · simp [Step.names_concat, Step.name?]
          · exact hgrown n (hknown n h)
      rw [applyAll, happly]
      rwa [List.append_assoc, List.singleton_append] at hrest
    · rw [applyAll, hr.apply_of_offence hname hoffence]
      exact .stopped rfl hdone hoffence hr

theorem Configures.result_eq_ok_iff {entries : List Step} {out : Except ConfigError Unit × Router}
    (h : Configures server entries out) : out.1 = .ok () ↔ Step.Faultless entries := by
  cases h with
  | complete hfaultless _ => exact iff_of_true rfl hfaultless
  | @stopped r before later step e hentries _ hoffence _ =>
    refine iff_of_false nofun fun hfaultless => ?_
    rw [hentries, ← List.singleton_append, ← List.append_assoc] at hfaultless
    obtain ⟨-, hnone⟩ := Step.faultless_concat_iff.mp hfaultless.of_append
    cases hnone.symm.trans hoffence

/-- Every device and every client of a configuration is there as it is built, and nothing else is:
devices of the server have no client, and those of a client forward to it. -/
structure Realizes (r : Router) (c : Config) : Prop where
  devices : ∀ d ∈ c.devices, ∃ device, d.build = .ok device ∧ device.forwardsTo = none ∧
    r.server.device? d.id = some device
  clients : ∀ m ∈ c.clients, ∃ client id, m.link.client m.name = .ok client ∧
    r.clientId? m.name = some id ∧ r.server.clients.get? id = some (.linked client) ∧
    ∀ d ∈ m.devices, ∃ device, d.build = .ok device ∧
      r.server.device? d.id = some { device with forwardsTo := some id }
  units : (r.server.devices.map (·.id)).Perm (c.allDevices.map (·.id))
  names : (r.names.map (·.1)).Perm (c.clients.map (·.name))

theorem Registers.realizes {c : Config} (hr : Registers server (steps c) r) : r.Realizes c where
  devices d hd := hr.has _ (Step.device_mem_steps_iff.mpr hd)
  clients m hm := by
    obtain ⟨client, hlink, hclient⟩ := hr.has _ (Step.client_mem_steps_iff.mpr hm)
    obtain ⟨id, hid, hget⟩ := Option.bind_eq_some_iff.mp hclient
    refine ⟨client, id, hlink, hid, hget, fun d hd => ?_⟩
    have hgateway := hr.has _ (Step.gateway_mem_steps_iff.mpr ⟨m, hm, hd, rfl⟩)
    obtain ⟨device, id', hbuild, hid', hdevice⟩ := hgateway
    cases hid.symm.trans hid'
    exact ⟨device, hbuild, hdevice⟩
  units := Step.units_steps c ▸ hr.units
  names := Step.names_steps c ▸ hr.names

/-- A configuration is accepted exactly when it is consistent, and then all that it describes is
there. Otherwise registration ends with what is wrong with the first entry that offends, and the
entries before it are all that is registered. -/
theorem configures_configure (server : Server) (h : server.devices = []) (c : Config) :
    ((configure (ofServer server) c).1 = .ok () ↔ c.IsConsistent) ∧
      (c.IsConsistent → (configure (ofServer server) c).2.Realizes c) ∧
      Configures server (steps c) (configure (ofServer server) c) := by
  have hrun : Configures server (steps c) (configure (ofServer server) c) :=
    (registers_ofServer h).configures .nil (fun _ hname => absurd hname List.not_mem_nil)
      (Step.announced_steps c)
  have hok := hrun.result_eq_ok_iff
  rw [Step.faultless_iff, Step.consistent_steps_iff] at hok
  refine ⟨hok, fun hc => ?_, hrun⟩
  have hresult := hok.mpr hc
  generalize configure (ofServer server) c = out at hrun hresult
  cases hrun with
  | complete _ hr => exact hr.realizes
  | stopped => cases hresult

/-- A device of the server, and two clients with devices of their own. -/
theorem configures_configure_plant :
    let server := Server.ofTransport ⟨.attached .tcp true, .quiet "server"⟩ .standard
    let line : LinkConfig := { LinkConfig.standard with mode := .rtu, connection := "/dev/line" }
    let c : Config := ⟨.standard, [⟨⟨1⟩, false, [⟨.coil, 0, 8⟩]⟩],
      [⟨"plant", line, [⟨⟨2⟩, true, []⟩, ⟨⟨255⟩, false, []⟩]⟩, ⟨"yard", line, [⟨⟨3⟩, false, []⟩]⟩]⟩
    server.devices = [] ∧ c.IsConsistent ∧ (configure (ofServer server) c).1 = .ok () ∧
      (configure (ofServer server) c).2.Realizes c := by
  intro server line c
  have hconsistent : c.IsConsistent := by
    refine ⟨by decide, by decide, by decide, fun m hm => ?_⟩
    obtain rfl | rfl : m = _ ∨ m = _ := by simpa [c] using hm
    · exact ⟨_, rfl⟩
    · exact ⟨_, rfl⟩
  obtain ⟨hok, hrealizes, -⟩ := configures_configure server rfl c
  exact ⟨rfl, hconsistent, hok.mpr hconsistent, hrealizes hconsistent⟩

end Router

end Modbus
